/- Module: PatchesApply/Versions
   source: internal/vcpkgmcp/patchesapply/tribool.go
   digest: The comparison of versions is the lexicographic order of their components. -/

import McpLocalHub.Foundation.Decimal
import McpLocalHub.PatchesApply.Conditions
import Mathlib.Order.PiLex

set_option autoImplicit false

namespace McpLocalHub.PatchesApply.Versions

open CMakeGraph.Lexer (Text)
open Foundation.Decimal Conditions

/-- Runs of digits with dots between them, and what stands behind them. -/
structure Version where
  components : List Text
  suffix : Text
  nonempty : components ≠ []
  digits : ∀ run ∈ components, run ≠ [] ∧ Digits run
  behind : ∀ c ∈ suffix.head?, c.isDigit = false ∧ c ≠ '.'

def spell (suffix : Text) : List Text → Text
  | [] => suffix
  | [run] => run ++ suffix
  | run :: next :: rest => run ++ '.' :: spell suffix (next :: rest)

def Version.text (v : Version) : Text := spell v.suffix v.components

def number (runs : List Text) (i : ℕ) : ℕ := value (runs.getD i [])

def Version.component (v : Version) : ℕ → ℕ := number v.components

theorem isVersionDigit_eq (c : Char) : isVersionDigit c = c.isDigit := by
  unfold isVersionDigit Char.isDigit
  simp [Char.le_def]

structure Readable (suffix : Text) (runs : List Text) : Prop where
  digits : ∀ run ∈ runs, run ≠ [] ∧ Digits run
  behind : ∀ c ∈ suffix.head?, c.isDigit = false ∧ c ≠ '.'

variable {suffix suffix₁ suffix₂ run : Text} {runs runs₁ runs₂ : List Text}

theorem Readable.tail (readable : Readable suffix runs) : Readable suffix runs.tail :=
  ⟨fun run listed => readable.digits run (List.mem_of_mem_tail listed), readable.behind⟩

theorem startsWithDigit_spell (readable : Readable suffix runs) :
    startsWithDigit (spell suffix runs) = !runs.isEmpty := by
  have begins (run back : Text) (shown : run ≠ [] ∧ Digits run) :
      startsWithDigit (run ++ back) = true := by
    obtain ⟨c, rest, rfl⟩ := List.exists_cons_of_ne_nil shown.1
    simpa [startsWithDigit, isVersionDigit_eq] using shown.2 c List.mem_cons_self
  match runs with
  | [] =>
    unfold startsWithDigit spell
    cases first : suffix.head? with
    | none => rfl
    | some c => simpa [isVersionDigit_eq] using (readable.behind c first).1
  | [run] => exact begins run _ (readable.digits run (by simp))
  | run :: next :: rest => exact begins run _ (readable.digits run (by simp))

theorem digits_split (areDigits : Digits run) {back : Text}
    (ends : ∀ c ∈ back.head?, c.isDigit = false) :
    (run ++ back).takeWhile isVersionDigit = run ∧ (run ++ back).dropWhile isVersionDigit = back := by
  induction run with
  | nil =>
    cases back with
    | nil => exact ⟨rfl, rfl⟩
    | cons c rest =>
      have other : isVersionDigit c = false := by simpa [isVersionDigit_eq] using ends c rfl
      simp [other]
  | cons c rest ih =>
    have first : isVersionDigit c = true := by
      simpa [isVersionDigit_eq] using areDigits c List.mem_cons_self
    have later := ih (fun d listed => areDigits d (List.mem_cons_of_mem c listed))
    simp [first, later.1, later.2]

theorem zeros_split (areDigits : Digits run) {back : Text}
    (ends : ∀ c ∈ back.head?, c.isDigit = false) :
    (run ++ back).dropWhile (· = '0') = run.dropWhile (· = '0') ++ back := by
  induction run with
  | nil =>
    cases back with
    | nil => rfl
    | cons c rest =>
      have other : c ≠ '0' := by
        rintro rfl
        exact absurd (ends '0' rfl) (by decide)
      simp [other]
  | cons c rest ih =>
    by_cases zero : c = '0'
    · simpa [zero] using ih (fun d listed => areDigits d (List.mem_cons_of_mem c listed))
    · simp [zero]

theorem versionComponent_spell (readable : Readable suffix runs) :
    versionComponent (spell suffix runs) =
      ((runs.headD []).dropWhile (· = '0'), spell suffix runs.tail) := by
  have reads (run back : Text) (areDigits : Digits run)
      (ends : ∀ c ∈ back.head?, c.isDigit = false) :
      versionComponent (run ++ back) =
        (run.dropWhile (· = '0'), if back.head? = some '.' then back.tail else back) := by
    have split := digits_split (areDigits.dropWhile (· = '0')) ends
    simp only [versionComponent, zeros_split areDigits ends, split.1, split.2]
  have suffixEnds : ∀ c ∈ suffix.head?, c.isDigit = false :=
    fun c first => (readable.behind c first).1
  have noDot : suffix.head? ≠ some '.' := fun dot => (readable.behind '.' dot).2 rfl
  match runs with
  | [] =>
    have nothing := reads [] suffix (by simp [Digits]) suffixEnds
    rwa [if_neg noDot] at nothing
  | [run] =>
    have last := reads run suffix (readable.digits run (by simp)).2 suffixEnds
    rwa [if_neg noDot] at last
  | run :: next :: rest =>
    refine reads run _ (readable.digits run (by simp)).2 ?_
    rintro c ⟨⟩
    decide

theorem compare_shift (f g : ℕ → ℕ) :
    compare (toLex f) (toLex g) =
      (compare (f 0) (g 0)).then (compare (toLex (f ∘ Nat.succ)) (toLex (g ∘ Nat.succ))) := by
  have later {f g : ℕ → ℕ} (first : f 0 = g 0)
      (less : toLex (f ∘ Nat.succ) < toLex (g ∘ Nat.succ)) : toLex f < toLex g := by
    obtain ⟨i, before, less⟩ := less
    refine ⟨i + 1, ?_, less⟩
    intro j below
    cases j with
    | zero => exact first
    | succ j => exact before j (Nat.lt_of_succ_lt_succ below)
  have now {f g : ℕ → ℕ} (less : f 0 < g 0) : toLex f < toLex g :=
    ⟨0, fun j below => absurd below (Nat.not_lt_zero j), less⟩
  rcases Nat.lt_trichotomy (f 0) (g 0) with less | first | more
  · rw [compare_lt_iff_lt.mpr (now less), compare_lt_iff_lt.mpr less]
    rfl
  · rw [compare_eq_iff_eq.mpr first]
    rcases lt_trichotomy (toLex (f ∘ Nat.succ)) (toLex (g ∘ Nat.succ)) with less | same | more
    · rw [compare_lt_iff_lt.mpr (later first less), compare_lt_iff_lt.mpr less]
      rfl
    · have equal : f = g := by
        funext i
        cases i with
        | zero => exact first
        | succ i => exact congrFun (toLex.injective same) i
      rw [equal, compare_eq_iff_eq.mpr rfl, compare_eq_iff_eq.mpr rfl]
      rfl
    · rw [compare_gt_iff_gt.mpr (later first.symm more), compare_gt_iff_gt.mpr more]
      rfl
  · rw [compare_gt_iff_gt.mpr (now more), compare_gt_iff_gt.mpr more]
    rfl

theorem number_zero (runs : List Text) :
    number runs 0 = value ((runs.headD []).dropWhile (· = '0')) := by
  rw [value_dropWhile_zero]
  cases runs <;> rfl

theorem number_succ (runs : List Text) : number runs ∘ Nat.succ = number runs.tail := by
  funext i
  cases runs <;> simp [number]

theorem head_digits (readable : Readable suffix runs) :
    Digits ((runs.headD []).dropWhile (· = '0')) := by
  cases runs with
  | nil => simp [Digits]
  | cons run rest => exact (readable.digits run List.mem_cons_self).2.dropWhile _

theorem versionLoop_spell {fuel : ℕ} (readable₁ : Readable suffix₁ runs₁)
    (readable₂ : Readable suffix₂ runs₂)
    (enough : (spell suffix₁ runs₁).length + (spell suffix₂ runs₂).length < fuel) :
    versionLoop fuel (spell suffix₁ runs₁) (spell suffix₂ runs₂) =
      compare (toLex (number runs₁)) (toLex (number runs₂)) := by
  induction fuel generalizing runs₁ runs₂ with
  | zero => omega
  | succ fuel ih =>
    have fewer₁ := versionComponent_length (spell suffix₁ runs₁)
    have fewer₂ := versionComponent_length (spell suffix₂ runs₂)
    simp only [versionComponent_spell readable₁, startsWithDigit_spell readable₁] at fewer₁
    simp only [versionComponent_spell readable₂, startsWithDigit_spell readable₂] at fewer₂
    rw [versionLoop, startsWithDigit_spell readable₁, startsWithDigit_spell readable₂]
    split_ifs with more
    · have fewer : (spell suffix₁ runs₁.tail).length + (spell suffix₂ runs₂.tail).length < fuel := by
        rcases Bool.or_eq_true_iff.mp more with left | right
        · rw [if_pos left] at fewer₁
          omega
        · rw [if_pos right] at fewer₂
          omega
      have rest := ih readable₁.tail readable₂.tail fewer
      have first := compare_stripped (head_digits readable₁) (head_digits readable₂)
        (head?_dropWhile_zero _) (head?_dropWhile_zero _)
      rw [compare_shift, number_zero, number_zero, number_succ, number_succ, ← first, ← rest]
      dsimp only
      rw [versionComponent_spell readable₁, versionComponent_spell readable₂]
      generalize compare (List.length _) (List.length _) = lengths
      generalize List.compareLex _ _ _ = digits
      cases lengths <;> cases digits <;> rfl
    · have nothing : runs₁ = [] ∧ runs₂ = [] := by simpa using more
      rw [nothing.1, nothing.2, compare_eq_iff_eq.mpr rfl]

theorem Version.readable (v : Version) : Readable v.suffix v.components := ⟨v.digits, v.behind⟩

theorem compareVersions_eq (a b : Version) :
    compareVersions a.text b.text = compare (toLex a.component) (toLex b.component) :=
  versionLoop_spell a.readable b.readable (Nat.lt_succ_self _)

/-- The comparison of versions is the sign of the lexicographic order of their components, a total
preorder, and versions with the same numbers compare alike. -/
theorem compareVersions_numeric (a b c : Version) :
    compareVersions a.text b.text = compare (toLex a.component) (toLex b.component) ∧
      (compareVersions a.text b.text ≠ .gt ∨ compareVersions b.text a.text ≠ .gt) ∧
      (compareVersions a.text b.text ≠ .gt → compareVersions b.text c.text ≠ .gt →
        compareVersions a.text c.text ≠ .gt) ∧
      (a.component = b.component →
        compareVersions a.text c.text = compareVersions b.text c.text ∧
          compareVersions c.text a.text = compareVersions c.text b.text) := by
  simp only [compareVersions_eq, ne_eq, compare_gt_iff_gt, not_lt]
  refine ⟨trivial, le_total _ _, le_trans, ?_⟩
  intro same
  rw [same]
  exact ⟨rfl, rfl⟩

end McpLocalHub.PatchesApply.Versions
