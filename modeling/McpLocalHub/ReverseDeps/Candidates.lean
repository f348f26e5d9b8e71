/- Module: ReverseDeps/Candidates
   source: internal/vcpkgmcp/reversedepgraph/filter.go
   digest: The filter in front of the analysis: one memoised search over the declared
   dependencies. -/

import McpLocalHub.Foundation.Maps
import Mathlib.Data.List.Sort
import Mathlib.Data.String.Basic

set_option autoImplicit false

namespace McpLocalHub.ReverseDeps.Candidates

open Foundation.Maps Relation List

structure Candidate where
  name : String
  winnerDirectory : String := ""
  winnerSource : String := ""
  shadows : List String := []
  declaredDependencies : List String := []
  inspectable : Bool := true
  definitionHash : String := ""
  deriving DecidableEq

inductive Reach
  | no | yes | uncertain
  deriving DecidableEq

abbrev ByName := Map String Candidate
abbrev Memo := Map String Reach

def byName (candidates : List Candidate) : ByName :=
  candidates.foldl (fun names candidate => names.insert candidate.name candidate) ∅

def resolveDependencies (resolve : String → Memo → Option (Reach × Memo)) :
    List String → Reach → Memo → Option (Reach × Memo)
  | [], result, memo => some (result, memo)
  | dependency :: rest, result, memo =>
    match resolve dependency memo with
    | none => none
    | some (.yes, memo) => some (.yes, memo)
    | some (.uncertain, memo) => resolveDependencies resolve rest .uncertain memo
    | some (.no, memo) => resolveDependencies resolve rest result memo

/-- `resolve`. The names that are marked as visiting are those of the calls under way; the fuel
bounds the depth of the calls. -/
def resolve (names : ByName) (selected : String) :
    ℕ → List String → String → Memo → Option (Reach × Memo)
  | 0, _, _, _ => none
  | fuel + 1, visiting, name, memo =>
    if name = selected then some (.yes, memo)
    else
      match memo.lookup name with
      | some value => some (value, memo)
      | none =>
        match names.lookup name with
        | none => some (.uncertain, memo)
        | some candidate =>
          if candidate.inspectable = false then some (.uncertain, memo)
          else if name ∈ visiting then some (.no, memo)
          else
            (resolveDependencies (resolve names selected fuel (name :: visiting))
              candidate.declaredDependencies .no memo).map
              (fun answer => (answer.1, answer.2.insert name answer.1))

def collect (resolve : String → Memo → Option (Reach × Memo)) :
    List Candidate → Memo → Option (List Candidate × Memo)
  | [], memo => some ([], memo)
  | candidate :: rest, memo =>
    match resolve candidate.name memo with
    | none => none
    | some (result, memo) =>
      (collect resolve rest memo).map (fun (potential, memo) =>
        (if result = .no then potential else candidate :: potential, memo))

def search (candidates : List Candidate) (selected : String) : Option (List Candidate × Memo) :=
  let names := byName candidates
  collect (resolve names selected (size names + 1) []) candidates ∅

def potentialCandidates (candidates : List Candidate) (selected : String) :
    Option (List Candidate) :=
  (search candidates selected).map
    (fun found => found.1.insertionSort (fun a b => a.name ≤ b.name))

section Spec

variable (names : ByName) (selected : String)

def Declares (a b : String) : Prop :=
  ∃ candidate, names.lookup a = some candidate ∧ candidate.inspectable = true ∧
    b ∈ candidate.declaredDependencies

def Open (name : String) : Prop :=
  name = selected ∨ names.lookup name = none ∨
    ∃ candidate, names.lookup name = some candidate ∧ candidate.inspectable = false

def CanReach (name : String) : Prop :=
  ∃ goal, ReflTransGen (Declares names) name goal ∧ Open names selected goal

/-- A name is memoised as no on the no of a declared name whose own search was under way and then
ends otherwise. -/
def Retracts (memo : Memo) : Prop :=
  ∃ a b result, Declares names a b ∧ memo.lookup a = some .no ∧
    memo.lookup b = some result ∧ result ≠ .no

end Spec

section Search

variable {names : ByName} {selected : String}

variable {a b name : String} {memo after : Memo} {result : Reach}
  {ask : String → Memo → Option (Reach × Memo)} {fuel : ℕ} {visiting : List String}

theorem CanReach.step (declares : Declares names a b)
    (reach : CanReach names selected b) : CanReach names selected a := by
  obtain ⟨goal, path, opened⟩ := reach
  exact ⟨goal, .head declares path, opened⟩

theorem not_canReach {dead : String → Prop}
    (closed : ∀ a, dead a → ¬ Open names selected a ∧ ∀ b, Declares names a b → dead b)
    (isDead : dead name) : ¬ CanReach names selected name := by
  rintro ⟨goal, path, opened⟩
  have deadGoal : dead goal := by
    clear opened
    induction path with
    | refl => exact isDead
    | tail _ declares ih => exact (closed _ ih).2 _ declares
  exact (closed goal deadGoal).1 opened

/-- What the memo is worth while the calls for `visiting` are under way: an answer other than no is
true, and a no has heard of every declared name. -/
structure Kept (names : ByName) (selected : String) (visiting : List String) (memo : Memo) :
    Prop where
  reach : ∀ name result, memo.lookup name = some result → result ≠ .no →
    CanReach names selected name
  closed : ∀ name, memo.lookup name = some .no → ¬ Open names selected name ∧
    ∀ dependency, Declares names name dependency →
      dependency ∈ visiting ∨ ∃ result, memo.lookup dependency = some result

def Extends (memo after : Memo) : Prop :=
  ∀ name result, memo.lookup name = some result → after.lookup name = some result

theorem Extends.trans {later : Memo} (first : Extends memo after) (second : Extends after later) :
    Extends memo later :=
  fun name result found => second name result (first name result found)

theorem Extends.insert (new : memo.lookup name = none) (first : Extends memo after) :
    Extends memo (after.insert name result) := by
  intro other value found
  have differs : other ≠ name := by
    rintro rfl
    rw [new] at found
    cases found
  rw [AList.lookup_insert_ne differs]
  exact first other value found

/-- What a call gives back. A name that is not open and not on the path has its answer in the
memo. -/
structure Answered (names : ByName) (selected : String) (visiting : List String) (name : String)
    (memo : Memo) (result : Reach) (after : Memo) : Prop where
  kept : Kept names selected visiting after
  extends_ : Extends memo after
  reach : result ≠ .no → CanReach names selected name
  verdict : name ∈ visiting ∧ result = .no ∨ Open names selected name ∧ result ≠ .no ∨
    after.lookup name = some result

theorem Answered.known {value : Reach}
    (answered : Answered names selected visiting name memo value after) (no : value = .no) :
    name ∈ visiting ∨ ∃ result, after.lookup name = some result := by
  rcases answered.verdict with ⟨onPath, -⟩ | ⟨-, other⟩ | found
  · exact .inl onPath
  · exact absurd no other
  · exact .inr ⟨value, found⟩

theorem resolveDependencies_answered
    (asked : ∀ dependency memo result after, ask dependency memo = some (result, after) →
      Kept names selected visiting memo →
        Answered names selected visiting dependency memo result after)
    {dependencies : List String} {start : Reach}
    (done : resolveDependencies ask dependencies start memo = some (result, after))
    (kept : Kept names selected visiting memo) :
    Kept names selected visiting after ∧ Extends memo after ∧
      (result ≠ .no → start ≠ .no ∨
        ∃ dependency ∈ dependencies, CanReach names selected dependency) ∧
      (result = .no → start = .no ∧ ∀ dependency ∈ dependencies,
        dependency ∈ visiting ∨ ∃ value, after.lookup dependency = some value) := by
  induction dependencies generalizing start memo with
  | nil =>
    cases done
    exact ⟨kept, fun _ _ found => found, .inl, fun no => ⟨no, nofun⟩⟩
  | cons dependency rest ih =>
    unfold resolveDependencies at done
    cases given : ask dependency memo with
    | none =>
      rw [given] at done
      cases done
    | some answer =>
      obtain ⟨value, next⟩ := answer
      have answered := asked dependency _ _ _ given kept
      rw [given] at done
      cases value with
      | yes =>
        cases done
        exact ⟨answered.kept, answered.extends_,
          fun _ => .inr ⟨dependency, mem_cons_self, answered.reach nofun⟩, nofun⟩
      | uncertain =>
        obtain ⟨keptAfter, grows, -, no⟩ := ih done answered.kept
        exact ⟨keptAfter, answered.extends_.trans grows,
          fun _ => .inr ⟨dependency, mem_cons_self, answered.reach nofun⟩,
          fun isNo => absurd (no isNo).1 nofun⟩
      | no =>
        obtain ⟨keptAfter, grows, some_, no⟩ := ih done answered.kept
        refine ⟨keptAfter, answered.extends_.trans grows, fun positive => ?_,
          fun isNo => ⟨(no isNo).1, ?_⟩⟩
        · rcases some_ positive with early | ⟨other, listed, here⟩
          · exact .inl early
          · exact .inr ⟨other, mem_cons_of_mem dependency listed, here⟩
        · intro other listed
          rcases mem_cons.mp listed with rfl | later
          · exact (answered.known rfl).imp_right
              (fun ⟨value, found⟩ => ⟨value, grows _ _ found⟩)
          · exact (no isNo).2 other later

theorem resolve_cases (names : ByName) (selected : String) (fuel : ℕ) (visiting : List String)
    (name : String) (memo : Memo) :
    Open names selected name ∧ (∃ result ≠ .no,
        resolve names selected (fuel + 1) visiting name memo = some (result, memo)) ∨
      (∃ value, memo.lookup name = some value ∧
        resolve names selected (fuel + 1) visiting name memo = some (value, memo)) ∨
      name ∈ visiting ∧ resolve names selected (fuel + 1) visiting name memo = some (.no, memo) ∨
      ∃ candidate, memo.lookup name = none ∧ name ≠ selected ∧
        names.lookup name = some candidate ∧ candidate.inspectable = true ∧ name ∉ visiting ∧
        resolve names selected (fuel + 1) visiting name memo =
          (resolveDependencies (resolve names selected fuel (name :: visiting))
            candidate.declaredDependencies .no memo).map
            (fun answer => (answer.1, answer.2.insert name answer.1)) := by
  by_cases chosen : name = selected
  · exact .inl ⟨.inl chosen, .yes, nofun, if_pos chosen⟩
  have asked : resolve names selected (fuel + 1) visiting name memo = _ := if_neg chosen
  cases memoized : memo.lookup name with
  | some value =>
    rw [memoized] at asked
    exact .inr (.inl ⟨value, rfl, asked⟩)
  | none =>
    rw [memoized] at asked
    cases known : names.lookup name with
    | none =>
      rw [known] at asked
      exact .inl ⟨.inr (.inl known), .uncertain, nofun, asked⟩
    | some candidate =>
      rw [known] at asked
      dsimp only at asked
      by_cases closed : candidate.inspectable = false
      · rw [if_pos closed] at asked
        exact .inl ⟨.inr (.inr ⟨candidate, known, closed⟩), .uncertain, nofun, asked⟩
      · rw [if_neg closed] at asked
        by_cases onPath : name ∈ visiting
        · rw [if_pos onPath] at asked
          exact .inr (.inr (.inl ⟨onPath, asked⟩))
        · rw [if_neg onPath] at asked
          exact .inr (.inr (.inr
            ⟨candidate, rfl, chosen, rfl, by simpa using closed, onPath, asked⟩))

theorem Kept.finish {candidate : Candidate} (other : name ≠ selected)
    (known : names.lookup name = some candidate) (inspectable : candidate.inspectable = true)
    (kept : Kept names selected (name :: visiting) memo)
    (reach : result ≠ .no → CanReach names selected name)
    (heard : result = .no → ∀ dependency ∈ candidate.declaredDependencies,
      dependency ∈ name :: visiting ∨ ∃ value, memo.lookup dependency = some value) :
    Kept names selected visiting (memo.insert name result) := by
  have remembered {dependency : String}
      (before : dependency ∈ name :: visiting ∨ ∃ value, memo.lookup dependency = some value) :
      dependency ∈ visiting ∨ ∃ value, (memo.insert name result).lookup dependency = some value := by
    by_cases own : dependency = name
    · exact .inr ⟨result, own ▸ AList.lookup_insert _⟩
    · rw [AList.lookup_insert_ne own]
      exact before.imp_left (fun listed => (mem_cons.mp listed).resolve_left own)
  constructor
  · intro asked value found positive
    rcases lookup_insert_cases found with ⟨rfl, rfl⟩ | ⟨-, earlier⟩
    · exact reach positive
    · exact kept.reach asked value earlier positive
  · intro asked found
    rcases lookup_insert_cases found with ⟨rfl, rfl⟩ | ⟨-, earlier⟩
    · refine ⟨?_, ?_⟩
      · rintro (same | absent | ⟨found, same, closed⟩)
        · exact other same
        · rw [known] at absent
          cases absent
        · cases known.symm.trans same
          rw [inspectable] at closed
          cases closed
      · rintro dependency ⟨found, same, -, listed⟩
        cases known.symm.trans same
        exact remembered (heard rfl dependency listed)
    · exact ⟨(kept.closed asked earlier).1,
        fun dependency declares => remembered ((kept.closed asked earlier).2 dependency declares)⟩

theorem resolve_answered
    (done : resolve names selected fuel visiting name memo = some (result, after))
    (kept : Kept names selected visiting memo) :
    Answered names selected visiting name memo result after := by
  have same : Extends memo memo := fun _ _ found => found
  induction fuel generalizing visiting name memo after result with
  | zero => cases done
  | succ fuel ih =>
    rcases resolve_cases names selected fuel visiting name memo with
      ⟨opened, value, positive, asked⟩ | ⟨value, memoized, asked⟩ | ⟨onPath, asked⟩ |
      ⟨candidate, new, other, known, inspectable, -, asked⟩
    · cases asked.symm.trans done
      exact ⟨kept, same, fun _ => ⟨name, .refl, opened⟩, .inr (.inl ⟨opened, positive⟩)⟩
    · cases asked.symm.trans done
      exact ⟨kept, same, kept.reach name _ memoized, .inr (.inr memoized)⟩
    · cases asked.symm.trans done
      exact ⟨kept, same, fun positive => absurd rfl positive, .inl ⟨onPath, rfl⟩⟩
    · rw [asked] at done
      obtain ⟨⟨value, next⟩, looped, pair⟩ := Option.map_eq_some_iff.mp done
      cases pair
      have onPath : Kept names selected (name :: visiting) memo :=
        ⟨kept.reach, fun asked found => ⟨(kept.closed asked found).1, fun dependency declares =>
          ((kept.closed asked found).2 dependency declares).imp_left (mem_cons_of_mem name)⟩⟩
      obtain ⟨keptNext, grows, some_, none_⟩ := resolveDependencies_answered
        (fun dependency memo result after asked kept =>
          ih asked kept (fun _ _ found => found)) looped onPath
      have reach (positive : value ≠ .no) : CanReach names selected name := by
        rcases some_ positive with early | ⟨dependency, listed, reach⟩
        · exact absurd rfl early
        · exact reach.step ⟨candidate, known, inspectable, listed⟩
      exact ⟨keptNext.finish other known inspectable reach (fun isNo => (none_ isNo).2),
        grows.insert new, reach, .inr (.inr (AList.lookup_insert _))⟩

theorem resolveDependencies_total
    (answers : ∀ dependency memo, ∃ answer, ask dependency memo = some answer)
    (dependencies : List String) (start : Reach) (memo : Memo) :
    ∃ answer, resolveDependencies ask dependencies start memo = some answer := by
  induction dependencies generalizing start memo with
  | nil => exact ⟨_, rfl⟩
  | cons dependency rest ih =>
    obtain ⟨⟨value, next⟩, answered⟩ := answers dependency memo
    unfold resolveDependencies
    rw [answered]
    cases value with
    | yes => exact ⟨_, rfl⟩
    | uncertain => exact ih .uncertain next
    | no => exact ih start next

theorem resolve_total (names : ByName) (selected : String)
    (enough : (names.keys.filter (· ∉ visiting)).length < fuel) (name : String) (memo : Memo) :
    ∃ answer, resolve names selected fuel visiting name memo = some answer := by
  induction fuel generalizing visiting name memo with
  | zero => exact absurd enough (Nat.not_lt_zero _)
  | succ fuel ih =>
    rcases resolve_cases names selected fuel visiting name memo with
      ⟨-, value, -, asked⟩ | ⟨value, -, asked⟩ | ⟨-, asked⟩ |
      ⟨candidate, -, -, known, -, offPath, asked⟩
    · exact ⟨_, asked⟩
    · exact ⟨_, asked⟩
    · exact ⟨_, asked⟩
    · have fewer : (names.keys.filter (· ∉ name :: visiting)).length <
          (names.keys.filter (· ∉ visiting)).length := by
        have split : names.keys.filter (· ∉ name :: visiting) =
            (names.keys.filter (· ∉ visiting)).filter (· ≠ name) := by
          rw [filter_filter]
          congr 1
          funext key
          simp [not_or]
        rw [split]
        refine length_filter_lt_length_iff_exists.mpr ⟨name, ?_, by simp⟩
        exact mem_filter.mpr ⟨mem_keys_of_lookup known, decide_eq_true offPath⟩
      obtain ⟨answer, looped⟩ := resolveDependencies_total
        (@ih (name :: visiting) (by omega))
        candidate.declaredDependencies .no memo
      rw [asked, looped]
      exact ⟨_, rfl⟩

end Search

theorem collect_spec {names : ByName} {selected : String} {fuel : ℕ} (enough : size names < fuel)
    (candidates : List Candidate) {memo : Memo} (kept : Kept names selected [] memo) :
    ∃ potential after, collect (resolve names selected fuel []) candidates memo =
        some (potential, after) ∧ potential.Sublist candidates ∧ Kept names selected [] after ∧
      Extends memo after ∧ (∀ candidate ∈ potential, CanReach names selected candidate.name) ∧
      ∀ candidate, candidate ∈ potential ↔
        candidate ∈ candidates ∧ after.lookup candidate.name ≠ some .no := by
  induction candidates generalizing memo with
  | nil =>
    exact ⟨[], memo, rfl, .slnil, kept, fun _ _ found => found, nofun,
      fun candidate => ⟨nofun, And.left⟩⟩
  | cons candidate rest ih =>
    have bound : (names.keys.filter (· ∉ ([] : List String))).length < fuel :=
      lt_of_le_of_lt (length_filter_le _ _) enough
    obtain ⟨⟨result, next⟩, asked⟩ := resolve_total names selected bound candidate.name memo
    have answered := resolve_answered asked kept
    obtain ⟨potential, after, collected, sublist, keptAfter, grows, reach, members⟩ := ih answered.kept
    have verdict : result = .no ↔ after.lookup candidate.name = some .no := by
      rcases answered.verdict with ⟨onPath, -⟩ | ⟨opened, positive⟩ | found
      · cases onPath
      · exact iff_of_false positive (fun no => (keptAfter.closed _ no).1 opened)
      · rw [grows _ _ found, Option.some_inj]
    unfold collect
    rw [asked]
    dsimp only
    rw [collected]
    by_cases isNo : result = .no
    · refine ⟨potential, after, by rw [Option.map_some, if_pos isNo], sublist.cons candidate,
        keptAfter, answered.extends_.trans grows, reach, fun other => ?_⟩
      rw [members, mem_cons]
      constructor
      · exact fun both => ⟨.inr both.1, both.2⟩
      · rintro ⟨rfl | listed, keeps⟩
        · exact absurd (verdict.mp isNo) keeps
        · exact ⟨listed, keeps⟩
    · refine ⟨candidate :: potential, after, by rw [Option.map_some, if_neg isNo],
        sublist.cons_cons candidate, keptAfter, answered.extends_.trans grows,
        forall_mem_cons.mpr ⟨answered.reach isNo, reach⟩, fun other => ?_⟩
      rw [mem_cons, members, mem_cons]
      constructor
      · rintro (rfl | both)
        · exact ⟨.inl rfl, mt verdict.mpr isNo⟩
        · exact ⟨.inr both.1, both.2⟩
      · rintro ⟨rfl | listed, keeps⟩
        · exact .inl rfl
        · exact .inr ⟨listed, keeps⟩

theorem lookup_byName {candidates : List Candidate} {name : String} {candidate : Candidate}
    (known : (byName candidates).lookup name = some candidate) :
    candidate ∈ candidates ∧ candidate.name = name := by
  have inserted : ∀ found, (byName candidates).lookup name = some found →
      found ∈ candidates ∧ found.name = name :=
    List.foldlRecOn (motive := fun names : ByName => ∀ found, names.lookup name = some found →
        found ∈ candidates ∧ found.name = name) candidates _ nofun
      (fun names held next listed found hit => by
        rcases lookup_insert_cases hit with ⟨rfl, rfl⟩ | ⟨-, earlier⟩
        · exact ⟨listed, rfl⟩
        · exact held found earlier)
  exact inserted candidate known

theorem not_canReach_of_no {names : ByName} {selected name : String} {memo : Memo}
    (kept : Kept names selected [] memo) (steady : ¬ Retracts names memo)
    (no : memo.lookup name = some .no) : ¬ CanReach names selected name := by
  have closed (a : String) (isNo : memo.lookup a = some .no) : ¬ Open names selected a ∧
      ∀ b, Declares names a b → memo.lookup b = some .no := by
    refine ⟨(kept.closed a isNo).1, fun b declares => ?_⟩
    rcases (kept.closed a isNo).2 b declares with onPath | ⟨result, found⟩
    · cases onPath
    · by_cases alsoNo : result = .no
      · exact alsoNo ▸ found
      · exact absurd ⟨a, b, result, declares, isNo, found, alsoNo⟩ steady
  exact not_canReach closed no

def mutualCandidates : List Candidate :=
  [{ name := "app", declaredDependencies := ["aaa", "lib"] },
    { name := "docs" }, { name := "lib", declaredDependencies := ["app"] }]

def tangledCandidates : List Candidate :=
  [{ name := "app", declaredDependencies := ["lib", "zlib"] },
    { name := "lib", declaredDependencies := ["app"] }, { name := "zlib" }]

end McpLocalHub.ReverseDeps.Candidates
