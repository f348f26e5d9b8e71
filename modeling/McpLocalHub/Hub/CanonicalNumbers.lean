/- Module: Hub/CanonicalNumbers
   source: internal/api/hub_mcp_request_id.go
   digest: Keys of number ids are equal exactly when the numbers are. -/

import McpLocalHub.Hub.RequestId
import Mathlib.Tactic.Linarith

set_option autoImplicit false

namespace McpLocalHub.Hub.CanonicalNumbers

open McpLocalHub.Foundation.Decimal Foundation.GoText RequestId List

variable {c : Char} {mantissa : Text} {neg₁ neg₂ neg : Bool} {key : RequestIDKey}

private theorem digit_ne {d : Char} (isDigit : c.isDigit = true)
    (other : d.isDigit = false) : c ≠ d := by
  rintro rfl
  rw [isDigit] at other
  cases other

variable {digits m m₁ m₂ raw : Text} {n : JSONNumber} {e e₁ e₂ : ℤ}

theorem scanMarks_digits (areDigits : Digits digits) (rest : Text) (i : ℕ)
    (dotIdx expIdx : Option ℕ) :
    scanMarks (digits ++ rest) i dotIdx expIdx =
      scanMarks rest (i + digits.length) dotIdx expIdx := by
  induction digits generalizing i with
  | nil => simp
  | cons c tail ih =>
    have isDigit := areDigits c mem_cons_self
    have noDot : c ≠ '.' := digit_ne isDigit rfl
    have noExp : ¬(c = 'e' ∨ c = 'E') := by
      rintro (e | e)
      · exact digit_ne isDigit rfl e
      · exact digit_ne isDigit rfl e
    have tailDigits : Digits tail := fun x listed => areDigits x (mem_cons_of_mem c listed)
    rw [cons_append, scanMarks, if_neg (fun both => noDot both.1),
      if_neg (fun both => noExp both.1), ih tailDigits, length_cons]
    congr 1
    omega

theorem scanMarks_exponent (rest : Text) (i : ℕ) (dotIdx : Option ℕ) (expIdx : ℕ) :
    scanMarks rest i dotIdx (some expIdx) = (dotIdx, some expIdx) := by
  induction rest generalizing i with
  | nil => rfl
  | cons c tail ih => rw [scanMarks, if_neg (by simp), if_neg (by simp), ih]

theorem scanMarks_letter (capital : Bool) (rest : Text) (i : ℕ) (dotIdx : Option ℕ) :
    scanMarks ((if capital then 'E' else 'e') :: rest) i dotIdx none = (dotIdx, some i) := by
  have letter : (if capital then 'E' else 'e') = 'e' ∨ (if capital then 'E' else 'e') = 'E' := by
    cases capital
    · exact .inl rfl
    · exact .inr rfl
  have noDot : (if capital then 'E' else 'e') ≠ '.' := by cases capital <;> decide
  rw [scanMarks, if_neg (fun all => noDot all.1), if_pos ⟨letter, rfl⟩, scanMarks_exponent]

theorem scanMarks_dot (rest : Text) (i : ℕ) :
    scanMarks ('.' :: rest) i none none = scanMarks rest (i + 1) (some i) none := by
  rw [scanMarks, if_pos ⟨rfl, rfl, rfl⟩]

def expBody (n : JSONNumber) : Text :=
  match n.exp with
  | none => []
  | some (_, sign, digits) =>
    (sign.map (fun negative => [if negative then '-' else '+'])).getD [] ++ digits

theorem fracDigits_digits (n : JSONNumber) : Digits n.fracDigits := by
  unfold JSONNumber.fracDigits
  cases shape : n.frac with
  | none =>
    exact nofun
  | some digits => exact (n.frac_digits digits shape).1

theorem expText_cases (n : JSONNumber) : n.expText = [] ∧ expBody n = [] ∨
    ∃ capital : Bool, n.expText = (if capital then 'E' else 'e') :: expBody n := by
  unfold JSONNumber.expText expBody
  cases n.exp with
  | none => exact .inl ⟨rfl, rfl⟩
  | some exp => exact .inr ⟨exp.1, rfl⟩

theorem splitJSONNumber_unsigned (n : JSONNumber) :
    splitJSONNumber n.unsigned = ⟨n.int, n.fracDigits, expBody n⟩ := by
  have intDigits := n.int_digits.1
  have fracDigits := fracDigits_digits n
  unfold splitJSONNumber JSONNumber.unsigned
  rw [append_assoc, scanMarks_digits intDigits]
  cases fracShape : n.frac with
  | none =>
    have noFrac : n.fracText = [] := by simp [JSONNumber.fracText, fracShape]
    have noDigits : n.fracDigits = [] := by simp [JSONNumber.fracDigits, fracShape]
    rcases expText_cases n with ⟨noExp, noBody⟩ | ⟨capital, expText⟩
    · simp [noFrac, noDigits, noExp, noBody, scanMarks]
    · rw [noFrac, noDigits, expText, nil_append, scanMarks_letter]
      simp
  | some digits =>
    have fracText : n.fracText = '.' :: n.fracDigits := by
      simp [JSONNumber.fracText, JSONNumber.fracDigits, fracShape]
    rw [fracText, cons_append, scanMarks_dot, scanMarks_digits fracDigits]
    rcases expText_cases n with ⟨noExp, noBody⟩ | ⟨capital, expText⟩
    · simp [noExp, noBody, scanMarks]
    · rw [expText, scanMarks_letter]
      have whole : n.int ++ '.' :: (n.fracDigits ++ (if capital then 'E' else 'e') :: expBody n) =
          (n.int ++ '.' :: n.fracDigits) ++ (if capital then 'E' else 'e') :: expBody n := by simp
      have split : 0 + n.int.length + 1 + n.fracDigits.length =
          (n.int ++ '.' :: n.fracDigits).length := by
        simp only [length_append, length_cons]
        omega
      have before : (n.int ++ '.' :: n.fracDigits).drop (0 + n.int.length + 1) = n.fracDigits := by
        rw [show n.int ++ '.' :: n.fracDigits = (n.int ++ ['.']) ++ n.fracDigits by simp]
        exact drop_left' (by simp)
      simp only [whole, split]
      rw [take_left, before, drop_append]
      simp

theorem allDigits_of_digits (areDigits : Digits digits) (nonempty : digits ≠ []) :
    allDigits digits = true := by
  simp only [allDigits, Bool.and_eq_true, decide_eq_true_eq, all_eq_true]
  exact ⟨nonempty, areDigits⟩

def expSign (n : JSONNumber) : Option Char :=
  match n.exp with
  | none => none
  | some (_, sign, _) => sign.map (fun negative => if negative then '-' else '+')

def expDigits (n : JSONNumber) : Text :=
  match n.exp with
  | none => []
  | some (_, _, digits) => digits

theorem expDigits_digits (n : JSONNumber) : Digits (expDigits n) := by
  unfold expDigits
  split
  · exact nofun
  · next letter sign digits shape => exact (n.exp_digits letter sign digits shape).1

theorem value_expDigits (n : JSONNumber) : value (expDigits n) = n.magnitude := by
  unfold expDigits JSONNumber.magnitude
  cases n.exp with
  | none => rfl
  | some exp => rfl

theorem splitExponent_expBody (n : JSONNumber) :
    splitExponent (expBody n) = .ok (expSign n, expDigits n) := by
  unfold expBody expSign expDigits
  cases shape : n.exp with
  | none => rfl
  | some exp =>
    obtain ⟨letter, sign, digits⟩ := exp
    obtain ⟨areDigits, nonempty⟩ := n.exp_digits letter sign digits shape
    have run := allDigits_of_digits areDigits nonempty
    cases sign with
    | some negative => cases negative <;> simp [splitExponent, nonempty, run]
    | none =>
      cases digits with
      | nil => exact absurd rfl nonempty
      | cons c tail =>
        have isDigit := areDigits c mem_cons_self
        have noSign : ¬(c = '+' ∨ c = '-') := by
          rintro (e | e)
          · exact digit_ne isDigit rfl e
          · exact digit_ne isDigit rfl e
        simp [splitExponent, noSign, run]

theorem bound_lt_of_long (areDigits : Digits digits)
    (leading : digits.head? ≠ some '0') (long : 8 < digits.length) :
    maxCanonicalExponentMagnitude < value digits := by
  have nonempty : digits ≠ [] := by
    rintro rfl
    cases long
  have large := pow_pred_le_value areDigits nonempty leading
  have scale : 10 ^ 8 ≤ 10 ^ (digits.length - 1) := Nat.pow_le_pow_right (by omega) (by omega)
  have small : maxCanonicalExponentMagnitude < 10 ^ 8 := by decide
  omega

theorem parseExponent_within (areDigits : Digits digits) (sign : Option Char)
    (within : value digits ≤ maxCanonicalExponentMagnitude) :
    parseExponent sign digits =
      .ok (if sign = some '-' then -(value digits : ℤ) else value digits) := by
  have kept := value_dropWhile_zero digits
  have leading := head?_dropWhile_zero digits
  have trimmed := Digits.dropWhile areDigits (· = '0')
  unfold parseExponent
  by_cases empty : digits.dropWhile (· = '0') = []
  · have zero : value digits = 0 := by rw [← kept, empty, value_nil]
    simp [empty, zero]
  · have short : ¬8 < (digits.dropWhile (· = '0')).length := by
      intro long
      have beyond := bound_lt_of_long trimmed leading long
      omega
    have bounded : ¬maxCanonicalExponentMagnitude < value digits := by omega
    simp only [empty, short, kept, bounded, if_false]

theorem parseExponent_beyond (sign : Option Char)
    (beyond : maxCanonicalExponentMagnitude < value digits) :
    ∃ error, parseExponent sign digits = .error error := by
  have kept := value_dropWhile_zero digits
  have nonempty : digits.dropWhile (· = '0') ≠ [] := by
    intro empty
    rw [empty, value_nil] at kept
    omega
  unfold parseExponent
  by_cases long : 8 < (digits.dropWhile (· = '0')).length
  · exact ⟨.magnitudeLength (digits.dropWhile (· = '0')),
      by simp only [nonempty, long, if_false, if_true]⟩
  · exact ⟨.magnitude (value digits),
      by simp only [nonempty, long, kept, beyond, if_false, if_true]⟩

theorem exponent_eq (n : JSONNumber) :
    n.exponent = if expSign n = some '-' then -(n.magnitude : ℤ) else n.magnitude := by
  unfold JSONNumber.exponent expSign
  cases shape : n.exp with
  | none => simp
  | some exp =>
    obtain ⟨letter, sign, digits⟩ := exp
    cases sign with
    | none => simp
    | some negative => cases negative <;> simp

theorem canonicalizeUnsigned_eq (neg : Bool) (n : JSONNumber) :
    canonicalizeUnsigned neg n.unsigned =
      (parseExponent (expSign n) (expDigits n)).map (fun parsed =>
        canonicalForm neg (n.int ++ n.fracDigits) (parsed - n.fracDigits.length)) := by
  obtain ⟨intDigits, intNonempty, _⟩ := n.int_digits
  have intRun := allDigits_of_digits intDigits intNonempty
  have fracRun : ¬(n.fracDigits ≠ [] ∧ allDigits n.fracDigits = false) := by
    rintro ⟨nonempty, bad⟩
    rw [allDigits_of_digits (fracDigits_digits n) nonempty] at bad
    cases bad
  unfold canonicalizeUnsigned
  simp only [splitJSONNumber_unsigned, if_neg intNonempty, intRun, Bool.true_eq_false,
    if_neg fracRun, if_false, splitExponent_expBody]
  change (parseExponent (expSign n) (expDigits n) >>= fun parsed =>
    pure (canonicalForm neg (n.int ++ n.fracDigits) (parsed - n.fracDigits.length))) = _
  cases parseExponent (expSign n) (expDigits n) <;> rfl

theorem unsigned_head (n : JSONNumber) : ∃ c tail, n.unsigned = c :: tail ∧ c.isDigit = true := by
  obtain ⟨intDigits, intNonempty, _⟩ := n.int_digits
  cases shape : n.int with
  | nil => exact absurd shape intNonempty
  | cons c tail =>
    refine ⟨c, tail ++ n.fracText ++ n.expText, ?_, intDigits c (by rw [shape]; simp)⟩
    simp [JSONNumber.unsigned, shape]

theorem canonicalizeJSONNumber_text (n : JSONNumber) :
    canonicalizeJSONNumber n.text = canonicalizeUnsigned n.neg n.unsigned := by
  obtain ⟨c, tail, shape, isDigit⟩ := unsigned_head n
  have noMinus : c ≠ '-' := digit_ne isDigit rfl
  unfold JSONNumber.text
  cases n.neg with
  | true => rw [shape]; rfl
  | false =>
    rw [shape]
    unfold canonicalizeJSONNumber
    split
    · next empty => cases empty
    · next lone => exact absurd (List.cons.inj lone).1 noMinus
    · next minus => exact absurd (List.cons.inj minus).1 noMinus
    · rfl

def canonical (n : JSONNumber) : Text :=
  canonicalForm n.neg (n.int ++ n.fracDigits) (n.exponent - n.fracDigits.length)

theorem canonicalize_within (within : n.magnitude ≤ maxCanonicalExponentMagnitude) :
    canonicalizeJSONNumber n.text = .ok (canonical n) := by
  rw [canonicalizeJSONNumber_text, canonicalizeUnsigned_eq,
    parseExponent_within (expDigits_digits n) _ (by rwa [value_expDigits]), value_expDigits,
    ← exponent_eq]
  rfl

theorem canonicalize_beyond (beyond : maxCanonicalExponentMagnitude < n.magnitude) :
    ∃ error, canonicalizeJSONNumber n.text = .error error := by
  obtain ⟨error, refused⟩ := parseExponent_beyond (expSign n) (by rwa [value_expDigits])
  refine ⟨error, ?_⟩
  rw [canonicalizeJSONNumber_text, canonicalizeUnsigned_eq, refused]
  rfl

structure Stripped (mantissa : Text) : Prop where
  digits : Digits mantissa
  nonempty : mantissa ≠ []
  leading : mantissa.head? ≠ some '0'
  trailing : mantissa.getLast? ≠ some '0'

theorem stripTrailingZeros_spec (digits : Digits mantissa)
    (leading : mantissa.head? ≠ some '0') (nonempty : mantissa ≠ []) (stripped : ℕ) :
    Stripped (stripTrailingZeros mantissa stripped).1 ∧
      ∃ k, (stripTrailingZeros mantissa stripped).2 = stripped + k ∧
        value mantissa = value (stripTrailingZeros mantissa stripped).1 * 10 ^ k := by
  induction length : mantissa.length generalizing mantissa stripped with
  | zero => exact absurd (length_eq_zero_iff.mp length) nonempty
  | succ m ih =>
    rw [stripTrailingZeros]
    by_cases trailing : mantissa.getLast? = some '0'
    · rw [dif_pos trailing]
      obtain ⟨front, shape⟩ := List.getLast?_eq_some_iff.mp trailing
      subst shape
      rw [dropLast_concat]
      have frontNonempty : front ≠ [] := by
        rintro rfl
        exact leading rfl
      have frontLeading : front.head? ≠ some '0' := by
        intro zero
        exact leading (by rw [List.head?_append, zero]; rfl)
      have frontDigits : Digits front := fun c listed => digits c (by simp [listed])
      obtain ⟨clean, k, count, scaled⟩ :=
        ih frontDigits frontLeading frontNonempty (stripped + 1) (by simpa using length)
      refine ⟨clean, k + 1, by omega, ?_⟩
      have zero : digit '0' = 0 := rfl
      rw [value_concat, zero, scaled, pow_succ]
      ring
    · rw [dif_neg trailing]
      exact ⟨⟨digits, nonempty, leading, trailing⟩, 0, rfl, by simp⟩

/-- A mantissa of zeros gives the form of zero; any other one a stripped mantissa and the exponent
that keeps the value. -/
theorem canonicalForm_cases (digits : Digits mantissa) (neg : Bool) (mantExp : ℤ) :
    (value mantissa = 0 ∧ canonicalForm neg mantissa mantExp = ['0']) ∨
      ∃ m k, Stripped m ∧ value mantissa = value m * 10 ^ k ∧
        canonicalForm neg mantissa mantExp = emit neg m (mantExp + (k : ℕ)) := by
  have kept := value_dropWhile_zero mantissa
  by_cases empty : mantissa.dropWhile (· = '0') = []
  · refine .inl ⟨by rw [← kept, empty, value_nil], ?_⟩
    simp [canonicalForm, empty]
  · obtain ⟨clean, k, count, scaled⟩ := stripTrailingZeros_spec
      (Digits.dropWhile digits (· = '0')) (head?_dropWhile_zero mantissa) empty 0
    refine .inr ⟨_, k, clean, kept ▸ scaled, ?_⟩
    simp only [canonicalForm, empty, if_false, count, Nat.zero_add]

theorem Stripped.value_pos (clean : Stripped m) : 0 < value m :=
  McpLocalHub.Foundation.Decimal.value_pos clean.digits clean.nonempty clean.leading

theorem Stripped.scaled_pos (clean : Stripped m) (e : ℤ) : (0 : ℚ) < value m * 10 ^ e :=
  mul_pos (by exact_mod_cast clean.value_pos) (zpow_pos (by norm_num) e)

theorem Stripped.not_ten_dvd (clean : Stripped m) : ¬10 ∣ value m :=
  not_ten_dvd_value clean.digits clean.nonempty clean.trailing

theorem Stripped.head (clean : Stripped m) :
    ∃ c tail, m = c :: tail ∧ c.isDigit = true ∧ c ≠ '0' := by
  cases m with
  | nil => exact absurd rfl clean.nonempty
  | cons c tail =>
    exact ⟨c, tail, rfl, clean.digits c mem_cons_self,
      fun zero => clean.leading (congrArg some zero)⟩

theorem toDigits_ne_minus (n : ℕ) (rest : Text) : Nat.toDigits 10 n ≠ '-' :: rest := by
  intro shape
  have isDigit : '-'.isDigit = true :=
    Nat.isDigit_of_mem_toDigits (by omega) (le_refl 10) (by rw [shape]; exact mem_cons_self)
  cases isDigit

theorem exponentSuffix_inj {f : ℤ} (same : exponentSuffix e = exponentSuffix f) : e = f := by
  unfold exponentSuffix at same
  split_ifs at same with eZero fZero fNeg fZero eNeg fZero fNeg fZero
  · omega
  · have magnitudes := toDigits_inj (List.cons.inj (List.cons.inj same).2).2
    omega
  · exact absurd (List.cons.inj same).2.symm (toDigits_ne_minus _ _)
  · exact absurd (List.cons.inj same).2 (toDigits_ne_minus _ _)
  · have magnitudes := toDigits_inj (List.cons.inj same).2
    omega

theorem takeWhile_exponentSuffix (e : ℤ) : (exponentSuffix e).takeWhile Char.isDigit = [] := by
  unfold exponentSuffix
  split_ifs <;> rfl

theorem mantissa_exponentSuffix_inj (digits₁ : Digits m₁) (digits₂ : Digits m₂)
    (same : m₁ ++ exponentSuffix e₁ = m₂ ++ exponentSuffix e₂) : m₁ = m₂ ∧ e₁ = e₂ := by
  have mantissas := congrArg (List.takeWhile Char.isDigit) same
  rw [takeWhile_append_of_pos digits₁, takeWhile_append_of_pos digits₂,
    takeWhile_exponentSuffix, takeWhile_exponentSuffix, append_nil, append_nil] at mantissas
  subst mantissas
  exact ⟨rfl, exponentSuffix_inj (append_cancel_left same)⟩

theorem emit_inj (clean₁ : Stripped m₁)
    (clean₂ : Stripped m₂) (same : emit neg₁ m₁ e₁ = emit neg₂ m₂ e₂) :
    neg₁ = neg₂ ∧ m₁ = m₂ ∧ e₁ = e₂ := by
  obtain ⟨c₁, tail₁, shape₁, isDigit₁, _⟩ := clean₁.head
  obtain ⟨c₂, tail₂, shape₂, isDigit₂, _⟩ := clean₂.head
  unfold emit at same
  have signs : neg₁ = neg₂ := by
    have heads := congrArg List.head? same
    cases neg₁ <;> cases neg₂ <;> simp [shape₁, shape₂] at heads ⊢
    · exact absurd heads (digit_ne isDigit₁ rfl)
    · exact absurd heads.symm (digit_ne isDigit₂ rfl)
  subst signs
  rw [append_assoc, append_assoc] at same
  exact ⟨rfl, mantissa_exponentSuffix_inj clean₁.digits clean₂.digits (append_cancel_left same)⟩

theorem emit_ne_zero (clean : Stripped m) : emit neg m e ≠ ['0'] := by
  obtain ⟨c, tail, shape, _, nonzero⟩ := clean.head
  intro zero
  have heads := congrArg List.head? zero
  cases neg with
  | true => simp [emit] at heads
  | false => exact nonzero (by simpa [emit, shape] using heads)

theorem denotes_eq (n : JSONNumber) : n.denotes = (if n.neg then -1 else 1) *
      ((value (n.int ++ n.fracDigits) : ℚ) * 10 ^ (n.exponent - n.fracDigits.length)) := by
  have scale : (10 : ℚ) ^ n.fracDigits.length ≠ 0 := pow_ne_zero _ (by norm_num)
  unfold JSONNumber.denotes
  rw [value_append, zpow_sub₀ (by norm_num), zpow_natCast]
  push_cast
  field_simp

def formValue (neg : Bool) (m : Text) (e : ℤ) : ℚ := (if neg then -1 else 1) * ((value m : ℚ) * 10 ^ e)

theorem formValue_inj (clean₁ : Stripped m₁)
    (clean₂ : Stripped m₂) (same : formValue neg₁ m₁ e₁ = formValue neg₂ m₂ e₂) :
    neg₁ = neg₂ ∧ m₁ = m₂ ∧ e₁ = e₂ := by
  have positive₁ := clean₁.scaled_pos e₁
  have positive₂ := clean₂.scaled_pos e₂
  unfold formValue at same
  have signs : neg₁ = neg₂ := by
    cases neg₁ <;> cases neg₂ <;> simp only [if_true, if_false, Bool.false_eq_true] at same ⊢
    · linarith
    · linarith
  subst signs
  have unsigned : (value m₁ : ℚ) * 10 ^ e₁ = value m₂ * 10 ^ e₂ := by
    cases neg₁ <;> simp only [if_true, if_false, Bool.false_eq_true] at same <;> linarith
  obtain ⟨values, exponents⟩ :=
    coefficient_unique clean₁.not_ten_dvd clean₂.not_ten_dvd unsigned
  exact ⟨rfl, eq_of_value_eq clean₁.digits clean₂.digits clean₁.leading clean₂.leading values,
    exponents⟩

theorem formValue_ne_zero (clean : Stripped m) : formValue neg m e ≠ 0 := by
  have positive := clean.scaled_pos e
  intro zero
  unfold formValue at zero
  cases neg <;> simp only [if_true, if_false, Bool.false_eq_true] at zero <;> linarith

theorem canonical_cases (n : JSONNumber) :
    (n.denotes = 0 ∧ canonical n = ['0']) ∨
      ∃ m e, Stripped m ∧ n.denotes = formValue n.neg m e ∧ canonical n = emit n.neg m e := by
  have digits : Digits (n.int ++ n.fracDigits) := by
    intro c listed
    rcases mem_append.mp listed with inInt | inFrac
    · exact n.int_digits.1 c inInt
    · exact fracDigits_digits n c inFrac
  rw [denotes_eq]
  rcases canonicalForm_cases digits n.neg (n.exponent - n.fracDigits.length) with
    ⟨zero, form⟩ | ⟨m, k, clean, scaled, form⟩
  · exact .inl ⟨by rw [zero]; simp, form⟩
  · refine .inr ⟨m, _, clean, ?_, form⟩
    unfold formValue
    rw [scaled, zpow_add₀ (by norm_num), zpow_natCast]
    push_cast
    ring

theorem canonical_eq_iff
    (a b : JSONNumber) : canonical a = canonical b ↔ a.denotes = b.denotes := by
  rcases canonical_cases a with ⟨aZero, aForm⟩ | ⟨m, e, aClean, aValue, aForm⟩ <;>
    rcases canonical_cases b with ⟨bZero, bForm⟩ | ⟨m', e', bClean, bValue, bForm⟩
  · rw [aForm, bForm, aZero, bZero]
    simp
  · rw [aForm, bForm, aZero, bValue]
    exact ⟨fun same => absurd same.symm (emit_ne_zero bClean),
      fun same => absurd same.symm (formValue_ne_zero bClean)⟩
  · rw [aForm, bForm, aValue, bZero]
    exact ⟨fun same => absurd same (emit_ne_zero aClean),
      fun same => absurd same (formValue_ne_zero aClean)⟩
  · rw [aForm, bForm, aValue, bValue]
    constructor
    · intro same
      obtain ⟨signs, mantissas, exponents⟩ := emit_inj aClean bClean same
      rw [signs, mantissas, exponents]
    · intro same
      obtain ⟨signs, mantissas, exponents⟩ := formValue_inj aClean bClean same
      rw [signs, mantissas, exponents]

/-- The raw id is the number, up to white space around it. -/
def Spells (raw : Text) (n : JSONNumber) : Prop := trimRunes raw = n.text

/-- The raw id is a JSON string, as the code tells one. -/
def Quoted (raw : Text) : Prop := (trimRunes raw).head? = some '"'

theorem text_head (n : JSONNumber) :
    ∃ c tail, n.text = c :: tail ∧ (c.isDigit = true ∨ c = '-') := by
  obtain ⟨c, tail, shape, isDigit⟩ := unsigned_head n
  unfold JSONNumber.text
  cases n.neg with
  | true => exact ⟨'-', n.unsigned, rfl, .inr rfl⟩
  | false => exact ⟨c, tail, shape, .inl isDigit⟩

section

variable (json : JSON) (spells : Spells raw n)

include spells

theorem newRequestIDKey_number : newRequestIDKey json raw = numberIDKey n.text := by
  obtain ⟨decodes, atEnd⟩ := json.hands_over n
  obtain ⟨c, tail, shape, first⟩ := text_head n
  have other (d : Char) (notDigit : d.isDigit = false) (notMinus : d ≠ '-') : c ≠ d := by
    rcases first with isDigit | minus
    · exact digit_ne isDigit notDigit
    · exact minus ▸ notMinus.symm
  have notNull : c ≠ 'n' := other 'n' rfl (by decide)
  have notQuote : c ≠ '"' := other '"' rfl (by decide)
  have notPlus : c ≠ '+' := other '+' rfl (by decide)
  unfold Spells at spells
  rw [shape] at spells decodes atEnd ⊢
  simp only [newRequestIDKey, spells]
  split
  · next empty => cases empty
  · next null => exact absurd (List.cons.inj null).1 notNull
  · next quote => exact absurd (List.cons.inj quote).1 notQuote
  · simp only [decodes, atEnd]
    split
    · next wrong => cases wrong
    · next plus =>
      rw [Decoded.number.injEq] at plus
      exact absurd (List.cons.inj plus).1 notPlus
    · next same =>
      rw [Decoded.number.injEq] at same
      rw [same]

theorem newRequestIDKey_within (within : n.magnitude ≤ maxCanonicalExponentMagnitude) :
    newRequestIDKey json raw = .ok ('n' :: ':' :: canonical n) := by
  rw [newRequestIDKey_number json spells, numberIDKey, canonicalize_within within]

theorem newRequestIDKey_beyond (beyond : maxCanonicalExponentMagnitude < n.magnitude) :
    ∃ error, newRequestIDKey json raw = .error error := by
  obtain ⟨error, refused⟩ := canonicalize_beyond beyond
  exact ⟨.number error, by rw [newRequestIDKey_number json spells, numberIDKey, refused]⟩

theorem newRequestIDKey_accepted (accepted : newRequestIDKey json raw = .ok key) :
    key = 'n' :: ':' :: canonical n := by
  rcases le_or_gt n.magnitude maxCanonicalExponentMagnitude with within | beyond
  · rw [newRequestIDKey_within json spells within, Except.ok.injEq] at accepted
    exact accepted.symm
  · obtain ⟨error, refused⟩ := newRequestIDKey_beyond json spells beyond
    rw [refused] at accepted
    cases accepted

end

theorem newRequestIDKey_quoted (json : JSON) (isQuoted : Quoted raw)
    (accepted : newRequestIDKey json raw = .ok key) :
    ∃ body, key = 's' :: ':' :: body := by
  obtain ⟨tail, shape⟩ : ∃ tail, trimRunes raw = '"' :: tail :=
    List.head?_eq_some_iff.mp isQuoted
  unfold newRequestIDKey at accepted
  simp only [shape] at accepted
  cases result : json.unmarshalString ('"' :: tail) with
  | error text =>
    rw [result] at accepted
    cases accepted
  | ok body =>
    rw [result, Except.ok.injEq] at accepted
    exact ⟨body, accepted.symm⟩

/-- Two accepted number ids share a key exactly when they denote the same rational; one is refused
exactly when its exponent is beyond the bound; and no string id has the key of a number id. -/
theorem requestIDKey_exact (json : JSON) (a b : JSONNumber) (rawA rawB : Text)
    (spellsA : Spells rawA a) (spellsB : Spells rawB b) :
    (∀ keyA keyB, newRequestIDKey json rawA = .ok keyA → newRequestIDKey json rawB = .ok keyB →
        (keyA = keyB ↔ a.denotes = b.denotes)) ∧
      ((∃ error, newRequestIDKey json rawA = .error error) ↔
        maxCanonicalExponentMagnitude < a.magnitude) ∧
      (∀ rawS keyA keyS, Quoted rawS → newRequestIDKey json rawA = .ok keyA →
        newRequestIDKey json rawS = .ok keyS → keyA ≠ keyS) := by
  refine ⟨?_, ⟨?_, newRequestIDKey_beyond json spellsA⟩, ?_⟩
  · intro keyA keyB acceptedA acceptedB
    rw [newRequestIDKey_accepted json spellsA acceptedA,
      newRequestIDKey_accepted json spellsB acceptedB, ← canonical_eq_iff]
    simp
  · rintro ⟨error, refused⟩
    by_contra within
    rw [newRequestIDKey_within json spellsA (not_lt.mp within)] at refused
    cases refused
  · intro rawS keyA keyS isQuoted acceptedA acceptedS same
    obtain ⟨body, shape⟩ := newRequestIDKey_quoted json isQuoted acceptedS
    rw [newRequestIDKey_accepted json spellsA acceptedA, shape] at same
    cases same

def plainJSON : JSON where
  unmarshalString := fun text => .ok text.tail.dropLast
  decode := fun text =>
    match text with
    | c :: _ => if c.isDigit || c = '-' then .ok (.number text) else .ok .other
    | [] => .error "unexpected end of JSON input"
  decodeRest := fun _ => .eof
  hands_over := by
    intro n
    obtain ⟨c, tail, shape, first⟩ := text_head n
    rw [shape]
    rcases first with isDigit | minus
    · simp [isDigit]
    · simp [minus]

private theorem digits_singleton (isDigit : c.isDigit = true) : Digits [c] := by
  intro d listed
  rw [mem_singleton.mp listed]
  exact isDigit

def onePointZero : JSONNumber where
  neg := false
  int := ['1']
  frac := some ['0']
  exp := none
  int_digits := by decide
  frac_digits := by
    rintro digits ⟨⟩
    exact ⟨digits_singleton rfl, by simp⟩
  exp_digits := nofun

def tenTenths : JSONNumber where
  neg := false
  int := ['1', '0']
  frac := none
  exp := some (true, some true, ['0', '1'])
  int_digits := by decide
  frac_digits := nofun
  exp_digits := by
    rintro letter sign digits ⟨⟩
    decide

theorem requestIDKey_exact_one : newRequestIDKey plainJSON " 1.0".toList = .ok "n:1".toList ∧
      newRequestIDKey plainJSON "10E-01".toList = .ok "n:1".toList ∧
      newRequestIDKey plainJSON "\"1\"".toList = .ok "s:1".toList ∧
      onePointZero.denotes = tenTenths.denotes ∧ "n:1".toList ≠ "s:1".toList := by
  have first : newRequestIDKey plainJSON " 1.0".toList = .ok "n:1".toList := by decide +kernel
  have second : newRequestIDKey plainJSON "10E-01".toList = .ok "n:1".toList := by decide +kernel
  have third : newRequestIDKey plainJSON "\"1\"".toList = .ok "s:1".toList := by decide +kernel
  obtain ⟨equal, _, apart⟩ := requestIDKey_exact plainJSON onePointZero tenTenths " 1.0".toList
    "10E-01".toList (by unfold Spells; decide +kernel) (by unfold Spells; decide +kernel)
  exact ⟨first, second, third, (equal _ _ first second).mp rfl,
    apart _ _ _ (by unfold Quoted; decide +kernel) first third⟩

end McpLocalHub.Hub.CanonicalNumbers
