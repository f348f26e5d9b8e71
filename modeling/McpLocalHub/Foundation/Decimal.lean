/- Module: Foundation/Decimal
   source: none (a library)
   digest: Lists of decimal digits, the numbers they spell, and their comparison. -/

import Mathlib.Algebra.Order.Field.Basic
import Mathlib.Data.List.Induction
import Mathlib.Data.Rat.Cast.Order
import Mathlib.Tactic.FieldSimp
import Mathlib.Tactic.Ring

set_option autoImplicit false

namespace McpLocalHub.Foundation.Decimal

open List

def value (digits : List Char) : ℕ := Nat.ofDigitChars 10 digits 0

def Digits (text : List Char) : Prop := ∀ c ∈ text, c.isDigit = true

instance (text : List Char) : Decidable (Digits text) :=
  List.decidableBAll (fun c : Char => c.isDigit = true) text

def digit (c : Char) : ℕ := c.toNat - '0'.toNat

variable {c : Char} {digits : List Char} {m n : ℕ}

theorem isDigit_range (isDigit : c.isDigit = true) : 48 ≤ c.toNat ∧ c.toNat ≤ 57 := by
  simp only [Char.isDigit, ge_iff_le, Bool.and_eq_true, decide_eq_true_eq] at isDigit
  exact ⟨isDigit.1, isDigit.2⟩

theorem digit_lt (isDigit : c.isDigit = true) : digit c < 10 := by
  have range := isDigit_range isDigit
  have zero : '0'.toNat = 48 := rfl
  unfold digit
  omega

theorem digit_inj {d : Char} (cDigit : c.isDigit = true) (dDigit : d.isDigit = true)
    (same : digit c = digit d) : c = d := by
  have cRange := isDigit_range cDigit
  have dRange := isDigit_range dDigit
  have zero : '0'.toNat = 48 := rfl
  unfold digit at same
  have codes : c.toNat = d.toNat := by omega
  exact Char.ext (UInt32.toNat_inj.mp codes)

theorem digit_pos (isDigit : c.isDigit = true) (nonzero : c ≠ '0') : 0 < digit c := by
  by_contra none
  have zero : digit c = digit '0' := by
    have own : digit '0' = 0 := rfl
    omega
  exact nonzero (digit_inj isDigit rfl zero)

theorem ofDigitChars_shift (digits : List Char) (init : ℕ) :
    Nat.ofDigitChars 10 digits init = init * 10 ^ digits.length + value digits := by
  induction digits generalizing init with
  | nil => simp [value, Nat.ofDigitChars_nil]
  | cons c rest ih =>
    have tail : value (c :: rest) = digit c * 10 ^ rest.length + value rest := by
      unfold value
      rw [Nat.ofDigitChars_cons, ih]
      simp [digit, value]
    rw [Nat.ofDigitChars_cons, ih, tail, length_cons]
    unfold digit
    ring

@[simp] theorem value_nil : value [] = 0 := rfl

theorem value_append (front back : List Char) :
    value (front ++ back) = value front * 10 ^ back.length + value back := by
  unfold value
  rw [Nat.ofDigitChars_append, ofDigitChars_shift]
  rfl

theorem value_concat (front : List Char) (c : Char) :
    value (front ++ [c]) = 10 * value front + digit c := by
  rw [value_append]
  have last : value [c] = digit c := by simp [value, digit, Nat.ofDigitChars_cons]
  rw [last, length_singleton, pow_one, Nat.mul_comm]

theorem value_cons (c : Char) (rest : List Char) :
    value (c :: rest) = digit c * 10 ^ rest.length + value rest := by
  have split := value_append [c] rest
  have first : value [c] = digit c := by simp [value, digit, Nat.ofDigitChars_cons]
  rwa [singleton_append, first] at split

theorem value_dropWhile_zero (digits : List Char) :
    value (digits.dropWhile (· = '0')) = value digits := by
  induction digits with
  | nil => rfl
  | cons c rest ih =>
    by_cases zero : c = '0'
    · have nothing : digit '0' = 0 := rfl
      rw [zero, dropWhile_cons_of_pos (by simp), ih, value_cons, nothing]
      omega
    · rw [dropWhile_cons_of_neg (by simpa using zero)]

theorem head?_dropWhile_zero (digits : List Char) :
    (digits.dropWhile (· = '0')).head? ≠ some '0' := by
  intro zero
  have kept := List.head?_dropWhile_not (fun c : Char => decide (c = '0')) digits
  rw [zero] at kept
  simp at kept

theorem Digits.dropWhile (areDigits : Digits digits) (p : Char → Bool) :
    Digits (digits.dropWhile p) :=
  fun c listed => areDigits c ((dropWhile_sublist p).subset listed)

theorem pow_le_value {rest : List Char} (isDigit : c.isDigit = true)
    (nonzero : c ≠ '0') : 10 ^ rest.length ≤ value (c :: rest) := by
  rw [value_cons]
  have counts := digit_pos isDigit nonzero
  have scaled : 1 * 10 ^ rest.length ≤ digit c * 10 ^ rest.length :=
    Nat.mul_le_mul_right _ counts
  omega

theorem pow_pred_le_value (areDigits : Digits digits)
    (nonempty : digits ≠ []) (leading : digits.head? ≠ some '0') :
    10 ^ (digits.length - 1) ≤ value digits := by
  cases digits with
  | nil => exact absurd rfl nonempty
  | cons c rest =>
    have isDigit := areDigits c mem_cons_self
    have nonzero : c ≠ '0' := fun zero => leading (congrArg some zero)
    exact pow_le_value isDigit nonzero

theorem value_pos (areDigits : Digits digits) (nonempty : digits ≠ [])
    (leading : digits.head? ≠ some '0') : 0 < value digits :=
  lt_of_lt_of_le (Nat.pow_pos (by omega)) (pow_pred_le_value areDigits nonempty leading)

variable {first second : List Char} {e f : ℤ}

theorem eq_of_value_eq (firstDigits : Digits first)
    (secondDigits : Digits second) (firstLeading : first.head? ≠ some '0')
    (secondLeading : second.head? ≠ some '0') (same : value first = value second) :
    first = second := by
  induction first using List.reverseRecOn generalizing second with
  | nil =>
    by_contra other
    have positive := value_pos secondDigits (Ne.symm other) secondLeading
    rw [← same, value_nil] at positive
    omega
  | append_singleton front c ih =>
    have positive := value_pos firstDigits (by simp) firstLeading
    rcases eq_nil_or_concat second with empty | ⟨back, d, shape⟩
    · rw [same, empty, value_nil] at positive
      omega
    · rw [concat_eq_append] at shape
      subst shape
      rw [value_concat, value_concat] at same
      have cDigit := firstDigits c (by simp)
      have dDigit := secondDigits d (by simp)
      have cSmall := digit_lt cDigit
      have dSmall := digit_lt dDigit
      have sameFront : value front = value back := by omega
      have sameLast : c = d := digit_inj cDigit dDigit (by omega)
      have frontLeading : front.head? ≠ some '0' := by
        intro zero
        exact firstLeading (by rw [List.head?_append, zero]; rfl)
      have backLeading : back.head? ≠ some '0' := by
        intro zero
        exact secondLeading (by rw [List.head?_append, zero]; rfl)
      have fronts := ih (fun x listed => firstDigits x (by simp [listed]))
        (fun x listed => secondDigits x (by simp [listed])) frontLeading backLeading sameFront
      rw [fronts, sameLast]

theorem not_ten_dvd_value (areDigits : Digits digits)
    (nonempty : digits ≠ []) (trailing : digits.getLast? ≠ some '0') : ¬10 ∣ value digits := by
  rcases eq_nil_or_concat digits with empty | ⟨front, c, shape⟩
  · exact absurd empty nonempty
  · rw [concat_eq_append] at shape
    subst shape
    have nonzero : c ≠ '0' := fun zero => trailing (by simp [zero])
    have isDigit := areDigits c (by simp)
    have small := digit_lt isDigit
    have counts := digit_pos isDigit nonzero
    rw [value_concat]
    omega

theorem toDigits_inj (same : Nat.toDigits 10 m = Nat.toDigits 10 n) : m = n := by
  have read := congrArg (fun digits => Nat.ofDigitChars 10 digits 0) same
  simpa [Nat.ofDigitChars_toDigits] using read

theorem value_lt_pow (areDigits : Digits digits) : value digits < 10 ^ digits.length := by
  induction digits with
  | nil => simp
  | cons c rest ih =>
    have small := digit_lt (areDigits c mem_cons_self)
    have tail := ih (fun d listed => areDigits d (mem_cons_of_mem c listed))
    have scaled : digit c * 10 ^ rest.length ≤ 9 * 10 ^ rest.length :=
      Nat.mul_le_mul_right _ (by omega)
    rw [value_cons, length_cons, pow_succ]
    omega

private theorem place_lt {place x y u v : ℕ} (less : x < y) (small : u < place) :
    x * place + u < y * place + v := by
  have scaled : (x + 1) * place ≤ y * place := Nat.mul_le_mul_right place less
  rw [Nat.add_mul] at scaled
  omega

section

variable (firstDigits : Digits first) (secondDigits : Digits second)

include firstDigits secondDigits

theorem compareLex_digits (same : first.length = second.length) :
    first.compareLex (fun c d => compare c.toNat d.toNat) second =
      compare (value first) (value second) := by
  induction first generalizing second with
  | nil =>
    obtain rfl := length_eq_zero_iff.mp same.symm
    rfl
  | cons c rest ih =>
    obtain ⟨d, back, rfl⟩ := exists_cons_of_length_eq_add_one same.symm
    have lengths : rest.length = back.length := by simpa using same
    have restDigits : Digits rest := fun x listed => firstDigits x (mem_cons_of_mem c listed)
    have backDigits : Digits back := fun x listed => secondDigits x (mem_cons_of_mem d listed)
    have restSmall := value_lt_pow restDigits
    have backSmall := value_lt_pow backDigits
    have cRange := isDigit_range (firstDigits c mem_cons_self)
    have dRange := isDigit_range (secondDigits d mem_cons_self)
    have zero : '0'.toNat = 48 := rfl
    rw [List.compareLex_cons_cons, ih restDigits backDigits lengths, value_cons, value_cons,
      ← lengths]
    rw [← lengths] at backSmall
    rcases Nat.lt_trichotomy c.toNat d.toNat with less | equal | more
    · have digits : digit c < digit d := by
        unfold digit
        omega
      rw [Nat.compare_eq_lt.mpr less, Nat.compare_eq_lt.mpr (place_lt digits restSmall)]
      rfl
    · have digits : digit c = digit d := congrArg (· - '0'.toNat) equal
      rw [equal, digits, Nat.compare_eq_eq.mpr rfl]
      rcases Nat.lt_trichotomy (value rest) (value back) with lower | level | higher
      · rw [Nat.compare_eq_lt.mpr lower, Nat.compare_eq_lt.mpr (by omega)]
        rfl
      · rw [level, Nat.compare_eq_eq.mpr rfl, Nat.compare_eq_eq.mpr rfl]
        rfl
      · rw [Nat.compare_eq_gt.mpr higher, Nat.compare_eq_gt.mpr (by omega)]
        rfl
    · have digits : digit d < digit c := by
        unfold digit
        omega
      rw [Nat.compare_eq_gt.mpr more, Nat.compare_eq_gt.mpr (place_lt digits backSmall)]
      rfl

theorem value_lt_of_length_lt (leading : second.head? ≠ some '0')
    (shorter : first.length < second.length) : value first < value second := by
  have nonempty : second ≠ [] := ne_nil_of_length_pos (by omega)
  calc value first < 10 ^ first.length := value_lt_pow firstDigits
    _ ≤ 10 ^ (second.length - 1) := Nat.pow_le_pow_right (by omega) (by omega)
    _ ≤ value second := pow_pred_le_value secondDigits nonempty leading

theorem compare_stripped (firstLeading : first.head? ≠ some '0')
    (secondLeading : second.head? ≠ some '0') :
    (compare first.length second.length).then
        (first.compareLex (fun c d => compare c.toNat d.toNat) second) =
      compare (value first) (value second) := by
  rcases Nat.lt_trichotomy first.length second.length with shorter | same | longer
  · have less := value_lt_of_length_lt firstDigits secondDigits secondLeading shorter
    rw [Nat.compare_eq_lt.mpr shorter, Nat.compare_eq_lt.mpr less]
    rfl
  · rw [Nat.compare_eq_eq.mpr same, compareLex_digits firstDigits secondDigits same]
    rfl
  · have less := value_lt_of_length_lt secondDigits firstDigits firstLeading longer
    rw [Nat.compare_eq_gt.mpr longer, Nat.compare_eq_gt.mpr less]
    rfl

end

private theorem le_of_scaled (coprime : ¬10 ∣ m)
    (same : (m : ℚ) * 10 ^ e = n * 10 ^ f) : f ≤ e := by
  by_contra above
  obtain ⟨k, rises⟩ : ∃ k : ℕ, f = e + ((k + 1 : ℕ) : ℤ) :=
    ⟨(f - e - 1).toNat, by omega⟩
  have base : (10 : ℚ) ^ e ≠ 0 := zpow_ne_zero e (by norm_num)
  have cancelled : (m : ℚ) = n * 10 ^ (k + 1) := by
    have shifted : (m : ℚ) * 10 ^ e = n * 10 ^ (k + 1) * 10 ^ e := by
      rw [same, rises, zpow_add₀ (by norm_num), zpow_natCast]
      ring
    exact mul_right_cancel₀ base shifted
  have naturals : m = n * 10 ^ (k + 1) := by exact_mod_cast cancelled
  exact coprime ⟨n * 10 ^ k, by rw [naturals, pow_succ]; ring⟩

theorem coefficient_unique (mCoprime : ¬10 ∣ m) (nCoprime : ¬10 ∣ n)
    (same : (m : ℚ) * 10 ^ e = n * 10 ^ f) : m = n ∧ e = f := by
  have exponents : e = f :=
    le_antisymm (le_of_scaled nCoprime same.symm) (le_of_scaled mCoprime same)
  subst exponents
  have base : (10 : ℚ) ^ e ≠ 0 := zpow_ne_zero e (by norm_num)
  have cancelled : (m : ℚ) = n := mul_right_cancel₀ base same
  exact ⟨by exact_mod_cast cancelled, rfl⟩

end McpLocalHub.Foundation.Decimal
