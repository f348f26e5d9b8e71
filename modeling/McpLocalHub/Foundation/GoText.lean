/- Module: Foundation/GoText
   source: none (a library)
   digest: White space and its removal, and messages whose quoted arguments are kept apart. -/

import Mathlib.Data.List.TakeWhile

set_option autoImplicit false

namespace McpLocalHub.Foundation.GoText

open List

/-- `unicode.IsSpace` -/
def isSpace (c : Char) : Bool :=
  let n := c.toNat
  decide (9 ≤ n ∧ n ≤ 13 ∨ n = 0x20 ∨ n = 0x85 ∨ n = 0xA0 ∨ n = 0x1680 ∨ 0x2000 ≤ n ∧ n ≤ 0x200A ∨
    n = 0x2028 ∨ n = 0x2029 ∨ n = 0x202F ∨ n = 0x205F ∨ n = 0x3000)

/-- `bytes.TrimSpace` -/
def trimRunes (text : List Char) : List Char :=
  ((text.dropWhile isSpace).reverse.dropWhile isSpace).reverse

/-- `strings.TrimSpace` -/
def trimSpace (text : String) : String := String.ofList (trimRunes text.toList)

/-- A part of what `fmt.Sprintf` writes: a text as it is, or the text that `%q` makes of its
argument. -/
inductive Piece
  | plain (text : String)
  | quoted (argument : String)

abbrev Message := List Piece

variable {c : Char} {runes : List Char}

theorem mem_dropWhile_of_not {p : Char → Bool} (listed : c ∈ runes) (stays : p c = false) :
    c ∈ runes.dropWhile p := by
  rw [← takeWhile_append_dropWhile (p := p) (l := runes)] at listed
  rcases mem_append.mp listed with dropped | kept
  · have space := mem_takeWhile_imp dropped
    rw [stays] at space
    cases space
  · exact kept

theorem mem_trimRunes (listed : c ∈ runes) (solid : isSpace c = false) : c ∈ trimRunes runes :=
  mem_reverse.mpr (mem_dropWhile_of_not
    (mem_reverse.mpr (mem_dropWhile_of_not listed solid)) solid)

theorem trimSpace_trimSpace_ne {text : String} (nonblank : trimSpace text ≠ "") :
    trimSpace (trimSpace text) ≠ "" := by
  have witness : ∃ c ∈ text.toList, isSpace c = false := by
    by_contra blank
    have gone : text.toList.dropWhile isSpace = [] := by
      refine dropWhile_eq_nil_iff.mpr (fun c listed => ?_)
      cases space : isSpace c with
      | true => rfl
      | false => exact absurd ⟨c, listed, space⟩ blank
    exact nonblank (by rw [trimSpace, trimRunes, gone]; rfl)
  obtain ⟨c, listed, solid⟩ := witness
  have twice : c ∈ (trimSpace (trimSpace text)).toList := by
    simp only [trimSpace, String.toList_ofList]
    exact mem_trimRunes (mem_trimRunes listed solid) solid
  intro blank
  rw [blank] at twice
  cases twice

end McpLocalHub.Foundation.GoText
