/- Module: Foundation/RawJSON
   source: none (a library)
   digest: JSON objects as lists of members, and the reading and writing of one member. -/

import Mathlib.Data.List.Basic

set_option autoImplicit false

namespace McpLocalHub.Foundation.RawJSON

open List

inductive RawMessage
  | null
  | number (text : String)
  | string (value : String)
  | other (text : String)
  deriving DecidableEq

abbrev Fields := List (String × RawMessage)

inductive Line
  | malformed
  | object (fields : Fields)
  deriving DecidableEq

def member (fields : Fields) (key : String) : Option RawMessage :=
  fields.reverse.lookup key

def setMember (key : String) (value : RawMessage) (fields : Fields) : Fields :=
  fields.filter (fun field => field.1 ≠ key) ++ [(key, value)]

theorem member_setMember_self (key : String) (value : RawMessage) (fields : Fields) :
    member (setMember key value fields) key = some value := by
  unfold member setMember
  simp

theorem lookup_filter_other {key dropped : String} (fields : Fields) (other : key ≠ dropped) :
    List.lookup key (fields.filter (fun field => field.1 ≠ dropped)) = List.lookup key fields := by
  induction fields with
  | nil => rfl
  | cons field rest ih =>
    obtain ⟨name, value⟩ := field
    by_cases found : key = name
    · have stays : name ≠ dropped := found ▸ other
      rw [filter_cons_of_pos (by simpa using stays)]
      simp only [lookup_cons, found, beq_self_eq_true]
    · have passed : (key == name) = false := by simpa using found
      rw [lookup_cons, passed]
      by_cases gone : name = dropped
      · rw [filter_cons_of_neg (by simpa using gone)]
        exact ih
      · rw [filter_cons_of_pos (by simpa using gone), lookup_cons, passed]
        exact ih

theorem member_setMember_other {key written : String} (value : RawMessage) (fields : Fields)
    (other : key ≠ written) : member (setMember written value fields) key = member fields key := by
  have skipped : (key == written) = false := by simpa using other
  unfold member setMember
  rw [reverse_append, ← filter_reverse]
  simp only [reverse_cons, reverse_nil, nil_append, singleton_append,
    lookup_cons, skipped]
  exact lookup_filter_other fields.reverse other

theorem member_eq_getLast (fields : Fields) (key : String) :
    member fields key = (fields.filter (fun field => field.1 = key)).getLast?.map Prod.snd := by
  have first (rest : Fields) : List.lookup key rest =
      (rest.filter (fun field => field.1 = key)).head?.map Prod.snd := by
    induction rest with
    | nil => rfl
    | cons field rest ih =>
      obtain ⟨name, value⟩ := field
      by_cases found : key = name
      · subst found
        simp
      · have passed : (key == name) = false := by simpa using found
        rw [lookup_cons, passed, filter_cons_of_neg (by simpa using Ne.symm found)]
        exact ih
  rw [member, first, filter_reverse, List.head?_reverse]

end McpLocalHub.Foundation.RawJSON
