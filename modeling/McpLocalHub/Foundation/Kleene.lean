/- Module: Foundation/Kleene
   source: none (a library)
   digest: Kleene's three-valued logic: the connectives keep what is known. -/

import Mathlib.Order.Defs.PartialOrder

set_option autoImplicit false

namespace McpLocalHub.Foundation.Kleene

inductive Tri
  | isFalse | isTrue | unknown
  deriving DecidableEq

def kleeneAnd (a b : Tri) : Tri :=
  if a = .isFalse ∨ b = .isFalse then .isFalse
  else if a = .unknown ∨ b = .unknown then .unknown
  else .isTrue

def kleeneOr (a b : Tri) : Tri :=
  if a = .isTrue ∨ b = .isTrue then .isTrue
  else if a = .unknown ∨ b = .unknown then .unknown
  else .isFalse

def kleeneNot : Tri → Tri
  | .isTrue => .isFalse
  | .isFalse => .isTrue
  | .unknown => .unknown

def Tri.ofBool (b : Bool) : Tri := if b then .isTrue else .isFalse

section Laws

variable (a b c : Tri)

@[simp] theorem kleeneAnd_isTrue : kleeneAnd a .isTrue = a := by cases a <;> rfl

@[simp] theorem isTrue_kleeneAnd : kleeneAnd .isTrue a = a := by cases a <;> rfl

@[simp] theorem kleeneAnd_self : kleeneAnd a a = a := by cases a <;> rfl

theorem kleeneAnd_comm : kleeneAnd a b = kleeneAnd b a := by cases a <;> cases b <;> rfl

theorem kleeneAnd_assoc : kleeneAnd (kleeneAnd a b) c = kleeneAnd a (kleeneAnd b c) := by
  cases a <;> cases b <;> cases c <;> rfl

end Laws

theorem kleeneAnd_eq_isTrue {a b : Tri} : kleeneAnd a b = .isTrue ↔ a = .isTrue ∧ b = .isTrue := by
  cases a <;> cases b <;> decide

def allOf (values : List Tri) : Tri := values.foldl kleeneAnd .isTrue

theorem foldl_kleeneAnd (a : Tri) (values : List Tri) :
    values.foldl kleeneAnd a = kleeneAnd a (allOf values) := by
  unfold allOf
  induction values generalizing a with
  | nil => rw [List.foldl_nil, List.foldl_nil, kleeneAnd_isTrue]
  | cons first rest ih =>
    rw [List.foldl_cons, List.foldl_cons, ih, ih (kleeneAnd .isTrue first), isTrue_kleeneAnd,
      kleeneAnd_assoc]

theorem allOf_cons (a : Tri)
    (values : List Tri) : allOf (a :: values) = kleeneAnd a (allOf values) := by
  rw [← foldl_kleeneAnd a values, allOf, List.foldl_cons, isTrue_kleeneAnd]

theorem allOf_map_kleeneAnd (a : Tri) {values : List Tri} (some_ : values ≠ []) :
    allOf (values.map (kleeneAnd a)) = kleeneAnd a (allOf values) := by
  induction values with
  | nil => exact absurd rfl some_
  | cons first rest ih =>
    rw [List.map_cons, allOf_cons, allOf_cons]
    cases rest with
    | nil => exact kleeneAnd_assoc a first .isTrue
    | cons second rest =>
      rw [ih (List.cons_ne_nil _ _), ← kleeneAnd_assoc, kleeneAnd_comm (kleeneAnd a first) a,
        ← kleeneAnd_assoc, kleeneAnd_self, kleeneAnd_assoc]

theorem allOf_constant {a : Tri} {values : List Tri} (some_ : values ≠ [])
    (same : ∀ b ∈ values, b = a) : allOf values = a := by
  induction values with
  | nil => exact absurd rfl some_
  | cons first rest ih =>
    rw [allOf_cons, same first (.head rest)]
    by_cases last : rest = []
    · rw [last]
      exact kleeneAnd_isTrue a
    · rw [ih last (fun b listed => same b (.tail first listed)), kleeneAnd_self]

def Below (a b : Tri) : Prop := a = .unknown ∨ a = b
  deriving Decidable

namespace Below

variable {a b c a' b' : Tri}

theorem refl (a : Tri) : Below a a := .inr rfl

theorem unknown (a : Tri) : Below .unknown a := .inl rfl

theorem eq_of_known (below : Below a b) (known : a ≠ .unknown) : b = a :=
  (below.resolve_left known).symm

theorem kleeneAnd (left : Below a a') (right : Below b b') :
    Below (kleeneAnd a b) (Kleene.kleeneAnd a' b') := by
  rcases left with rfl | rfl <;> rcases right with rfl | rfl
  · exact .inl rfl
  · cases b <;> cases a' <;> decide
  · cases a <;> cases b' <;> decide
  · exact .inr rfl

theorem kleeneOr (left : Below a a') (right : Below b b') :
    Below (kleeneOr a b) (Kleene.kleeneOr a' b') := by
  rcases left with rfl | rfl <;> rcases right with rfl | rfl
  · exact .inl rfl
  · cases b <;> cases a' <;> decide
  · cases a <;> cases b' <;> decide
  · exact .inr rfl

theorem kleeneNot (below : Below a a') : Below (kleeneNot a) (Kleene.kleeneNot a') := by
  rcases below with rfl | rfl
  · exact .inl rfl
  · exact .inr rfl

end Below

end McpLocalHub.Foundation.Kleene
