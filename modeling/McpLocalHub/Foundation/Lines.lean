/- Module: Foundation/Lines
   source: none (a library)
   digest: A sequence cut after each separator, and a sequence of lines cut into its runs between
   blank ones. -/

import Mathlib.Algebra.Order.Ring.Int

set_option autoImplicit false

namespace McpLocalHub.Foundation.Lines

open List

universe u

variable {α : Type u}

def extendFirst (x : α) : List (List α) × List α → List (List α) × List α
  | ([], tail) => ([], x :: tail)
  | (piece :: pieces, tail) => ((x :: piece) :: pieces, tail)

def cutAt [DecidableEq α] (sep : α) : List α → List (List α) × List α
  | [] => ([], [])
  | x :: rest => if x = sep then ([] :: (cutAt sep rest).1, (cutAt sep rest).2)
      else extendFirst x (cutAt sep rest)

theorem cutAt_length [DecidableEq α] (sep : α) (items : List α) :
    ((cutAt sep items).1.map (fun piece => piece.length + 1)).sum + (cutAt sep items).2.length =
      items.length := by
  induction items with
  | nil => rfl
  | cons x rest ih =>
    rw [cutAt]
    split_ifs
    · simp only [map_cons, sum_cons, length_nil, length_cons]
      omega
    · generalize cutAt sep rest = cut at ih ⊢
      obtain ⟨pieces, tail⟩ := cut
      cases pieces with
      | nil =>
        simp only [extendFirst, map_nil, sum_nil, length_cons] at ih ⊢
        omega
      | cons piece pieces =>
        simp only [extendFirst, map_cons, sum_cons, length_cons] at ih ⊢
        omega

def consHead (x : α) : List (List α) → List (List α)
  | [] => [[x]]
  | first :: rest => (x :: first) :: rest

def runs (blank : α → Bool) : List α → List (List α)
  | [] => [[]]
  | x :: rest => if blank x then [] :: runs blank rest else consHead x (runs blank rest)

theorem runs_ne_nil (blank : α → Bool) (items : List α) : runs blank items ≠ [] := by
  cases items with
  | nil => exact cons_ne_nil _ _
  | cons x rest =>
    rw [runs]
    split_ifs
    · exact cons_ne_nil _ _
    · cases runs blank rest <;> exact cons_ne_nil _ _

theorem runs_append_blank (blank : α → Bool) (before after : List α) {x : α} (isBlank : blank x) :
    runs blank (before ++ x :: after) = runs blank before ++ runs blank after := by
  induction before with
  | nil => simp [runs, isBlank]
  | cons y rest ih =>
    rw [cons_append, runs, runs, ih]
    split_ifs
    · rfl
    · have filled := runs_ne_nil blank rest
      cases shape : runs blank rest with
      | nil => exact absurd shape filled
      | cons first others => rfl

theorem runs_around (blank : α → Bool) (before after : List α) :
    ∃ front last first back, ∀ middle, (∀ x ∈ middle, blank x = false) →
      runs blank (before ++ (middle ++ after)) = front ++ (last ++ (middle ++ first)) :: back := by
  induction before with
  | nil =>
    cases shape : runs blank after with
    | nil => exact absurd shape (runs_ne_nil blank after)
    | cons first back =>
      refine ⟨[], [], first, back, fun middle full => ?_⟩
      induction middle with
      | nil => exact shape
      | cons x rest ih =>
        obtain ⟨here, others⟩ := forall_mem_cons.mp full
        change runs blank (x :: (rest ++ after)) = _
        rw [runs, if_neg (by simp [here])]
        exact congrArg (consHead x) (ih others)
  | cons y rest ih =>
    obtain ⟨front, last, first, back, ih⟩ := ih
    by_cases isBlank : blank y = true
    · refine ⟨[] :: front, last, first, back, fun middle full => ?_⟩
      rw [cons_append, runs, if_pos isBlank, ih middle full]
      rfl
    · cases front with
      | nil =>
        refine ⟨[], y :: last, first, back, fun middle full => ?_⟩
        rw [cons_append, runs, if_neg isBlank, ih middle full]
        rfl
      | cons piece pieces =>
        refine ⟨(y :: piece) :: pieces, last, first, back, fun middle full => ?_⟩
        rw [cons_append, runs, if_neg isBlank, ih middle full]
        rfl

theorem runs_filterMap_skip {β : Type u} (blank : α → Bool) (value : α → Option β)
    (before after : List α) {x : α} (full : blank x = false) (silent : value x = none) :
    (runs blank (before ++ x :: after)).map (List.filterMap value) =
      (runs blank (before ++ after)).map (List.filterMap value) := by
  obtain ⟨front, last, first, back, around⟩ := runs_around blank before after
  have filled := around [x] (forall_mem_singleton.mpr full)
  have without := around [] (forall_mem_nil _)
  simp only [singleton_append, nil_append] at filled without
  simp [filled, without, silent]

end McpLocalHub.Foundation.Lines
