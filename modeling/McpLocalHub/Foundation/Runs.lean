/- Module: Foundation/Runs
   digest: Finite runs of a partial step function, and the rules that carry an invariant along
   one. -/

import Mathlib.Data.List.Basic
import Mathlib.Data.Option.Basic

set_option autoImplicit false

namespace McpLocalHub.Foundation.Runs

universe u v

variable {σ : Type u} {α : Type v}

/-- A finite run: every label is accepted by `step`, and every pair of a state and
the label taken there satisfies `allow`. -/
inductive Run (step : σ → α → Option σ) (allow : σ → α → Prop) (s : σ) : List α → σ → Prop
  | nil : Run step allow s [] s
  | snoc {t u : σ} {labels : List α} {a : α} (before : Run step allow s labels t)
      (admitted : allow t a) (moved : step t a = some u) :
      Run step allow s (labels ++ [a]) u

def always : σ → α → Prop := fun _ _ => True

/-- The states a system can be in: the ends of the runs from its initial states. -/
def Reachable (init : σ → Prop) (step : σ → α → Option σ) (allow : σ → α → Prop) (t : σ) : Prop :=
  ∃ s labels, init s ∧ Run step allow s labels t

/-- The executable run: the labels are applied in order, and a refused label refuses the run. -/
def exec (step : σ → α → Option σ) : σ → List α → Option σ
  | s, [] => some s
  | s, a :: labels => (step s a).bind (fun t => exec step t labels)

variable {step : σ → α → Option σ} {allow allow' : σ → α → Prop} {init : σ → Prop}

/-- What every admitted step preserves holds at the end of every run that starts with it. -/
theorem Run.invariant {inv : σ → Prop}
    (preserve : ∀ t a u, inv t → allow t a → step t a = some u → inv u)
    {s t : σ} {labels : List α} (run : Run step allow s labels t) (start : inv s) : inv t := by
  induction run with
  | nil => exact start
  | snoc _ admitted moved ih => exact preserve _ _ _ ih admitted moved

theorem Reachable.invariant {inv : σ → Prop} (base : ∀ s, init s → inv s)
    (preserve : ∀ t a u, inv t → allow t a → step t a = some u → inv u)
    {t : σ} (reached : Reachable init step allow t) : inv t := by
  obtain ⟨s, labels, starts, run⟩ := reached
  exact run.invariant preserve (base s starts)

theorem Run.cons {s t u : σ} {a : α} {labels : List α} (admitted : allow s a)
    (moved : step s a = some t) (run : Run step allow t labels u) :
    Run step allow s (a :: labels) u := by
  induction run with
  | nil => exact .snoc .nil admitted moved
  | snoc _ admittedLast movedLast ih => exact .snoc ih admittedLast movedLast

variable {s t : σ} {labels : List α} {inv : σ → Prop}

theorem Run.append {u : σ} {first second : List α} (left : Run step allow s first t)
    (right : Run step allow t second u) : Run step allow s (first ++ second) u := by
  induction right with
  | nil => simpa using left
  | snoc _ admitted moved ih =>
    rw [← List.append_assoc]
    exact .snoc ih admitted moved

theorem Reachable.extend (reached : Reachable init step allow s)
    (run : Run step allow s labels t) : Reachable init step allow t := by
  obtain ⟨origin, before, starts, prior⟩ := reached
  exact ⟨origin, before ++ labels, starts, prior.append run⟩

theorem exec_append (step : σ → α → Option σ) (s : σ) (first second : List α) :
    exec step s (first ++ second) = (exec step s first).bind (fun t => exec step t second) := by
  induction first generalizing s with
  | nil => rfl
  | cons a first ih => simp [exec, ih, Option.bind_assoc]

theorem run_of_exec (done : exec step s labels = some t) : Run step always s labels t := by
  induction labels generalizing s with
  | nil =>
    obtain rfl : s = t := Option.some.inj done
    exact .nil
  | cons a labels ih =>
    obtain ⟨next, moved, rest⟩ := Option.bind_eq_some_iff.mp done
    exact .cons trivial moved (ih rest)

theorem exec_invariant (preserve : ∀ t a u, inv t → step t a = some u → inv u)
    {s t : σ} {labels : List α} (done : exec step s labels = some t) (start : inv s) : inv t :=
  (run_of_exec done).invariant (fun before a after holds _ moved => preserve before a after holds moved)
    start

theorem exec_invariant_of_met {meets : σ → α → Prop}
    (preserve : ∀ t a u, inv t → meets t a → step t a = some u → inv u) {s t : σ}
    {labels : List α} (met : ∀ a ∈ labels, ∀ before, meets before a)
    (done : exec step s labels = some t) (start : inv s) : inv t := by
  induction labels generalizing s with
  | nil => exact Option.some.inj done ▸ start
  | cons a labels ih =>
    obtain ⟨next, moved, rest⟩ := Option.bind_eq_some_iff.mp done
    have kept : inv next := preserve s a next start (met a (.head _) s) moved
    exact ih (fun b later => met b (.tail _ later)) rest kept

theorem exec_invariant_of_short {meets : σ → α → Prop}
    (preserve : ∀ t a u, inv t → meets t a → step t a = some u → inv u) {s t : σ}
    {labels : List α} (short : labels.length ≤ 1) (met : ∀ a ∈ labels, meets s a)
    (done : exec step s labels = some t) (start : inv s) : inv t := by
  cases labels with
  | nil => exact Option.some.inj done ▸ start
  | cons a rest =>
    have last : rest = [] := List.length_eq_zero_iff.mp (by simpa using short)
    subst last
    obtain ⟨next, moved, ended⟩ := Option.bind_eq_some_iff.mp done
    exact Option.some.inj ended ▸ preserve s a next start (met a (.head _)) moved

theorem reachable_of_exec (starts : init s)
    (done : exec step s labels = some t) : Reachable init step always t :=
  ⟨s, labels, starts, run_of_exec done⟩

theorem end_of_exec (step : σ → α → Option σ) (s : σ) (labels : List α) (P : σ → Prop)
    [DecidablePred P] (checked : (exec step s labels).any (fun t => decide (P t)) = true) :
    ∃ t, exec step s labels = some t ∧ P t := by
  obtain ⟨t, done, holds⟩ := (Option.any_eq_true _ _).mp checked
  exact ⟨t, done, of_decide_eq_true holds⟩

def execUnder (step : σ → α → Option σ) (allow : σ → α → Prop) [∀ s a, Decidable (allow s a)] :
    σ → List α → Option σ
  | s, [] => some s
  | s, a :: labels =>
    if allow s a then (step s a).bind (fun t => execUnder step allow t labels) else none

theorem run_of_execUnder [∀ s a, Decidable (allow s a)]
    (done : execUnder step allow s labels = some t) : Run step allow s labels t := by
  induction labels generalizing s with
  | nil =>
    obtain rfl : s = t := Option.some.inj done
    exact .nil
  | cons a labels ih =>
    rw [execUnder] at done
    split_ifs at done with allowed
    obtain ⟨next, moved, rest⟩ := Option.bind_eq_some_iff.mp done
    exact .cons allowed moved (ih rest)

theorem end_of_execUnder (step : σ → α → Option σ) (allow : σ → α → Prop)
    [∀ s a, Decidable (allow s a)] (s : σ) (labels : List α) (P : σ → Prop) [DecidablePred P]
    (checked : (execUnder step allow s labels).any (fun t => decide (P t)) = true) :
    ∃ t, Run step allow s labels t ∧ P t := by
  obtain ⟨t, done, holds⟩ := (Option.any_eq_true _ _).mp checked
  exact ⟨t, run_of_execUnder done, of_decide_eq_true holds⟩

theorem exists_reachable (step : σ → α → Option σ) (s : σ) (labels : List α) {P : σ → Prop}
    [DecidablePred P] (starts : init s)
    (checked : (exec step s labels).any (fun t => decide (P t)) = true) :
    ∃ t, Reachable init step always t ∧ P t := by
  obtain ⟨t, done, holds⟩ := end_of_exec step s labels P checked
  exact ⟨t, reachable_of_exec starts done, holds⟩

theorem exists_reachable_under (step : σ → α → Option σ) (s : σ) (labels : List α) {P : σ → Prop}
    [DecidablePred P] [∀ s a, Decidable (allow s a)] (starts : init s)
    (checked : (execUnder step allow s labels).any (fun t => decide (P t)) = true) :
    ∃ t, Reachable init step allow t ∧ P t := by
  obtain ⟨t, run, holds⟩ := end_of_execUnder step allow s labels P checked
  exact ⟨t, ⟨s, labels, starts, run⟩, holds⟩

end McpLocalHub.Foundation.Runs
