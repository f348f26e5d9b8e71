/- Module: Foundation/Loops
   source: none (a library)
   digest: Unbounded loops run on fuel, and the rule that proves them total. -/

import Mathlib.Data.Nat.Basic

set_option autoImplicit false

namespace McpLocalHub.Foundation.Loops

universe u v

variable {σ : Type u} {ρ : Type v}

/-- A loop whose body either goes on from a new state or returns. Without fuel it has not
returned. -/
def loop (body : σ → σ ⊕ ρ) : ℕ → σ → Option ρ
  | 0, _ => none
  | fuel + 1, s =>
    match body s with
    | .inl next => loop body fuel next
    | .inr result => some result

variable {body : σ → σ ⊕ ρ}

theorem loop_inl {s next : σ} (goes : body s = .inl next) (fuel : ℕ) :
    loop body (fuel + 1) s = loop body fuel next := by
  rw [loop, goes]

theorem loop_inr {s : σ} {result : ρ} (returns : body s = .inr result) (fuel : ℕ) :
    loop body (fuel + 1) s = some result := by
  rw [loop, returns]

/-- The rule of total correctness. The result does not depend on the fuel, once there is enough. -/
theorem loop_total (inv : σ → Prop) (post : ρ → Prop) (measure : σ → ℕ)
    (goes : ∀ s next, inv s → body s = .inl next → inv next ∧ measure next < measure s)
    (returns : ∀ s result, inv s → body s = .inr result → post result) (s : σ) (start : inv s) :
    ∃ result, post result ∧ ∀ fuel, measure s < fuel → loop body fuel s = some result := by
  induction bound : measure s using Nat.strong_induction_on generalizing s with
  | _ n ih =>
    subst bound
    match turn : body s with
    | .inr result =>
      refine ⟨result, returns s result start turn, ?_⟩
      intro fuel enough
      obtain ⟨rest, rfl⟩ := Nat.exists_eq_succ_of_ne_zero (Nat.ne_zero_of_lt enough)
      exact loop_inr turn rest
    | .inl next =>
      obtain ⟨kept, falls⟩ := goes s next start turn
      obtain ⟨result, holds, ended⟩ := ih (measure next) falls next kept rfl
      refine ⟨result, holds, ?_⟩
      intro fuel enough
      obtain ⟨rest, rfl⟩ := Nat.exists_eq_succ_of_ne_zero (Nat.ne_zero_of_lt enough)
      rw [loop_inl turn]
      exact ended rest (by omega)

end McpLocalHub.Foundation.Loops
