/- Module: Foundation/LinkedList
   source: none (a library)
   digest: A linked list with handles, and lists in the order in which their values were last
   used. -/

import Mathlib.Data.List.Nodup
import Mathlib.Data.List.Perm.Subperm

set_option autoImplicit false

namespace McpLocalHub.Foundation.LinkedList

open List

variable {α : Type}

structure Element (α : Type) where
  handle : ℕ
  value : α
  deriving DecidableEq

/-- The elements from the front to the back. A handle names one element, and the next handle is
not in use. -/
structure Chain (α : Type) where
  elements : List (Element α)
  next : ℕ
  nodup : (elements.map Element.handle).Nodup
  below : ∀ e ∈ elements, e.handle < next

namespace Chain

def empty : Chain α := ⟨[], 0, nodup_nil, nofun⟩

def values (c : Chain α) : List α := c.elements.map Element.value

def pushFront (c : Chain α) (v : α) : Chain α × ℕ :=
  (⟨⟨c.next, v⟩ :: c.elements, c.next + 1, by
    refine nodup_cons.mpr ⟨?_, c.nodup⟩
    intro used
    obtain ⟨e, listed, same⟩ := mem_map.mp used
    exact absurd same (Nat.ne_of_lt (c.below e listed)), by
    intro e listed
    rcases mem_cons.mp listed with rfl | old
    · exact Nat.lt_succ_self _
    · exact Nat.lt_succ_of_lt (c.below e old)⟩, c.next)

def remove (c : Chain α) (h : ℕ) : Chain α :=
  ⟨c.elements.filter (fun e => e.handle ≠ h), c.next,
    c.nodup.sublist (filter_sublist.map _),
    fun e listed => c.below e (mem_of_mem_filter listed)⟩

private theorem parted_perm (l : List (Element α)) (h : ℕ) :
    (l.filter (fun e => e.handle = h) ++ l.filter (fun e => e.handle ≠ h)).Perm l := by
  simpa using filter_append_perm (fun e : Element α => decide (e.handle = h)) l

def moveToFront (c : Chain α) (h : ℕ) : Chain α :=
  ⟨c.elements.filter (fun e => e.handle = h) ++ c.elements.filter (fun e => e.handle ≠ h), c.next,
    ((parted_perm c.elements h).map _).nodup_iff.mpr c.nodup,
    fun e listed => c.below e ((parted_perm c.elements h).mem_iff.mp listed)⟩

variable {e : Element α} {c : Chain α} {rank : α → ℕ}

theorem eq_of_handle (c : Chain α) {f : Element α} (first : e ∈ c.elements)
    (second : f ∈ c.elements) (same : e.handle = f.handle) : e = f :=
  inj_on_of_nodup_map c.nodup first second same

theorem mem_remove {h : ℕ} : e ∈ (c.remove h).elements ↔ e ∈ c.elements ∧ e.handle ≠ h := by
  change e ∈ c.elements.filter (fun e => e.handle ≠ h) ↔ _
  rw [mem_filter, decide_eq_true_iff]

theorem mem_moveToFront {h : ℕ} : e ∈ (c.moveToFront h).elements ↔ e ∈ c.elements :=
  (parted_perm c.elements h).mem_iff

theorem elements_moveToFront (listed : e ∈ c.elements) :
    (c.moveToFront e.handle).elements = e :: (c.remove e.handle).elements := by
  have alone : c.elements.filter (fun x => x.handle = e.handle) = [e] := by
    have nodup : (c.elements.filter (fun x => decide (x.handle = e.handle))).Nodup :=
      (List.Nodup.of_map _ c.nodup).filter _
    refine perm_singleton.mp ((perm_ext_iff_of_nodup nodup (nodup_singleton e)).mpr ?_)
    intro x
    rw [mem_filter, mem_singleton, decide_eq_true_iff]
    constructor
    · rintro ⟨other, same⟩
      exact c.eq_of_handle other listed same
    · rintro rfl
      exact ⟨listed, rfl⟩
  change c.elements.filter (fun x => x.handle = e.handle) ++ _ = _
  rw [alone]
  rfl

def Ranked (rank : α → ℕ) (c : Chain α) : Prop :=
  c.elements.Pairwise (fun x y => rank y.value < rank x.value)

theorem Ranked.remove {rank : α → ℕ} {c : Chain α} (ranked : Ranked rank c) (h : ℕ) :
    Ranked rank (c.remove h) :=
  List.Pairwise.sublist filter_sublist ranked

theorem Ranked.congr {rank' : α → ℕ} (ranked : Ranked rank c)
    (same : ∀ e ∈ c.elements, rank' e.value = rank e.value) : Ranked rank' c := by
  refine List.Pairwise.imp_of_mem ?_ ranked
  intro x y first second less
  rw [same x first, same y second]
  exact less

theorem Ranked.pushFront {v : α} (ranked : Ranked rank c)
    (top : ∀ e ∈ c.elements, rank e.value < rank v) : Ranked rank (c.pushFront v).1 :=
  pairwise_cons.mpr ⟨top, ranked⟩

theorem Ranked.moveToFront {rank' : α → ℕ} (ranked : Ranked rank c) (listed : e ∈ c.elements)
    (same : ∀ x ∈ c.elements, x ≠ e → rank' x.value = rank x.value)
    (top : ∀ x ∈ c.elements, x ≠ e → rank' x.value < rank' e.value) :
    Ranked rank' (c.moveToFront e.handle) := by
  have other (x : Element α) (left : x ∈ (c.remove e.handle).elements) :
      x ∈ c.elements ∧ x ≠ e := by
    obtain ⟨old, differs⟩ := mem_remove.mp left
    exact ⟨old, fun is => differs (by rw [is])⟩
  unfold Ranked
  rw [elements_moveToFront listed]
  refine pairwise_cons.mpr ⟨?_, (ranked.remove e.handle).congr ?_⟩
  · intro x left
    exact top x (other x left).1 (other x left).2
  · intro x left
    exact same x (other x left).1 (other x left).2

theorem Ranked.lowest {p : Element α → Bool}
    (ranked : Ranked rank c) (found : c.elements.reverse.find? p = some e) {x : Element α}
    (listed : x ∈ c.elements) (passes : p x = true) (differs : x ≠ e) :
    rank e.value < rank x.value := by
  obtain ⟨_, skipped, rest, parts, failed⟩ := List.find?_eq_some_iff_append.mp found
  have upward : c.elements.reverse.Pairwise (fun y z => rank y.value < rank z.value) :=
    pairwise_reverse.mpr ranked
  rw [parts] at upward
  have after : x ∈ skipped ++ e :: rest := by
    rw [← parts]
    exact mem_reverse.mpr listed
  rcases mem_append.mp after with early | late
  · have fails := failed x early
    rw [passes] at fails
    cases fails
  · have behind : x ∈ rest := (mem_cons.mp late).resolve_left differs
    exact (pairwise_cons.mp (pairwise_append.mp upward).2.1).1 x behind

end Chain

end McpLocalHub.Foundation.LinkedList
