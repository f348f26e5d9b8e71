/- Module: Foundation/KeySort
   source: none (a library)
   digest: Sorting by a key: what a sort does not owe to the order of its input. -/

import Mathlib.Data.List.Sort

set_option autoImplicit false

namespace McpLocalHub.Foundation.KeySort

open List

universe u v

variable {α : Type u} {κ : Type v} [LinearOrder κ] {key : α → κ} {r : α → α → Prop}

def ByKey (r : α → α → Prop) (key : α → κ) (items : List α) : Prop :=
  ∀ a ∈ items, ∀ b ∈ items, r a b ↔ key a ≤ key b

variable {items items' : List α}

theorem ByKey.of_perm (byKey : ByKey r key items)
    (reordered : items.Perm items') : ByKey r key items' := fun a first b second =>
  byKey a (reordered.mem_iff.mpr first) b (reordered.mem_iff.mpr second)

variable [DecidableRel r]

theorem map_key_insertionSort (byKey : ByKey r key items) :
    (items.insertionSort r).map key = (items.map key).insertionSort (· ≤ ·) :=
  map_insertionSort r (· ≤ ·) key items byKey

theorem sorted_eq_of_perm {keys keys' : List κ} (reordered : keys.Perm keys') :
    keys.insertionSort (· ≤ ·) = keys'.insertionSort (· ≤ ·) := by
  have sorted := ((perm_insertionSort (· ≤ ·) keys).trans reordered).trans
    (perm_insertionSort (· ≤ ·) keys').symm
  exact sorted.eq_of_sortedLE sortedLE_insertionSort sortedLE_insertionSort

theorem map_key_eq_of_perm (byKey : ByKey r key items) (reordered : items.Perm items') :
    (items.insertionSort r).map key = (items'.insertionSort r).map key := by
  rw [map_key_insertionSort byKey, map_key_insertionSort (byKey.of_perm reordered)]
  exact sorted_eq_of_perm (reordered.map key)

section

variable (byKey : ByKey r key items) (apart : (items.map key).Nodup)

include byKey apart

theorem eq_of_perm (reordered : items.Perm items') :
    items.insertionSort r = items'.insertionSort r := by
  have sameKeys := map_key_eq_of_perm byKey reordered
  have member : ∀ a ∈ items.insertionSort r, ∀ b ∈ items'.insertionSort r, key a = key b → a = b := by
    intro a first b second same
    rw [mem_insertionSort] at first second
    exact inj_on_of_nodup_map apart first (reordered.mem_iff.mpr second) same
  have lengths : (items.insertionSort r).length = (items'.insertionSort r).length := by
    simpa using congrArg List.length sameKeys
  apply ext_getElem lengths
  intro n inside inside'
  apply member _ (getElem_mem inside) _ (getElem_mem inside')
  have here := congrArg (fun keys => keys[n]?) sameKeys
  simpa [List.getElem?_eq_getElem inside, List.getElem?_eq_getElem inside'] using here

theorem map_key_strict : ((items.insertionSort r).map key).Pairwise (· < ·) := by
  rw [map_key_insertionSort byKey]
  have sorted : ((items.map key).insertionSort (· ≤ ·)).Pairwise (· ≤ ·) :=
    pairwise_insertionSort _ _
  have distinct : ((items.map key).insertionSort (· ≤ ·)).Pairwise (· ≠ ·) :=
    (perm_insertionSort _ _).nodup_iff.mpr apart
  exact (sorted.and distinct).imp (fun both => lt_of_le_of_ne both.1 both.2)

theorem filter_insertionSort (p : α → Bool) :
    (items.insertionSort r).filter p = (items.filter p).insertionSort r := by
  have member {a : α} (listed : a ∈ (items.insertionSort r).filter p) : a ∈ items :=
    (mem_insertionSort r).mp (mem_of_mem_filter listed)
  have sorted : ((items.insertionSort r).filter p).Pairwise r := by
    have strict := (pairwise_map.mp (map_key_strict byKey apart)).sublist
      (filter_sublist (p := p))
    refine strict.imp_of_mem (fun {a b} first second less => ?_)
    exact (byKey a (member first) b (member second)).mpr less.le
  have reordered : (items.filter p).Perm ((items.insertionSort r).filter p) :=
    ((perm_insertionSort r items).filter p).symm
  have byKeyPart : ByKey r key (items.filter p) := fun a first b second =>
    byKey a (mem_of_mem_filter first) b (mem_of_mem_filter second)
  have apartPart : ((items.filter p).map key).Nodup :=
    apart.sublist (filter_sublist.map key)
  rw [eq_of_perm byKeyPart apartPart reordered, sorted.insertionSort_eq]

end

end McpLocalHub.Foundation.KeySort
