/- Module: Foundation/Maps
   source: none (a library)
   digest: Finite maps: what inserting, erasing and filtering do to a lookup and to the count. -/

import Mathlib.Data.List.AList

set_option autoImplicit false

namespace McpLocalHub.Foundation.Maps

open List AList

abbrev Map (κ ν : Type) := AList (fun _ : κ => ν)

variable {κ ν : Type}

def size (m : Map κ ν) : ℕ := m.keys.length

def keep (p : κ → Bool) (m : Map κ ν) : Map κ ν where
  entries := m.entries.filter (fun entry => p entry.1)
  nodupKeys := m.nodupKeys.sublist filter_sublist

variable [DecidableEq κ]

variable {m : Map κ ν} {k key : κ} {v found : ν} {f : κ → ℕ}

theorem mem_keys_of_lookup (found : m.lookup k = some v) : k ∈ m.keys := by
  have listed : k ∈ m := lookup_isSome.mp (by rw [found]; rfl)
  exact mem_keys.mp listed

theorem size_insert_of_absent (v : ν) (absent : m.lookup k = none) :
    size (m.insert k v) = size m + 1 := by
  have notKey : k ∉ m.keys := by
    intro listed
    have present := lookup_isSome.mpr (mem_keys.mpr listed)
    rw [absent] at present
    cases present
  unfold size
  rw [keys_insert, erase_of_not_mem notKey, length_cons]

theorem size_erase_of_present (present : m.lookup k = some v) : size (m.erase k) + 1 = size m := by
  have isKey : k ∈ m.keys := mem_keys_of_lookup present
  have positive : 0 < m.keys.length := length_pos_of_mem isKey
  unfold size
  rw [keys_erase, length_erase_of_mem isKey]
  omega

theorem lookup_keep (p : κ → Bool) (m : Map κ ν) (k : κ) :
    (keep p m).lookup k = if p k then m.lookup k else none := by
  obtain ⟨entries, nodup⟩ := m
  change List.dlookup k (entries.filter (fun entry => p entry.1)) =
    if p k then List.dlookup k entries else none
  clear nodup
  induction entries with
  | nil => simp
  | cons entry rest ih =>
    obtain ⟨key, v⟩ := entry
    have filtered : (⟨key, v⟩ :: rest : List ((_ : κ) × ν)).filter (fun entry => p entry.1) =
        if p key then ⟨key, v⟩ :: rest.filter (fun entry => p entry.1)
        else rest.filter (fun entry => p entry.1) := filter_cons
    rw [filtered]
    by_cases same : key = k
    · subst same
      by_cases passes : p key = true
      · rw [if_pos passes, if_pos passes, dlookup_cons_eq, dlookup_cons_eq]
      · rw [if_neg passes, ih, if_neg passes, if_neg passes]
    · have skips (tail : List ((_ : κ) × ν)) :
          List.dlookup k (⟨key, v⟩ :: tail) = List.dlookup k tail :=
        dlookup_cons_ne tail (⟨key, v⟩ : (_ : κ) × ν) (Ne.symm same)
      by_cases passes : p key = true
      · rw [if_pos passes, skips, skips, ih]
      · rw [if_neg passes, skips, ih]

theorem mem_keys_insert (listed : key ∈ (m.insert k v).keys) : key = k ∨ key ∈ m.keys :=
  (mem_insert m).mp (mem_keys.mpr listed)

omit [DecidableEq κ] in
theorem mem_keys_keep {p : κ → Bool} (listed : key ∈ (keep p m).keys) : key ∈ m.keys :=
  (filter_sublist.map Sigma.fst).subset listed

theorem lookup_insert_cases (hit : (m.insert k v).lookup key = some found) :
    key = k ∧ found = v ∨ key ≠ k ∧ m.lookup key = some found := by
  by_cases same : key = k
  · subst same
    rw [lookup_insert, Option.some.injEq] at hit
    exact .inl ⟨rfl, hit.symm⟩
  · rw [lookup_insert_ne same] at hit
    exact .inr ⟨same, hit⟩

theorem lookup_erase_cases
    (hit : (m.erase k).lookup key = some found) : key ≠ k ∧ m.lookup key = some found := by
  by_cases same : key = k
  · subst same
    rw [lookup_erase] at hit
    cases hit
  · rw [lookup_erase_ne same] at hit
    exact ⟨same, hit⟩

theorem lookup_foldl_erase (keys : List κ) (m : Map κ ν) (key : κ) :
    (keys.foldl (fun rows k => rows.erase k) m).lookup key =
      if key ∈ keys then none else m.lookup key := by
  induction keys generalizing m with
  | nil => rfl
  | cons k keys ih =>
    rw [foldl_cons, ih]
    by_cases same : key = k
    · subst same
      simp
    · simp [same, lookup_erase_ne same]

theorem update_cases {f : κ → Option ν} (hit : Function.update f k (some v) key = some found) :
    key = k ∧ found = v ∨ key ≠ k ∧ f key = some found := by
  by_cases same : key = k
  · subst same
    rw [Function.update_self, Option.some.injEq] at hit
    exact .inl ⟨rfl, hit.symm⟩
  · rw [Function.update_of_ne same] at hit
    exact .inr ⟨same, hit⟩

def count (p : ν → Bool) (m : Map κ ν) : ℕ := m.entries.countP (fun entry => p entry.2)

theorem count_insert (p : ν → Bool) (m : Map κ ν) (k : κ) (v : ν) :
    count p (m.insert k v) = count p (m.erase k) + if p v then 1 else 0 := by
  unfold count
  rw [entries_insert, countP_cons]
  rfl

theorem erase_of_absent (absent : m.lookup k = none) : m.erase k = m := by
  have notKey : k ∉ m.entries.keys := dlookup_eq_none.mp absent
  exact AList.ext (kerase_of_notMem_keys notKey)

theorem count_erase_of_present (p : ν → Bool) (present : m.lookup k = some v) :
    count p (m.erase k) + (if p v then 1 else 0) = count p m := by
  have isKey : k ∈ m.entries.keys := mem_keys_of_lookup present
  obtain ⟨found, front, back, notFront, parts, rest⟩ := exists_of_kerase isKey
  have same : found = v := by
    have hit : List.dlookup k m.entries = some v := present
    rw [parts, dlookup_append, dlookup_eq_none.mpr notFront, Option.none_or,
      dlookup_cons_eq, Option.some.injEq] at hit
    exact hit
  have erased : (m.erase k).entries = front ++ back := rest
  unfold count
  rw [erased, parts, countP_append, countP_append, countP_cons, same]
  exact Nat.add_assoc _ _ _

theorem count_insert_of_absent (p : ν → Bool) (v : ν) (absent : m.lookup k = none) :
    count p (m.insert k v) = count p m + if p v then 1 else 0 := by
  rw [count_insert, erase_of_absent absent]

theorem count_insert_of_alike {p : ν → Bool} {old : ν}
    (present : m.lookup k = some old) (alike : p v = p old) :
    count p (m.insert k v) = count p m := by
  rw [count_insert, alike, count_erase_of_present p present]

theorem count_pos {p : ν → Bool} (present : m.lookup k = some v)
    (passes : p v = true) : 0 < count p m := by
  have parts := count_erase_of_present p present
  rw [if_pos passes] at parts
  omega

def Tallies (m : Map κ ℤ) (f : κ → ℕ) : Prop :=
  ∀ k, m.lookup k = if f k = 0 then none else some (f k : ℤ)

def increment (m : Map κ ℤ) (k : κ) : Map κ ℤ := m.insert k ((m.lookup k).getD 0 + 1)

def decrement (m : Map κ ℤ) (k : κ) : Map κ ℤ :=
  let less := m.insert k ((m.lookup k).getD 0 - 1)
  if (less.lookup k).getD 0 ≤ 0 then less.erase k else less

theorem Tallies.getD {m : Map κ ℤ} (tallies : Tallies m f) (k : κ) : (m.lookup k).getD 0 = f k := by
  rw [tallies k]
  by_cases zero : f k = 0
  · rw [if_pos zero, zero]
    rfl
  · rw [if_neg zero]
    rfl

theorem Tallies.increment {m : Map κ ℤ} {g : κ → ℕ} (tallies : Tallies m f)
    (here : g k = f k + 1) (elsewhere : ∀ key, key ≠ k → g key = f key) :
    Tallies (increment m k) g := by
  intro key
  unfold Maps.increment
  by_cases same : key = k
  · subst same
    rw [lookup_insert, tallies.getD, here, if_neg (Nat.succ_ne_zero _)]
    push_cast
    rfl
  · rw [lookup_insert_ne same, elsewhere key same]
    exact tallies key

theorem Tallies.decrement {m : Map κ ℤ} {g : κ → ℕ} (tallies : Tallies m f)
    (here : g k + 1 = f k) (elsewhere : ∀ key, key ≠ k → g key = f key) :
    Tallies (decrement m k) g := by
  intro key
  have left : (m.lookup k).getD 0 - 1 = (g k : ℤ) := by
    rw [tallies.getD]
    omega
  have value : ((m.insert k (g k : ℤ)).lookup k).getD 0 = (g k : ℤ) := by
    rw [lookup_insert]
    rfl
  unfold Maps.decrement
  rw [left]
  dsimp only
  by_cases same : key = k
  · subst same
    by_cases zero : g key = 0
    · rw [if_pos (by omega), if_pos zero, lookup_erase]
    · rw [if_neg (by omega), if_neg zero, lookup_insert]
  · rw [elsewhere key same, ← tallies key]
    split_ifs
    · rw [lookup_erase_ne same, lookup_insert_ne same]
    · rw [lookup_insert_ne same]

def sameEntries [DecidableEq ν] (a b : Map κ ν) : Bool :=
  decide (size a = size b) && a.entries.all (fun entry => decide (b.lookup entry.1 = some entry.2))

theorem sameEntries_iff [DecidableEq ν] {a b : Map κ ν} :
    sameEntries a b = true ↔ ∀ k, a.lookup k = b.lookup k := by
  have sizes (m : Map κ ν) : size m = m.entries.length := length_map _
  constructor
  · intro same
    obtain ⟨sized, listed⟩ := Bool.and_eq_true_iff.mp same
    have shorter : b.entries.length ≤ a.entries.length := by
      rw [← sizes, ← sizes, of_decide_eq_true sized]
    have subset : a.entries ⊆ b.entries := by
      intro entry member
      have found := of_decide_eq_true (all_eq_true.mp listed entry member)
      exact mem_lookup_iff.mp found
    have perm : a.entries.Perm b.entries :=
      (subperm_of_subset a.nodupKeys.nodup subset).perm_of_length_le shorter
    intro k
    exact perm_dlookup k a.nodupKeys perm
  · intro same
    have perm : a.entries.Perm b.entries := by
      refine lookup_ext a.nodupKeys b.nodupKeys ?_
      intro k v
      exact iff_of_eq (congrArg (v ∈ ·) (same k))
    refine Bool.and_eq_true_iff.mpr ⟨decide_eq_true ?_, all_eq_true.mpr ?_⟩
    · rw [sizes, sizes, perm.length_eq]
    · intro entry member
      have found : a.lookup entry.1 = some entry.2 := mem_lookup_iff.mpr member
      exact decide_eq_true (same entry.1 ▸ found)

section Pointwise

variable {σ ε ω : Type} {view : σ → κ → ω} {step : σ → ε → σ} {key : ε → κ} {own : ω → ε → ω}

omit [DecidableEq κ] in
/-- When each element changes what is seen at its own key alone, and the keys differ, the fold
changes what is seen at a key by the element of that key. -/
theorem foldl_pointwise (here : ∀ s e, view (step s e) (key e) = own (view s (key e)) e)
    (elsewhere : ∀ s e k, k ≠ key e → view (step s e) k = view s k) {elements : List ε}
    (distinct : (elements.map key).Nodup) (s : σ) :
    (∀ e ∈ elements, view (elements.foldl step s) (key e) = own (view s (key e)) e) ∧
      ∀ k, (∀ e ∈ elements, key e ≠ k) → view (elements.foldl step s) k = view s k := by
  induction elements generalizing s with
  | nil => exact ⟨nofun, fun _ _ => rfl⟩
  | cons first rest ih =>
    obtain ⟨fresh, distinctRest⟩ := nodup_cons.mp distinct
    obtain ⟨listedRest, unlistedRest⟩ := ih distinctRest (step s first)
    have apart : ∀ e ∈ rest, key e ≠ key first := by
      intro e listed same
      exact fresh (same ▸ mem_map_of_mem listed)
    constructor
    · intro e listed
      rcases mem_cons.mp listed with rfl | listed
      · rw [foldl_cons, unlistedRest (key e) apart, here]
      · rw [foldl_cons, listedRest e listed, elsewhere s first (key e) (apart e listed)]
    · intro k absent
      rw [foldl_cons, unlistedRest k (fun e listed => absent e (.tail _ listed)),
        elsewhere s first k (absent first (.head _)).symm]

end Pointwise

theorem lookup_filled {ε : Type} (key : ε → κ) (value : ε → ν) {elements : List ε}
    (distinct : (elements.map key).Nodup) :
    (∀ e ∈ elements, (elements.foldl (fun m e => m.insert (key e) (value e))
        (∅ : Map κ ν)).lookup (key e) = some (value e)) ∧
      ∀ k, (∀ e ∈ elements, key e ≠ k) →
        (elements.foldl (fun m e => m.insert (key e) (value e)) (∅ : Map κ ν)).lookup k = none :=
  @foldl_pointwise κ (Map κ ν) ε (Option ν) (fun m k => m.lookup k)
    (fun m e => m.insert (key e) (value e)) key (fun _ e => some (value e))
    (fun m _ => lookup_insert m) (fun _ _ _ other => lookup_insert_ne other) elements
    distinct ∅


theorem lookup_foldl_insert (key : ν → κ) {items : List ν}
    (tells : ∀ a ∈ items, ∀ b ∈ items, key a = key b → a = b) (m : Map κ ν) {item : ν} :
    (items.foldl (fun m item => m.insert (key item) item) m).lookup k = some item ↔
      (item ∈ items ∧ key item = k) ∨ (m.lookup k = some item ∧ ∀ i ∈ items, key i ≠ k) := by
  induction items generalizing m with
  | nil => simp
  | cons first rest ih =>
    have tellsRest : ∀ a ∈ rest, ∀ b ∈ rest, key a = key b → a = b := fun a inA b inB =>
      tells a (.tail first inA) b (.tail first inB)
    rw [foldl_cons, ih tellsRest]
    by_cases here : key first = k
    · subst here
      rw [lookup_insert]
      constructor
      · rintro (⟨listed, same⟩ | ⟨found, -⟩)
        · exact .inl ⟨.tail first listed, same⟩
        · cases Option.some.inj found
          exact .inl ⟨.head rest, rfl⟩
      · rintro (⟨listed, same⟩ | ⟨-, absent⟩)
        · have own : item = first := tells item listed first (.head rest) same
          subst own
          by_cases again : item ∈ rest
          · exact .inl ⟨again, rfl⟩
          · refine .inr ⟨rfl, fun i inRest equal => again ?_⟩
            exact tells i (.tail item inRest) item (.head rest) equal ▸ inRest
        · exact absurd rfl (absent first (.head rest))
    · rw [lookup_insert_ne (Ne.symm here)]
      simp only [mem_cons, forall_eq_or_imp]
      constructor
      · rintro (⟨listed, same⟩ | ⟨found, absent⟩)
        · exact .inl ⟨.inr listed, same⟩
        · exact .inr ⟨found, here, absent⟩
      · rintro (⟨rfl | listed, same⟩ | ⟨found, -, absent⟩)
        · exact absurd same here
        · exact .inl ⟨listed, same⟩
        · exact .inr ⟨found, absent⟩

end McpLocalHub.Foundation.Maps
