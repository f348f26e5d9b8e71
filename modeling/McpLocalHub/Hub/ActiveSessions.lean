/- Module: Hub/ActiveSessions
   source: internal/api/hub_mcp_session.go
   digest: Interleaved evictions, and the sessions that stay because a call is in flight. -/

import McpLocalHub.Hub.InFlightRows
import McpLocalHub.Hub.SessionEvictions
import McpLocalHub.Hub.StoreInvariant

set_option autoImplicit false

namespace McpLocalHub.Hub.ActiveSessions

open Foundation.Maps Foundation.LinkedList Foundation.Runs RequestId SessionEvictions List AList
open Aggregator (InFlight InflightEntry Published)
open InFlightRows (Counted Counted.insert Counted.remove lookup_removeInFlight_self
  lookup_removeInFlight_other)
open StoreInvariant (Represents Represents.session Represents.eq_of_value evictFrom_eq
  reachable_sound)
open SessionStore (HubSession HubSessionStore SessionStoreOpts newHubSessionStore)

def sole (id other : String) : ℤ := if other = id then 0 else 1

variable {id : String} {store : HubSessionStore} {cutoff : ℤ}

theorem sole_eq_zero {other : String} : sole id other = 0 ↔ other = id := by
  unfold sole
  split_ifs with same
  · exact ⟨fun _ => same, fun _ => rfl⟩
  · exact ⟨fun busy => absurd busy one_ne_zero, fun idle => absurd idle same⟩

theorem evictIdleLRULocked_sole (rep : Represents store) {e : Element String}
    {prev : List (Element String)} (rest : e :: prev <:+ store.lru.elements.reverse) :
    store.evictIdleLRULocked (sole e.value) = (true, (store.deleteLocked e.value).2) := by
  have listed : e ∈ store.lru.elements.reverse := rest.subset (.head _)
  have hit : store.lru.elements.reverse.find? (fun x => decide (sole e.value x.value = 0)) =
      some e := by
    have exists_idle : (store.lru.elements.reverse.find?
        (fun x => decide (sole e.value x.value = 0))).isSome = true :=
      List.find?_isSome.mpr ⟨e, listed, decide_eq_true (sole_eq_zero.mpr rfl)⟩
    obtain ⟨x, hit⟩ := Option.isSome_iff_exists.mp exists_idle
    have idle := List.find?_some hit
    have same : x.value = e.value := sole_eq_zero.mp (of_decide_eq_true idle)
    have inList := mem_reverse.mp (mem_of_find?_eq_some hit)
    rw [hit, rep.eq_of_value inList (mem_reverse.mp listed) same]
  unfold HubSessionStore.evictIdleLRULocked
  rw [evictFrom_eq _ (fun x inList => rep.session (mem_reverse.mp inList)), hit]

theorem mem_sweepCandidates {order : List String} {load : String → ℤ} :
    id ∈ store.sweepCandidates cutoff order load ↔
      id ∈ order ∧ ∃ sess, store.sessions.lookup id = some sess ∧ load id = 0 ∧
        sess.lastUsedAt < cutoff := by
  unfold HubSessionStore.sweepCandidates
  rw [mem_filter]
  cases store.sessions.lookup id with
  | none => simp
  | some sess => simp

theorem sweepOnce_sole {sess : HubSession}
    (found : store.sessions.lookup id = some sess) (old : sess.lastUsedAt < cutoff) :
    store.sweepOnce (cutoff + store.opts.idleTimeout) store.sessions.keys (sole id) (sole id) =
      (store.deleteLocked id).2 := by
  have distinct : (store.sweepCandidates cutoff store.sessions.keys (sole id)).Nodup :=
    store.sessions.keys_nodup.filter _
  have alone : store.sweepCandidates cutoff store.sessions.keys (sole id) = [id] := by
    refine perm_singleton.mp ((perm_ext_iff_of_nodup distinct (nodup_singleton id)).mpr ?_)
    intro other
    rw [mem_sweepCandidates, mem_singleton, sole_eq_zero]
    constructor
    · rintro ⟨_, _, _, same, _⟩
      exact same
    · rintro rfl
      exact ⟨mem_keys_of_lookup found, sess, found, rfl, old⟩
  unfold HubSessionStore.sweepOnce
  rw [add_sub_cancel_right, alone, foldl_cons, foldl_nil, if_pos (sole_eq_zero.mpr rfl)]

structure Refines (opts : SessionStoreOpts) (s : State) : Prop where
  world : ∃ w, Reachable (SessionStore.Opened opts) SessionStore.step SessionStore.FreshID w ∧
    w.store = s.store
  known : ∀ id ∈ s.store.sessions, id ∈ s.issued
  held : Held s.store s.issued s.mutex

theorem deleteLocked_sessions (store : HubSessionStore) (id : String) :
    (store.deleteLocked id).2.sessions = store.sessions.erase id := by
  unfold HubSessionStore.deleteLocked
  cases found : store.sessions.lookup id with
  | none => exact (erase_of_absent found).symm
  | some sess => cases store.lruIndex.lookup id <;> rfl

theorem recordActivity_sessions (store : HubSessionStore) (id : String) (sess : HubSession)
    (now : ℤ) : (store.recordActivity id sess now).2.sessions =
      store.sessions.insert id { sess with lastUsedAt := now } := by
  unfold HubSessionStore.recordActivity
  cases store.lruIndex.lookup id <;> rfl

section

variable {opts : SessionStoreOpts} {s t : State} {label : Label}

theorem Refines.world_step (refines : Refines opts s) {store : HubSessionStore}
    (simulates : ∀ w, w.store = s.store → Represents s.store →
      ∃ op w', SessionStore.FreshID w op ∧ SessionStore.step w op = some w' ∧ w'.store = store) :
    ∃ w, Reachable (SessionStore.Opened opts) SessionStore.step SessionStore.FreshID w ∧
      w.store = store := by
  obtain ⟨w, reached, same⟩ := refines.world
  have rep : Represents s.store := same ▸ (reachable_sound reached).rep
  obtain ⟨op, w', fresh, moved, after⟩ := simulates w same rep
  exact ⟨w', reached.extend (.snoc .nil fresh moved), after⟩

variable {id : String} {sess : HubSession}

section

variable (refines : Refines opts s)

include refines

theorem Refines.registers {client protoVer : String}
    {snap : Option Published} {now : ℤ} (fresh : id ∉ s.issued) (free : s.mutex = .free)
    (room : (s.store.perClient.lookup client).getD 0 < s.store.opts.maxPerClient)
    (space : (size s.store.sessions : ℤ) < s.store.opts.maxGlobal) :
    Refines opts { s with
      issued := s.issued ++ [id]
      store := s.store.register ⟨id, client, protoVer, snap, now, now⟩ } where
  world := by
    refine refines.world_step ?_
    intro w same _
    have absent : w.store.sessions.lookup id = none := by
      rw [same]
      exact lookup_eq_none.mpr (fun present => fresh (refines.known id present))
    have made : w.store.create client protoVer snap (.ok id) now (fun _ => 0) =
        (.ok ⟨id, client, protoVer, snap, now, now⟩,
          s.store.register ⟨id, client, protoVer, snap, now, now⟩) := by
      unfold HubSessionStore.create
      rw [same, if_neg (not_le.mpr room)]
      dsimp only
      rw [if_neg (not_le.mpr space)]
    exact ⟨.create client protoVer snap (.ok id) now (fun _ => 0), w.use id _, absent,
      by simp only [SessionStore.step, made], rfl⟩
  known := by
    intro other present
    rcases (mem_insert _).mp present with new | old
    · exact mem_append.mpr (.inr (mem_singleton.mpr new))
    · exact mem_append.mpr (.inl (refines.known other old))
  held := by
    rw [free]
    trivial

theorem Refines.evicts {e : Element String}
    {prev : List (Element String)} (held : Held s.store s.issued (.evicting sess (e :: prev))) :
    Refines opts { s with
      mutex := .free, store := (s.store.deleteLocked e.value).2.register sess } where
  world := by
    obtain ⟨_, absent, room, atCap, stamped, rest⟩ := held
    refine refines.world_step ?_
    intro w same rep
    have made : w.store.create sess.scopeKey sess.protocolVersion sess.snapshotAtInit
        (.ok sess.clientSessionID) sess.lastUsedAt (sole e.value) =
        (.ok sess, (s.store.deleteLocked e.value).2.register sess) := by
      unfold HubSessionStore.create
      rw [same, if_neg (not_le.mpr room)]
      dsimp only
      rw [if_pos atCap, evictIdleLRULocked_sole rep rest]
      cases sess with
      | mk clientSessionID scopeKey protocolVersion snapshotAtInit initAt lastUsedAt =>
        obtain rfl : initAt = lastUsedAt := stamped
        rfl
    exact ⟨.create sess.scopeKey sess.protocolVersion sess.snapshotAtInit
      (.ok sess.clientSessionID) sess.lastUsedAt (sole e.value), w.use sess.clientSessionID _,
      by rw [SessionStore.FreshID, same]; exact absent, by simp only [SessionStore.step, made], rfl⟩
  known := by
    intro other present
    rcases (mem_insert _).mp present with new | old
    · exact new ▸ held.1
    · rw [deleteLocked_sessions] at old
      exact refines.known other (mem_erase.mp old).2
  held := trivial

theorem Refines.sweeps {cutoff : ℤ}
    {cands : List String} (held : Held s.store s.issued (.sweeping cutoff (id :: cands))) :
    Refines opts { s with
      mutex := .sweeping cutoff cands, store := (s.store.deleteLocked id).2 } where
  world := by
    cases found : s.store.sessions.lookup id with
    | none =>
      have kept : s.store.deleteLocked id = (false, s.store) := by
        simp only [HubSessionStore.deleteLocked, found]
      rw [kept]
      exact refines.world
    | some sess =>
      refine refines.world_step ?_
      intro w same _
      refine ⟨.sweepOnce (cutoff + s.store.opts.idleTimeout) s.store.sessions.keys (sole id)
        (sole id), w.next _, trivial, ?_, rfl⟩
      simp only [SessionStore.step, same, List.Perm.refl, if_true]
      rw [sweepOnce_sole found (held id (.head _) sess found)]
  known := by
    intro other present
    rw [deleteLocked_sessions] at present
    exact refines.known other (mem_erase.mp present).2
  held := by
    intro other listed sess hit
    rw [deleteLocked_sessions] at hit
    exact held other (.tail _ listed) sess (lookup_erase_cases hit).2

theorem Refines.deletes (id : String) (free : s.mutex = .free) :
    Refines opts { s with store := (s.store.delete id).2, deleted := s.deleted ++ [id] } where
  world := by
    refine refines.world_step ?_
    intro w same _
    exact ⟨.delete id, w.next _, trivial, by simp only [SessionStore.step, same], rfl⟩
  known := by
    intro other present
    rw [HubSessionStore.delete, deleteLocked_sessions] at present
    exact refines.known other (mem_erase.mp present).2
  held := by
    rw [free]
    trivial

theorem Refines.touches (h : ℕ)
    (now : ℤ) (free : s.mutex = .free) (found : s.store.sessions.lookup id = some sess) :
    Refines opts ({ s with store := (s.store.recordActivity id sess now).2 }.setHandler h
      (.fetched id)) where
  world := by
    refine refines.world_step ?_
    intro w same _
    refine ⟨.touch id now, w.use id _, trivial, ?_, rfl⟩
    simp only [SessionStore.step, HubSessionStore.touch, same, found]
  known := by
    intro other present
    change other ∈ (s.store.recordActivity id sess now).2.sessions at present
    rw [recordActivity_sessions, mem_insert] at present
    rcases present with new | old
    · exact new ▸ refines.known id (lookup_isSome.mp (by rw [found]; rfl))
    · exact refines.known other old
  held := by
    rw [free]
    trivial

theorem step_refines (fresh : FreshID s label)
    (moved : step s label = some t) : Refines opts t := by
  have moves := step_moves refines.held moved
  cases moves with
  | refused => exact refines
  | waits mutex held => exact ⟨refines.world, refines.known, held⟩
  | walks id left held =>
    have absent : s.store.sessions.lookup id = none :=
      lookup_eq_none.mpr (fun present => fresh (refines.known id present))
    exact ⟨refines.world,
      fun other present => mem_append.mpr (.inl (refines.known other present)), held absent⟩
  | registers id free room space => exact refines.registers fresh free room space
  | evicts sess victim e prev held found idle => exact refines.evicts held
  | sweeps cutoff id cands held idle => exact refines.sweeps held
  | deletes id free => exact refines.deletes id free
  | handles h handler | inserts h id key entry handler target | removes h id key handler =>
    exact ⟨refines.world, refines.known, refines.held⟩
  | touches h id now sess free found => exact refines.touches h now free found

end

theorem opened_refines (opened : Opened opts s) : Refines opts s := by
  subst opened
  exact ⟨⟨_, ⟨_, [], rfl, .nil⟩, rfl⟩, by rintro _ ⟨⟩, trivial⟩

end

/-- The counters are the numbers of the rows, and a session with a row has not been evicted. -/
structure Active (s : State) : Prop where
  counted : ∀ id, Counted (s.rows id)
  kept : ∀ id key entry, (s.rows id).requests.lookup key = some entry → Kept s id

section

variable {s t : State} {label : Label}

variable {id : String} {opts : SessionStoreOpts}

section

variable (active : Active s)

include active

theorem Active.no_row (idle : (s.rows id).count = 0)
    (key : RequestIDKey) : (s.rows id).requests.lookup key = none := by
  cases found : (s.rows id).requests.lookup key with
  | none => rfl
  | some entry =>
    have counted := active.counted id
    have listed := mem_keys_of_lookup found
    have positive := length_pos_of_mem listed
    unfold Counted size at counted
    omega

theorem Active.frame (rows : t.rows = s.rows)
    (stays : ∀ id, (∃ key, (s.rows id).requests.lookup key ≠ none) → Kept s id → Kept t id) :
    Active t where
  counted := by
    rw [rows]
    exact active.counted
  kept := by
    intro id key entry found
    rw [rows] at found
    exact stays id ⟨key, by rw [found]; exact Option.some_ne_none entry⟩
      (active.kept id key entry found)

theorem Active.stays_of_idle (idle : (s.rows id).count = 0) {other : String}
    (busy : ∃ key, (s.rows other).requests.lookup key ≠ none) (kept : Kept s other) :
    other ∈ (s.store.deleteLocked id).2.sessions ∨ other ∈ s.deleted := by
  obtain ⟨key, row⟩ := busy
  rcases kept with present | deleted
  · left
    rw [deleteLocked_sessions, mem_erase]
    refine ⟨?_, present⟩
    rintro rfl
    exact row (active.no_row idle key)
  · exact .inr deleted

theorem Active.setRows (h : ℕ) {rows : InFlight} (handler : Handler) (counted : Counted rows)
    (kept : ∀ key entry, rows.requests.lookup key = some entry → Kept s id) :
    Active ((s.setRows id rows).setHandler h handler) where
  counted := by
    intro other
    change Counted (Function.update s.rows id rows other)
    by_cases same : other = id
    · rw [same, Function.update_self]
      exact counted
    · rw [Function.update_of_ne same]
      exact active.counted other
  kept := by
    intro other key entry found
    change (Function.update s.rows id rows other).requests.lookup key = some entry at found
    by_cases same : other = id
    · rw [same, Function.update_self] at found
      exact same ▸ kept key entry found
    · rw [Function.update_of_ne same] at found
      exact active.kept other key entry found

theorem Active.inserts (h : ℕ) (key : RequestIDKey)
    (entry : InflightEntry) (handler : Handler) (target : Kept s id) :
    Active ((s.setRows id ((s.rows id).insertInFlight key entry).1).setHandler h handler) := by
  refine active.setRows h handler ?_ (fun _ _ _ => target)
  unfold InFlight.insertInFlight
  cases found : (s.rows id).requests.lookup key with
  | some _ => exact active.counted id
  | none => exact (active.counted id).insert entry found

theorem Active.removes (h : ℕ) (id : String) (key : RequestIDKey) (handler : Handler) :
    Active ((s.setRows id ((s.rows id).removeInFlight key)).setHandler h handler) := by
  refine active.setRows h handler ((active.counted id).remove key) ?_
  intro other entry found
  by_cases self : other = key
  · rw [self, lookup_removeInFlight_self] at found
    cases found
  · rw [lookup_removeInFlight_other _ self] at found
    exact active.kept id other entry found

theorem step_active (held : Held s.store s.issued s.mutex)
    (orderly : RegistersKept s label) (moved : step s label = some t) : Active t := by
  have moves := step_moves held moved
  cases moves with
  | refused => exact active
  | waits mutex held | walks id left held | handles h handler =>
    exact active.frame rfl (fun _ _ kept => kept)
  | registers id free room space =>
    refine active.frame rfl ?_
    intro other _ kept
    exact kept.imp_left (fun present => (mem_insert _).mpr (.inr present))
  | evicts sess victim e prev held found idle =>
    refine active.frame rfl ?_
    intro other busy kept
    refine (active.stays_of_idle idle busy kept).imp_left ?_
    exact fun present => (mem_insert _).mpr (.inr present)
  | sweeps cutoff id cands held idle =>
    exact active.frame rfl (fun other busy kept => active.stays_of_idle idle busy kept)
  | deletes id free =>
    refine active.frame rfl ?_
    rintro other _ (present | deleted)
    · by_cases same : other = id
      · exact .inr (mem_append.mpr (.inr (mem_singleton.mpr same)))
      · left
        change other ∈ (s.store.deleteLocked id).2.sessions
        rw [deleteLocked_sessions, mem_erase]
        exact ⟨same, present⟩
    · exact .inr (mem_append.mpr (.inl deleted))
  | touches h id now sess free found =>
    refine active.frame rfl ?_
    intro other _ kept
    refine kept.imp_left ?_
    intro present
    change other ∈ (s.store.recordActivity id sess now).2.sessions
    rw [recordActivity_sessions, mem_insert]
    exact .inr present
  | inserts h id key entry handler target =>
    exact active.inserts h key entry handler (orderly.2 id target)
  | removes h id key handler => exact active.removes h id key handler

end

theorem opened_active (opened : Opened opts s) : Active s := by
  subst opened
  exact ⟨fun _ => rfl, by rintro _ _ _ ⟨⟩⟩

def Sound (opts : SessionStoreOpts) (s : State) : Prop := Refines opts s ∧ Active s

theorem step_sound (sound : Sound opts s)
    (orderly : RegistersKept s label) (moved : step s label = some t) : Sound opts t := by
  obtain ⟨refines, active⟩ := sound
  exact ⟨step_refines refines orderly.1 moved, step_active active refines.held orderly moved⟩

/-- In every run whose calls are registered on sessions that are there, a session with a row is in
the store, unless it was deleted. -/
theorem active_session_present {opts : SessionStoreOpts}
    (reached : Reachable (Opened opts) step RegistersKept s) (id : String) (key : RequestIDKey)
    (entry : InflightEntry) (row : (s.rows id).requests.lookup key = some entry) :
    id ∈ s.store.sessions ∨ id ∈ s.deleted := by
  have sound : Sound opts s :=
    reached.invariant (fun _ opened => ⟨opened_refines opened, opened_active opened⟩)
      (fun _ _ _ sound orderly moved => step_sound sound orderly moved)
  exact sound.2.kept id key entry row

end

def memoryEntry : InflightEntry := ⟨⟨"memory", "default", 9123⟩, "sid", "2025-06-18", ['a']⟩

/-- The store has room for one session: the next `Create` finds the session of the call busy and
fails. -/
theorem active_session_present_busy :
    ∃ s, Reachable (Opened ⟨2, 1, 0, 0⟩) step RegistersKept s ∧
      (s.rows "first").requests.lookup ['7'] = some memoryEntry ∧
      ("first" ∈ s.store.sessions ∨ "first" ∈ s.deleted) ∧ "second" ∉ s.store.sessions := by
  obtain ⟨s, reached, row, refused⟩ : ∃ s, Reachable (Opened ⟨2, 1, 0, 0⟩) step RegistersKept s ∧
      (s.rows "first").requests.lookup ['7'] = some memoryEntry ∧ "second" ∉ s.store.sessions :=
    exists_reachable_under _ { store := newHubSessionStore ⟨2, 1, 0, 0⟩ }
      [.create "claude" "2025-06-18" none (.ok "first") 1, .getAndTouch 1 "first" 2,
        .insertInFlight 1 ['7'] memoryEntry, .create "cursor" "2025-06-18" none (.ok "second") 3,
        .evictNext, .evictNext] (by rfl) (by decide +kernel)
  exact ⟨s, reached, row, active_session_present reached "first" ['7'] memoryEntry row, refused⟩

/-- The session is evicted between `GetAndTouch` and `InsertInFlight`: the call runs on a session
that is gone. -/
theorem evicted_session_registers :
    ∃ s, Reachable (Opened ⟨2, 1, 0, 0⟩) step FreshID s ∧
      (s.rows "first").requests.lookup ['7'] = some memoryEntry ∧
      "first" ∉ s.store.sessions ∧ "first" ∉ s.deleted := by
  exact exists_reachable_under _ { store := newHubSessionStore ⟨2, 1, 0, 0⟩ }
    [.create "claude" "2025-06-18" none (.ok "first") 1, .getAndTouch 1 "first" 2,
      .create "cursor" "2025-06-18" none (.ok "second") 3, .evictNext,
      .insertInFlight 1 ['7'] memoryEntry] (by rfl) (by decide +kernel)

end McpLocalHub.Hub.ActiveSessions
