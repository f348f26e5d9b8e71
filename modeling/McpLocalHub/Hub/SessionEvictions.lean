/- Module: Hub/SessionEvictions
   source: internal/api/hub_mcp_session.go, internal/api/hub_mcp_aggregator.go
   digest: The calls in flight against the evictions, cut at their looks at a counter. -/

import McpLocalHub.Hub.SessionStore

set_option autoImplicit false

/-!
The mutex of the store is held during a whole `Create` or sweep, so no other operation of the store
runs meanwhile. `InsertInFlight` and `RemoveInFlight` take `inflightMu` of their session only: they
run between any two looks at a counter. A look and the deletion that follows it are one step, since
`inflightMu` is held over both.
-/

namespace McpLocalHub.Hub.SessionEvictions

open Foundation.Maps Foundation.LinkedList RequestId Aggregator SessionStore

inductive Holder
  | free
  | evicting (sess : HubSession) (left : List (Element String))
  | scanning (cutoff : ℤ) (left cands : List String)
  | sweeping (cutoff : ℤ) (cands : List String)

/-- A handler of a request. It keeps the session that it has fetched, in the store or not. -/
inductive Handler
  | gated (session : String)
  /-- The request is past its gates. A re-initialization of the daemon can run here. -/
  | fetched (session : String)
  | registered (session : String) (key : RequestIDKey)
  | healing (session : String) (key : RequestIDKey)
  | ended

structure State where
  store : HubSessionStore
  mutex : Holder := .free
  /-- The rows of each session: they stay with the session when it leaves the store. -/
  rows : String → InFlight := fun _ => {}
  handlers : Map ℕ Handler := ∅
  /-- A record of the ids that `Delete` was called with. -/
  deleted : List String := []
  /-- A record of the ids that `generateSessionID` has given. -/
  issued : List String := []

inductive Label
  | create (client protoVer : String) (snap : Option Published) (generated : Except String String)
      (now : ℤ)
  | evictNext
  | sweep (now : ℤ) (order : List String)
  | scanNext
  | sweepNext
  | delete (id : String)
  | get (h : ℕ) (id : String)
  | touch (h : ℕ) (now : ℤ)
  | getAndTouch (h : ℕ) (id : String) (now : ℤ)
  | insertInFlight (h : ℕ) (key : RequestIDKey) (entry : InflightEntry)
  | removeInFlight (h : ℕ)
  | dropRow (h : ℕ)
  | reinsertRow (h : ℕ) (entry : InflightEntry)

namespace State

def setHandler (s : State) (h : ℕ) (handler : Handler) : State :=
  { s with handlers := s.handlers.insert h handler }

def setRows (s : State) (id : String) (rows : InFlight) : State :=
  { s with rows := Function.update s.rows id rows }

end State

def create (s : State) (client protoVer : String) (snap : Option Published)
    (generated : Except String String) (now : ℤ) : State :=
  if (s.store.perClient.lookup client).getD 0 ≥ s.store.opts.maxPerClient then s
  else
    match generated with
    | .error _ => s
    | .ok id =>
      if (size s.store.sessions : ℤ) ≥ s.store.opts.maxGlobal then
        { s with
          issued := s.issued ++ [id]
          mutex := .evicting ⟨id, client, protoVer, snap, now, now⟩ s.store.lru.elements.reverse }
      else
        { s with
          issued := s.issued ++ [id]
          store := s.store.register ⟨id, client, protoVer, snap, now, now⟩ }

/-- The walk at one element. `register` follows the deletion under the mutex and reads no row. -/
def evictAt (s : State) (sess : HubSession) (e : Element String) (prev : List (Element String)) :
    State :=
  match s.store.sessions.lookup e.value with
  | none => { s with mutex := .evicting sess prev }
  | some _ =>
    if (s.rows e.value).count = 0 then
      { s with mutex := .free, store := (s.store.deleteLocked e.value).2.register sess }
    else { s with mutex := .evicting sess prev }

def scanAt (s : State) (cutoff : ℤ) (id : String) (left cands : List String) : State :=
  match s.store.sessions.lookup id with
  | none => { s with mutex := .scanning cutoff left cands }
  | some sess =>
    if (s.rows id).count = 0 ∧ sess.lastUsedAt < cutoff then
      { s with mutex := .scanning cutoff left (cands ++ [id]) }
    else { s with mutex := .scanning cutoff left cands }

def sweepAt (s : State) (cutoff : ℤ) (id : String) (cands : List String) : State :=
  if (s.rows id).count = 0 then
    { s with mutex := .sweeping cutoff cands, store := (s.store.deleteLocked id).2 }
  else { s with mutex := .sweeping cutoff cands }

def stepStore (s : State) : Label → Option State
  | .create client protoVer snap generated now =>
    match s.mutex with
    | .free => some (create s client protoVer snap generated now)
    | _ => none
  | .evictNext =>
    match s.mutex with
    | .evicting _ [] => some { s with mutex := .free }
    | .evicting sess (e :: prev) => some (evictAt s sess e prev)
    | _ => none
  | .sweep now order =>
    match s.mutex with
    | .free =>
      if order.Perm s.store.sessions.keys then
        some { s with mutex := .scanning (now - s.store.opts.idleTimeout) order [] }
      else none
    | _ => none
  | .scanNext =>
    match s.mutex with
    | .scanning cutoff [] cands => some { s with mutex := .sweeping cutoff cands }
    | .scanning cutoff (id :: left) cands => some (scanAt s cutoff id left cands)
    | _ => none
  | .sweepNext =>
    match s.mutex with
    | .sweeping _ [] => some { s with mutex := .free }
    | .sweeping cutoff (id :: cands) => some (sweepAt s cutoff id cands)
    | _ => none
  | .delete id =>
    match s.mutex with
    | .free => some { s with store := (s.store.delete id).2, deleted := s.deleted ++ [id] }
    | _ => none
  | _ => none

def stepFetch (s : State) : Label → Option State
  | .get h id =>
    match s.mutex, s.handlers.lookup h with
    | .free, none =>
      match s.store.get id with
      | none => some (s.setHandler h .ended)
      | some _ => some (s.setHandler h (.gated id))
    | _, _ => none
  | .touch h now =>
    match s.mutex, s.handlers.lookup h with
    | .free, some (.gated id) =>
      match s.store.touch id now with
      | (false, _) => some (s.setHandler h .ended)
      | (true, t) => some ({ s with store := t }.setHandler h (.fetched id))
    | _, _ => none
  | .getAndTouch h id now =>
    match s.mutex, s.handlers.lookup h with
    | .free, none =>
      match s.store.getAndTouch id now with
      | (none, _) => some (s.setHandler h .ended)
      | (some _, t) => some ({ s with store := t }.setHandler h (.fetched id))
    | _, _ => none
  | _ => none

/-- The steps of the handlers that take `inflightMu` only, whoever holds the mutex of the store. -/
def stepRows (s : State) : Label → Option State
  | .insertInFlight h key entry =>
    match s.handlers.lookup h with
    | some (.fetched id) =>
      match (s.rows id).insertInFlight key entry with
      | (_, false) => some (s.setHandler h .ended)
      | (rows, true) => some ((s.setRows id rows).setHandler h (.registered id key))
    | _ => none
  | .removeInFlight h =>
    match s.handlers.lookup h with
    | some (.registered id key) =>
      some ((s.setRows id ((s.rows id).removeInFlight key)).setHandler h .ended)
    | _ => none
  | .dropRow h =>
    match s.handlers.lookup h with
    | some (.registered id key) =>
      some ((s.setRows id ((s.rows id).removeInFlight key)).setHandler h (.healing id key))
    | _ => none
  -- the result of this insertion is not looked at
  | .reinsertRow h entry =>
    match s.handlers.lookup h with
    | some (.healing id key) =>
      some ((s.setRows id ((s.rows id).insertInFlight key entry).1).setHandler h
        (.registered id key))
    | _ => none
  | _ => none

def step (s : State) (label : Label) : Option State :=
  stepStore s label <|> stepFetch s label <|> stepRows s label

def Opened (opts : SessionStoreOpts) (s : State) : Prop := s = { store := newHubSessionStore opts }

/-- `generateSessionID` draws 128 random bits: an id is given once. -/
def FreshID (s : State) : Label → Prop
  | .create _ _ _ (.ok id) _ => id ∉ s.issued
  | _ => True

instance (s : State) (label : Label) : Decidable (FreshID s label) := by
  unfold FreshID
  split <;> infer_instance

def registersOn (s : State) : Label → Option String
  | .insertInFlight h _ _ =>
    match s.handlers.lookup h with
    | some (.fetched id) => some id
    | _ => none
  | .reinsertRow h _ =>
    match s.handlers.lookup h with
    | some (.healing id _) => some id
    | _ => none
  | _ => none

def Kept (s : State) (id : String) : Prop := id ∈ s.store.sessions ∨ id ∈ s.deleted
  deriving Decidable

def RegistersKept (s : State) (label : Label) : Prop :=
  FreshID s label ∧ ∀ id ∈ registersOn s label, Kept s id
  deriving Decidable

def Held (store : HubSessionStore) (issued : List String) : Holder → Prop
  | .free => True
  | .evicting sess left =>
    sess.clientSessionID ∈ issued ∧ store.sessions.lookup sess.clientSessionID = none ∧
      (store.perClient.lookup sess.scopeKey).getD 0 < store.opts.maxPerClient ∧
      store.opts.maxGlobal ≤ (size store.sessions : ℤ) ∧ sess.initAt = sess.lastUsedAt ∧
      left <:+ store.lru.elements.reverse
  | .scanning cutoff _ cands | .sweeping cutoff cands =>
    ∀ id ∈ cands, ∀ sess, store.sessions.lookup id = some sess → sess.lastUsedAt < cutoff

inductive Moves (s : State) : Label → State → Prop
  | refused {label : Label} : Moves s label s
  | waits {label : Label} (mutex : Holder) (held : Held s.store s.issued mutex) :
      Moves s label { s with mutex := mutex }
  | walks {client protoVer : String} {snap : Option Published} {now : ℤ} (id : String)
      (left : List (Element String))
      (held : s.store.sessions.lookup id = none →
        Held s.store (s.issued ++ [id]) (.evicting ⟨id, client, protoVer, snap, now, now⟩ left)) :
      Moves s (.create client protoVer snap (.ok id) now)
        { s with
          issued := s.issued ++ [id]
          mutex := .evicting ⟨id, client, protoVer, snap, now, now⟩ left }
  | registers {client protoVer : String} {snap : Option Published} {now : ℤ} (id : String)
      (free : s.mutex = .free)
      (room : (s.store.perClient.lookup client).getD 0 < s.store.opts.maxPerClient)
      (space : (size s.store.sessions : ℤ) < s.store.opts.maxGlobal) :
      Moves s (.create client protoVer snap (.ok id) now)
        { s with
          issued := s.issued ++ [id]
          store := s.store.register ⟨id, client, protoVer, snap, now, now⟩ }
  | evicts (sess victim : HubSession) (e : Element String) (prev : List (Element String))
      (held : Held s.store s.issued (.evicting sess (e :: prev)))
      (found : s.store.sessions.lookup e.value = some victim)
      (idle : (s.rows e.value).count = 0) :
      Moves s .evictNext
        { s with mutex := .free, store := (s.store.deleteLocked e.value).2.register sess }
  | sweeps (cutoff : ℤ) (id : String) (cands : List String)
      (held : Held s.store s.issued (.sweeping cutoff (id :: cands)))
      (idle : (s.rows id).count = 0) :
      Moves s .sweepNext
        { s with mutex := .sweeping cutoff cands, store := (s.store.deleteLocked id).2 }
  | deletes (id : String) (free : s.mutex = .free) :
      Moves s (.delete id)
        { s with store := (s.store.delete id).2, deleted := s.deleted ++ [id] }
  | handles {label : Label} (h : ℕ) (handler : Handler) : Moves s label (s.setHandler h handler)
  | touches {label : Label} (h : ℕ) (id : String) (now : ℤ) (sess : HubSession)
      (free : s.mutex = .free) (found : s.store.sessions.lookup id = some sess) :
      Moves s label ({ s with store := (s.store.recordActivity id sess now).2 }.setHandler h
        (.fetched id))
  | inserts {label : Label} (h : ℕ) (id : String) (key : RequestIDKey) (entry : InflightEntry)
      (handler : Handler) (target : registersOn s label = some id) :
      Moves s label ((s.setRows id ((s.rows id).insertInFlight key entry).1).setHandler h handler)
  | removes {label : Label} (h : ℕ) (id : String) (key : RequestIDKey) (handler : Handler) :
      Moves s label ((s.setRows id ((s.rows id).removeInFlight key)).setHandler h handler)

section

variable {s t : State} {label : Label}

theorem create_moves (free : s.mutex = .free) (client protoVer : String)
    (snap : Option Published) (generated : Except String String) (now : ℤ) :
    Moves s (.create client protoVer snap generated now)
      (create s client protoVer snap generated now) := by
  unfold create
  by_cases full : (s.store.perClient.lookup client).getD 0 ≥ s.store.opts.maxPerClient
  · rw [if_pos full]
    exact .refused
  · rw [if_neg full]
    have room := not_le.mp full
    cases generated with
    | error err => exact .refused
    | ok id =>
      dsimp only
      by_cases atCap : (size s.store.sessions : ℤ) ≥ s.store.opts.maxGlobal
      · rw [if_pos atCap]
        refine .walks id _ ?_
        intro absent
        exact ⟨List.mem_append.mpr (.inr (List.mem_singleton.mpr rfl)), absent, room, atCap, rfl,
          List.suffix_rfl⟩
      · rw [if_neg atCap]
        exact .registers id free room (not_le.mp atCap)

theorem evictAt_moves {sess : HubSession} {e : Element String} {prev : List (Element String)}
    (held : Held s.store s.issued (.evicting sess (e :: prev))) :
    Moves s .evictNext (evictAt s sess e prev) := by
  have further : Held s.store s.issued (.evicting sess prev) := by
    obtain ⟨given, absent, room, atCap, stamped, rest⟩ := held
    exact ⟨given, absent, room, atCap, stamped, (List.suffix_cons e prev).trans rest⟩
  unfold evictAt
  cases found : s.store.sessions.lookup e.value with
  | none => exact .waits _ further
  | some victim =>
    by_cases idle : (s.rows e.value).count = 0
    · rw [if_pos idle]
      exact .evicts sess victim e prev held found idle
    · rw [if_neg idle]
      exact .waits _ further

theorem scanAt_moves {cutoff : ℤ} {id : String} {left cands : List String}
    (held : Held s.store s.issued (.scanning cutoff (id :: left) cands)) :
    Moves s .scanNext (scanAt s cutoff id left cands) := by
  unfold scanAt
  cases found : s.store.sessions.lookup id with
  | none => exact .waits _ held
  | some sess =>
    dsimp only
    by_cases idle : (s.rows id).count = 0 ∧ sess.lastUsedAt < cutoff
    · rw [if_pos idle]
      refine .waits _ ?_
      intro other listed held' hit
      rcases List.mem_append.mp listed with before | new
      · exact held other before held' hit
      · rw [List.mem_singleton.mp new, found, Option.some.injEq] at hit
        exact hit ▸ idle.2
    · rw [if_neg idle]
      exact .waits _ held

theorem sweepAt_moves {cutoff : ℤ} {id : String} {cands : List String}
    (held : Held s.store s.issued (.sweeping cutoff (id :: cands))) :
    Moves s .sweepNext (sweepAt s cutoff id cands) := by
  unfold sweepAt
  by_cases idle : (s.rows id).count = 0
  · rw [if_pos idle]
    exact .sweeps cutoff id cands held idle
  · rw [if_neg idle]
    exact .waits _ (fun other listed => held other (List.mem_cons_of_mem id listed))

theorem stepStore_moves (held : Held s.store s.issued s.mutex)
    (moved : stepStore s label = some t) : Moves s label t := by
  cases label with
  | create client protoVer snap generated now =>
    simp only [stepStore] at moved
    cases mutex : s.mutex <;> rw [mutex] at moved <;> cases moved
    exact create_moves mutex client protoVer snap generated now
  | evictNext =>
    simp only [stepStore] at moved
    rcases mutex : s.mutex with _ | ⟨sess, _ | ⟨e, prev⟩⟩ | _ | _ <;>
      rw [mutex] at moved held <;> cases moved
    · exact .waits .free trivial
    · exact evictAt_moves held
  | sweep now order =>
    simp only [stepStore] at moved
    cases mutex : s.mutex <;> rw [mutex] at moved <;> dsimp only at moved
    · split_ifs at moved
      cases moved
      exact .waits _ (by rintro _ ⟨⟩)
    all_goals cases moved
  | scanNext =>
    simp only [stepStore] at moved
    rcases mutex : s.mutex with _ | _ | ⟨cutoff, _ | ⟨id, left⟩, cands⟩ | _ <;>
      rw [mutex] at moved held <;> cases moved
    · exact .waits _ held
    · exact scanAt_moves held
  | sweepNext =>
    simp only [stepStore] at moved
    rcases mutex : s.mutex with _ | _ | _ | ⟨cutoff, _ | ⟨id, cands⟩⟩ <;>
      rw [mutex] at moved held <;> cases moved
    · exact .waits .free trivial
    · exact sweepAt_moves held
  | delete id =>
    simp only [stepStore] at moved
    split at moved
    · next free =>
      cases moved
      exact .deletes id free
    · cases moved
  | get _ _ | touch _ _ | getAndTouch _ _ _ | insertInFlight _ _ _ | removeInFlight _ | dropRow _
  | reinsertRow _ _ => cases moved

theorem stepFetch_moves (moved : stepFetch s label = some t) : Moves s label t := by
  cases label with
  | get h id =>
    simp only [stepFetch] at moved
    split at moved
    · split at moved <;> cases moved <;> exact .handles h _
    · cases moved
  | touch h now =>
    simp only [stepFetch] at moved
    split at moved
    · next id free _ =>
      unfold HubSessionStore.touch at moved
      cases found : s.store.sessions.lookup id with
      | none =>
        rw [found] at moved
        cases moved
        exact .handles h _
      | some sess =>
        rw [found] at moved
        cases moved
        exact .touches h id now sess free found
    · cases moved
  | getAndTouch h id now =>
    simp only [stepFetch] at moved
    split at moved
    · next free _ =>
      unfold HubSessionStore.getAndTouch at moved
      cases found : s.store.sessions.lookup id with
      | none =>
        rw [found] at moved
        cases moved
        exact .handles h _
      | some sess =>
        rw [found] at moved
        cases moved
        exact .touches h id now sess free found
    · cases moved
  | create _ _ _ _ _ | evictNext | sweep _ _ | scanNext | sweepNext | delete _
  | insertInFlight _ _ _ | removeInFlight _ | dropRow _ | reinsertRow _ _ => cases moved

theorem stepRows_moves (moved : stepRows s label = some t) : Moves s label t := by
  cases label with
  | insertInFlight h key entry =>
    simp only [stepRows] at moved
    split at moved
    · next id handler =>
      have target : registersOn s (.insertInFlight h key entry) = some id := by
        simp only [registersOn, handler]
      cases outcome : (s.rows id).insertInFlight key entry with
      | mk rows fresh =>
        rw [outcome] at moved
        cases fresh with
        | false =>
          cases moved
          exact .handles h _
        | true =>
          cases moved
          have inserted := Moves.inserts h id key entry (.registered id key) target
          rw [outcome] at inserted
          exact inserted
    · cases moved
  | removeInFlight h | dropRow h =>
    simp only [stepRows] at moved
    split at moved
    · cases moved
      exact .removes h _ _ _
    · cases moved
  | reinsertRow h entry =>
    simp only [stepRows] at moved
    split at moved
    · next id key handler =>
      cases moved
      exact .inserts h id key entry _ (by simp only [registersOn, handler])
    · cases moved
  | create _ _ _ _ _ | evictNext | sweep _ _ | scanNext | sweepNext | delete _ | get _ _
  | touch _ _ | getAndTouch _ _ _ => cases moved

theorem step_moves (held : Held s.store s.issued s.mutex) (moved : step s label = some t) :
    Moves s label t := by
  simp only [step, Option.orElse_eq_orElse, Option.orElse_eq_or, Option.or_eq_some_iff] at moved
  rcases moved with ofStore | ⟨_, ofFetch | ⟨_, ofRows⟩⟩
  · exact stepStore_moves held ofStore
  · exact stepFetch_moves ofFetch
  · exact stepRows_moves ofRows

end

end McpLocalHub.Hub.SessionEvictions
