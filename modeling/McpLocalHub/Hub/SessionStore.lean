/- Module: Hub/SessionStore
   source: internal/api/hub_mcp_session.go
   digest: The store of the hub's sessions and its indexes, under the six operations. -/

import McpLocalHub.Foundation.LinkedList
import McpLocalHub.Hub.Aggregator

set_option autoImplicit false

/-!
An operation holds the mutex of the store from its first to its last access, so it is one step. The
counters of the calls in flight are not guarded by that mutex: the values that an operation loads
are arguments of it. So are the clock and the id that `generateSessionID` gives.
-/

namespace McpLocalHub.Hub.SessionStore

open Foundation.Maps Foundation.LinkedList ToolsList Aggregator

def defaultMaxSessionsPerClient : ℤ := 16
def defaultMaxSessionsGlobal : ℤ := 256
def defaultSessionIdleTimeout : ℤ := 30 * 60 * 1000000000
def defaultSessionSweepInterval : ℤ := 60 * 1000000000

structure SessionStoreOpts where
  maxPerClient : ℤ
  maxGlobal : ℤ
  idleTimeout : ℤ
  sweepInterval : ℤ

structure HubSession where
  clientSessionID : String
  scopeKey : String
  protocolVersion : String
  snapshotAtInit : Option Published
  initAt : ℤ
  lastUsedAt : ℤ

structure HubSessionStore where
  opts : SessionStoreOpts
  sessions : Map String HubSession := ∅
  perClient : Map String ℤ := ∅
  lru : Chain String := .empty
  lruIndex : Map String ℕ := ∅
  /-- A record of `markDeleteStarted`: the session outlives its entry in whoever holds it. -/
  deleteStarted : List String := []

def positiveOr (default given : ℤ) : ℤ := if given ≤ 0 then default else given

def newHubSessionStore (opts : SessionStoreOpts) : HubSessionStore where
  opts :=
    { maxPerClient := positiveOr defaultMaxSessionsPerClient opts.maxPerClient
      maxGlobal := positiveOr defaultMaxSessionsGlobal opts.maxGlobal
      idleTimeout := positiveOr defaultSessionIdleTimeout opts.idleTimeout
      sweepInterval := positiveOr defaultSessionSweepInterval opts.sweepInterval }

theorem positiveOr_pos {default : ℤ} (positive : 0 < default) (given : ℤ) :
    0 < positiveOr default given := by
  unfold positiveOr
  split_ifs with h
  · exact positive
  · omega

namespace HubSessionStore

def deleteLocked (s : HubSessionStore) (id : String) : Bool × HubSessionStore :=
  match s.sessions.lookup id with
  | none => (false, s)
  | some sess =>
    let t : HubSessionStore :=
      { s with
        sessions := s.sessions.erase id
        perClient := decrement s.perClient sess.scopeKey
        deleteStarted := s.deleteStarted ++ [id] }
    match s.lruIndex.lookup id with
    | none => (true, t)
    | some el => (true, { t with lru := s.lru.remove el, lruIndex := s.lruIndex.erase id })

def delete (s : HubSessionStore) (id : String) : Bool × HubSessionStore := s.deleteLocked id

def evictFrom (s : HubSessionStore) (load : String → ℤ) :
    List (Element String) → Bool × HubSessionStore
  | [] => (false, s)
  | e :: prev =>
    match s.sessions.lookup e.value with
    | none => evictFrom s load prev
    | some _ =>
      if load e.value = 0 then (true, (s.deleteLocked e.value).2) else evictFrom s load prev

def evictIdleLRULocked (s : HubSessionStore) (load : String → ℤ) : Bool × HubSessionStore :=
  s.evictFrom load s.lru.elements.reverse

def sweepCandidates (s : HubSessionStore) (cutoff : ℤ) (order : List String)
    (load : String → ℤ) : List String :=
  order.filter (fun id =>
    match s.sessions.lookup id with
    | none => false
    | some sess => load id = 0 ∧ sess.lastUsedAt < cutoff)

/-- A call can be registered between the scan and the deletion: `reload` is what the second check
reads. -/
def sweepOnce (s : HubSessionStore) (now : ℤ) (order : List String) (load reload : String → ℤ) :
    HubSessionStore :=
  (s.sweepCandidates (now - s.opts.idleTimeout) order load).foldl
    (fun t id => if reload id = 0 then (t.deleteLocked id).2 else t) s

end HubSessionStore

inductive CreateError
  | perClientCap (cap : ℤ)
  | generateSessionID (err : String)
  | globalCap (cap : ℤ)

namespace HubSessionStore

def register (s : HubSessionStore) (sess : HubSession) : HubSessionStore :=
  let pushed := s.lru.pushFront sess.clientSessionID
  { s with
    sessions := s.sessions.insert sess.clientSessionID sess
    perClient := increment s.perClient sess.scopeKey
    lru := pushed.1
    lruIndex := s.lruIndex.insert sess.clientSessionID pushed.2 }

def create (s : HubSessionStore) (client protoVer : String) (snap : Option Published)
    (generated : Except String String) (now : ℤ) (load : String → ℤ) :
    Except CreateError HubSession × HubSessionStore :=
  if (s.perClient.lookup client).getD 0 ≥ s.opts.maxPerClient then
    (.error (.perClientCap s.opts.maxPerClient), s)
  else
    match generated with
    | .error err => (.error (.generateSessionID err), s)
    | .ok id =>
      let sess : HubSession := ⟨id, client, protoVer, snap, now, now⟩
      if (size s.sessions : ℤ) ≥ s.opts.maxGlobal then
        match s.evictIdleLRULocked load with
        | (false, t) => (.error (.globalCap s.opts.maxGlobal), t)
        | (true, t) => (.ok sess, t.register sess)
      else (.ok sess, s.register sess)

def get (s : HubSessionStore) (id : String) : Option HubSession := s.sessions.lookup id

def recordActivity (s : HubSessionStore) (id : String) (sess : HubSession) (now : ℤ) :
    HubSession × HubSessionStore :=
  let touched := { sess with lastUsedAt := now }
  let t : HubSessionStore := { s with sessions := s.sessions.insert id touched }
  match s.lruIndex.lookup id with
  | none => (touched, t)
  | some el => (touched, { t with lru := s.lru.moveToFront el })

def getAndTouch (s : HubSessionStore) (id : String) (now : ℤ) :
    Option HubSession × HubSessionStore :=
  match s.sessions.lookup id with
  | none => (none, s)
  | some sess => (some (s.recordActivity id sess now).1, (s.recordActivity id sess now).2)

def touch (s : HubSessionStore) (id : String) (now : ℤ) : Bool × HubSessionStore :=
  match s.sessions.lookup id with
  | none => (false, s)
  | some sess => (true, (s.recordActivity id sess now).2)

end HubSessionStore

inductive Op
  | create (client protoVer : String) (snap : Option Published) (generated : Except String String)
      (now : ℤ) (load : String → ℤ)
  | get (id : String)
  | getAndTouch (id : String) (now : ℤ)
  | touch (id : String) (now : ℤ)
  | delete (id : String)
  | sweepOnce (now : ℤ) (order : List String) (load reload : String → ℤ)

/-- The store, with the number of the operations so far and, for each id, the number of the last
one that used it. -/
structure World where
  store : HubSessionStore
  clock : ℕ := 0
  used : String → ℕ := fun _ => 0

namespace World

def next (w : World) (store : HubSessionStore) : World :=
  { w with store := store, clock := w.clock + 1 }

def use (w : World) (id : String) (store : HubSessionStore) : World where
  store := store
  clock := w.clock + 1
  used := Function.update w.used id (w.clock + 1)

end World

def step (w : World) : Op → Option World
  | .create client protoVer snap generated now load =>
    match w.store.create client protoVer snap generated now load with
    | (.ok sess, t) => some (w.use sess.clientSessionID t)
    | (.error _, t) => some (w.next t)
  | .get _ => some (w.next w.store)
  | .getAndTouch id now =>
    match w.store.getAndTouch id now with
    | (some _, t) => some (w.use id t)
    | (none, t) => some (w.next t)
  | .touch id now =>
    match w.store.touch id now with
    | (true, t) => some (w.use id t)
    | (false, t) => some (w.next t)
  | .delete id => some (w.next (w.store.delete id).2)
  | .sweepOnce now order load reload =>
    -- the iteration visits every key of the map once, in any order
    if order.Perm w.store.sessions.keys then
      some (w.next (w.store.sweepOnce now order load reload))
    else none

def Opened (opts : SessionStoreOpts) (w : World) : Prop := w = { store := newHubSessionStore opts }

/-- The id that is generated is not the id of a live session. -/
def FreshID (w : World) : Op → Prop
  | .create _ _ _ (.ok id) _ _ => w.store.sessions.lookup id = none
  | _ => True

end McpLocalHub.Hub.SessionStore
