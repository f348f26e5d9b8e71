/- Module: Hub/CallRules
   source: internal/api/hub_mcp_aggregator.go
   digest: What one step of a tools/call can do, as rules that the proofs about the session split
   on. -/

import McpLocalHub.Hub.Aggregator

set_option autoImplicit false

namespace McpLocalHub.Hub.CallRules

open Foundation.Maps Foundation.RawJSON RequestId ToolsList Aggregator

inductive CallRule (json : JSON) (sess : Session) (s : State) (id : ℕ) : Option Call → State → Call → Prop
  | start {reqID : Text} {params : Except String String} (ready : s.initialized = true) :
      CallRule json sess s id none s ⟨reqID, routeCall s.routeMap params⟩
  | load {reqID : Text} {ref : ToolRef} :
      CallRule json sess s id (some ⟨reqID, .routed ref⟩) s ⟨reqID, revalidate sess s.current ref⟩
  | unbound {reqID : Text} {ref : ToolRef} {moved : Bool} {seen : Option Published} :
      CallRule json sess s id (some ⟨reqID, .checked ref moved seen⟩) s
        ⟨reqID, .ended (noSession moved)⟩
  | bind {reqID : Text} {ref : ToolRef} {moved : Bool} {seen : Option Published} {state : InitState}
      (found : s.cache.daemonInitState sess ref.daemonRef = some state) :
      CallRule json sess s id (some ⟨reqID, .checked ref moved seen⟩)
        { s with resolutions := s.resolutions ++ [⟨id, ref, seen⟩] }
        ⟨reqID, .resolved ⟨ref, state.sessionID, state.protocolVersion⟩⟩
  | unrestarted {reqID : Text} {target : Target}
      (never : s.staleDaemonPorts target.ref.port = none) :
      CallRule json sess s id (some ⟨reqID, .resolved target⟩)
        (s.recordRefresh ⟨target, target.daemonSID, target.ref.port, .neverRestarted⟩)
        (readyCall reqID target target.own target.ref.port)
  | restarted {reqID : Text} {target : Target} :
      CallRule json sess s id (some ⟨reqID, .resolved target⟩) s ⟨reqID, .resolvePort target 0⟩
  | resolvePort {reqID : Text} {target : Target} {attempt : ℕ} :
      CallRule json sess s id (some ⟨reqID, .resolvePort target attempt⟩) s
        ⟨reqID, .readCache target attempt
          (currentDaemonPort (pointee s.current) sess.scopeKey target.ref)⟩
  | readCache {reqID : Text} {target : Target} {attempt port : ℕ} :
      CallRule json sess s id (some ⟨reqID, .readCache target attempt port⟩) s
        ⟨reqID, .readGen target attempt port
          (s.cache.daemonInitState sess ⟨target.ref.server, target.ref.daemon, port⟩)
          ((s.cache.initSuccessGen.lookup ⟨target.ref.server, target.ref.daemon, port⟩).getD 0)⟩
  | reuse {reqID : Text} {target : Target} {attempt port stampGen : ℕ} {state : InitState}
      (fresh : s.generation port ≤ stampGen) :
      CallRule json sess s id (some ⟨reqID, .readGen target attempt port (some state) stampGen⟩)
        (s.recordRefresh ⟨target, state.sessionID, port, .reused (s.generation port)⟩)
        (readyCall reqID target state port)
  | exhausted {reqID : Text} {target : Target} {attempt port stampGen : ℕ} {state : InitState} :
      CallRule json sess s id (some ⟨reqID, .readGen target attempt port (some state) stampGen⟩)
        (s.recordRefresh ⟨target, state.sessionID, port, .exhausted⟩)
        (readyCall reqID target state port)
  | exhaustedWithoutSession {reqID : Text} {target : Target} {attempt port stampGen : ℕ} :
      CallRule json sess s id (some ⟨reqID, .readGen target attempt port none stampGen⟩)
        (s.recordRefresh ⟨target, target.daemonSID, target.ref.port, .exhaustedWithoutSession⟩)
        (readyCall reqID target target.own target.ref.port)
  | stale {reqID : Text} {target : Target} {attempt port stampGen : ℕ} {cached : Option InitState} :
      CallRule json sess s id (some ⟨reqID, .readGen target attempt port cached stampGen⟩) s
        ⟨reqID, .reinit target (.refresh attempt)⟩
  | reinit {reqID : Text} {target : Target} {purpose : Purpose} :
      CallRule json sess s id (some ⟨reqID, .reinit target purpose⟩) s
        ⟨reqID, .join target purpose ⟨target.ref.server, target.ref.daemon,
          currentDaemonPort (pointee s.current) sess.scopeKey target.ref⟩⟩
  | follow {reqID : Text} {target : Target} {purpose : Purpose} {ref : DaemonRef} {flight : ℕ} :
      CallRule json sess s id (some ⟨reqID, .join target purpose ref⟩) s
        ⟨reqID, .waiting target purpose ref.port flight⟩
  | lead {reqID : Text} {target : Target} {purpose : Purpose} {ref : DaemonRef} {fresh : ℕ}
      (unused : s.flights fresh = none) :
      CallRule json sess s id (some ⟨reqID, .join target purpose ref⟩)
        ({ s with reinitGroup := s.reinitGroup.insert (groupKey ref) fresh }.setFlight fresh
          ⟨ref, .begun⟩)
        ⟨reqID, .waiting target purpose ref.port fresh⟩
  | refreshAgain {reqID : Text} {target : Target} {attempt port flight : ℕ} :
      CallRule json sess s id (some ⟨reqID, .waiting target (.refresh attempt) port flight⟩) s
        ⟨reqID, .resolvePort target (attempt + 1)⟩
  | refreshFailed {reqID : Text} {target : Target} {attempt port flight : ℕ} :
      CallRule json sess s id (some ⟨reqID, .waiting target (.refresh attempt) port flight⟩)
        (s.recordRefresh ⟨target, target.daemonSID, target.ref.port, .reinitFailed⟩)
        (readyCall reqID target target.own target.ref.port)
  | healReady {reqID : Text} {target : Target} {key : RequestIDKey} {err : String}
      {port flight : ℕ} {state : InitState} :
      CallRule json sess s id (some ⟨reqID, .waiting target (.heal key err) port flight⟩) s
        ⟨reqID, .healed ⟨{ target.ref with port := port }, state.sessionID, state.protocolVersion⟩
          key err⟩
  | healFailed {reqID : Text} {target : Target} {key : RequestIDKey} {err : String}
      {port flight : ℕ} :
      CallRule json sess s id (some ⟨reqID, .waiting target (.heal key err) port flight⟩) s
        ⟨reqID, .finishing key (callFailed err)⟩
  | refuse {reqID : Text} {target : Target} {outcome : Outcome} :
      CallRule json sess s id (some ⟨reqID, .ready target⟩) s ⟨reqID, .ended outcome⟩
  | enter {reqID daemonReqID : Text} {target : Target} {key : RequestIDKey}
      (named : newRequestIDKey json reqID = .ok key)
      (absent : s.inFlight.requests.lookup key = none) :
      CallRule json sess s id (some ⟨reqID, .ready target⟩)
        { s with inFlight :=
          ⟨s.inFlight.requests.insert key (target.entry daemonReqID), s.inFlight.count + 1⟩ }
        ⟨reqID, .posting target key daemonReqID⟩
  | heal {reqID daemonReqID : Text} {target : Target} {key : RequestIDKey} {err : String} :
      CallRule json sess s id (some ⟨reqID, .posting target key daemonReqID⟩) s
        ⟨reqID, .reinit target (.heal key err)⟩
  | posted {reqID daemonReqID : Text} {target : Target} {key : RequestIDKey} {outcome : Outcome} :
      CallRule json sess s id (some ⟨reqID, .posting target key daemonReqID⟩) s
        ⟨reqID, .finishing key outcome⟩
  | unprepared {reqID : Text} {target : Target} {key : RequestIDKey} {err : String} :
      CallRule json sess s id (some ⟨reqID, .healed target key err⟩) s
        ⟨reqID, .finishing key (callFailed err)⟩
  | removeRow {reqID retryReqID : Text} {target : Target} {key : RequestIDKey} {err : String} :
      CallRule json sess s id (some ⟨reqID, .healed target key err⟩)
        { s with inFlight := s.inFlight.removeInFlight key }
        ⟨reqID, .removed target key err retryReqID⟩
  | reinsertRow {reqID retryReqID : Text} {target : Target} {key : RequestIDKey} {err : String} :
      CallRule json sess s id (some ⟨reqID, .removed target key err retryReqID⟩)
        { s with inFlight := (s.inFlight.insertInFlight key (target.entry retryReqID)).1 }
        ⟨reqID, .retrying target key err retryReqID⟩
  | retried {reqID retryReqID : Text} {target : Target} {key : RequestIDKey} {err : String}
      {outcome : Outcome} :
      CallRule json sess s id (some ⟨reqID, .retrying target key err retryReqID⟩) s
        ⟨reqID, .finishing key outcome⟩
  | finish {reqID : Text} {key : RequestIDKey} {outcome : Outcome} :
      CallRule json sess s id (some ⟨reqID, .finishing key outcome⟩)
        { s with inFlight := s.inFlight.removeInFlight key } ⟨reqID, .ended outcome⟩

def Ruled (json : JSON) (sess : Session) (s : State) (action : Action) (t : State) : Prop :=
  ∃ id base new, CallRule json sess s id (s.calls.lookup id) base new ∧ t = base.setCall id new ∧
    ∀ reqID target, s.calls.lookup id = some ⟨reqID, .ready target⟩ →
      ∃ prepared, action = .dispatch id prepared

section Inversion

variable {json : JSON} {sess : Session} {s t : State} {action : Action} {id : ℕ} {reqID : Text}
  {target : Target}

private theorem ruled_of {call new : Call} {base : State} (found : s.calls.lookup id = some call)
    (rule : CallRule json sess s id (some call) base new)
    (busy : ∀ reqID target, call ≠ ⟨reqID, .ready target⟩) :
    Ruled json sess s action (base.setCall id new) := by
  refine ⟨id, base, new, found ▸ rule, rfl, ?_⟩
  intro reqID target ready
  rw [found, Option.some.injEq] at ready
  exact absurd ready (busy reqID target)

private theorem checkFresh_ruled {attempt port stampGen : ℕ} {cached : Option InitState}
    (found : s.calls.lookup id = some ⟨reqID, .readGen target attempt port cached stampGen⟩) :
    Ruled json sess s action
      (s.checkFresh id reqID target attempt port cached stampGen (s.generation port)) := by
  unfold State.checkFresh
  cases cached with
  | some state =>
    simp only
    split_ifs with fresh spent
    · exact ruled_of found (.reuse fresh) nofun
    · exact ruled_of found .exhausted nofun
    · exact ruled_of found .stale nofun
  | none =>
    simp only
    split_ifs with spent
    · exact ruled_of found .exhaustedWithoutSession nofun
    · exact ruled_of found .stale nofun

private theorem joinFlight_ruled {purpose : Purpose} {ref : DaemonRef} {fresh : ℕ}
    (found : s.calls.lookup id = some ⟨reqID, .join target purpose ref⟩)
    (moved : s.joinFlight id ⟨reqID, .join target purpose ref⟩ target purpose ref fresh = some t) :
    Ruled json sess s action t := by
  unfold State.joinFlight at moved
  split at moved
  · cases moved
    exact ruled_of found .follow nofun
  · split_ifs at moved with unused
    cases moved
    exact ruled_of found (.lead (Option.isNone_iff_eq_none.mp unused)) nofun

private theorem reinitialized_ruled {purpose : Purpose} {port flight : ℕ}
    {result : Option InitState}
    (found : s.calls.lookup id = some ⟨reqID, .waiting target purpose port flight⟩) :
    Ruled json sess s action (s.reinitialized id reqID target purpose port result) := by
  cases purpose with
  | refresh attempt =>
    cases result with
    | some state => exact ruled_of found .refreshAgain nofun
    | none => exact ruled_of found .refreshFailed nofun
  | heal key err =>
    cases result with
    | some state => exact ruled_of found .healReady nofun
    | none => exact ruled_of found .healFailed nofun

private theorem enter_ruled {prepared : Except String Text}
    (found : s.calls.lookup id = some ⟨reqID, .ready target⟩) :
    Ruled json sess s (.dispatch id prepared) (s.enter json id reqID target prepared) := by
  have dispatched : ∀ reqID target, s.calls.lookup id = some ⟨reqID, .ready target⟩ →
      ∃ other, Action.dispatch id prepared = .dispatch id other := fun _ _ _ => ⟨prepared, rfl⟩
  have refused (outcome : Outcome) :
      Ruled json sess s (.dispatch id prepared) (s.setCall id ⟨reqID, .ended outcome⟩) :=
    ⟨id, s, _, found ▸ .refuse, rfl, dispatched⟩
  unfold State.enter
  split
  · exact refused _
  · next daemonReqID =>
    split
    · exact refused _
    · next key named =>
      unfold InFlight.insertInFlight
      cases row : s.inFlight.requests.lookup key with
      | some entry => exact refused _
      | none => exact ⟨id, _, _, found ▸ .enter named row, rfl, dispatched⟩

theorem stepCall_ruled (moved : stepCall json sess s action = some t) :
    Ruled json sess s action t := by
  cases action with
  | startCall id reqID params =>
    simp only [stepCall] at moved
    split_ifs at moved with free
    cases moved
    have absent : s.calls.lookup id = none := Option.isNone_iff_eq_none.mp free.2
    refine ⟨id, s, _, absent ▸ .start free.1, rfl, ?_⟩
    intro reqID target ready
    rw [absent] at ready
    cases ready
  | loadSnapshot id | resolvePort id | readCache id | reinit id | reinsertRow id | finish id =>
    simp only [stepCall] at moved
    split at moved
    · next found => cases moved; exact ruled_of found (by constructor) nofun
    · cases moved
  | bindSession id =>
    simp only [stepCall] at moved
    split at moved
    · next found =>
      split at moved
      · cases moved; exact ruled_of found .unbound nofun
      · next bound => cases moved; exact ruled_of found (.bind bound) nofun
    · cases moved
  | refresh id =>
    simp only [stepCall] at moved
    split at moved
    · next found =>
      split at moved
      · next never => cases moved; exact ruled_of found (.unrestarted never) nofun
      · cases moved; exact ruled_of found .restarted nofun
    · cases moved
  | readGen id =>
    simp only [stepCall] at moved
    split at moved
    · next found => cases moved; exact checkFresh_ruled found
    · cases moved
  | join id fresh =>
    simp only [stepCall] at moved
    split at moved
    · next found => exact joinFlight_ruled found moved
    · cases moved
  | await id =>
    simp only [stepCall] at moved
    split at moved
    · next found =>
      split at moved
      · cases moved; exact reinitialized_ruled found
      · cases moved
    · cases moved
  | giveUp id =>
    simp only [stepCall] at moved
    split at moved
    · next found => cases moved; exact reinitialized_ruled found
    · cases moved
  | dispatch id prepared =>
    simp only [stepCall] at moved
    split at moved
    · next found => cases moved; exact enter_ruled found
    · cases moved
  | posted id result =>
    simp only [stepCall] at moved
    split at moved
    · next found =>
      cases result with
      | answered body | failed err => cases moved; exact ruled_of found .posted nofun
      | retriable err => cases moved; exact ruled_of found .heal nofun
    · cases moved
  | removeRow id prepared =>
    simp only [stepCall] at moved
    split at moved
    · next found =>
      cases prepared with
      | error err => cases moved; exact ruled_of found .unprepared nofun
      | ok retryReqID => cases moved; exact ruled_of found .removeRow nofun
    · cases moved
  | retried id result =>
    simp only [stepCall] at moved
    split at moved
    · next found =>
      cases result with
      | answered body | failed err | retriable err =>
        cases moved; exact ruled_of found .retried nofun
    · cases moved
  | _ => cases moved

end Inversion

structure SameThreads (s t : State) : Prop where
  routeMap : t.routeMap = s.routeMap
  inFlight : t.inFlight = s.inFlight
  flights : t.flights = s.flights
  reinitGroup : t.reinitGroup = s.reinitGroup
  lists : t.lists = s.lists
  calls : t.calls = s.calls
  resolutions : t.resolutions = s.resolutions
  refreshes : t.refreshes = s.refreshes

variable {s t : State} {sess : Session} {action : Action} {id other : ℕ}

theorem SameThreads.trans {u : State} (first : SameThreads s t) (second : SameThreads t u) :
    SameThreads s u :=
  ⟨second.routeMap.trans first.routeMap, second.inFlight.trans first.inFlight,
    second.flights.trans first.flights, second.reinitGroup.trans first.reinitGroup,
    second.lists.trans first.lists, second.calls.trans first.calls,
    second.resolutions.trans first.resolutions, second.refreshes.trans first.refreshes⟩

theorem applyInitResults_keeps (results : List (DaemonRef × Except String (String × String)))
    (s : State) : SameThreads s (results.foldl applyInitResult s) ∧
      (results.foldl applyInitResult s).current = s.current ∧
      (results.foldl applyInitResult s).nextStamp = s.nextStamp := by
  induction results generalizing s with
  | nil => exact ⟨by constructor <;> rfl, rfl, rfl⟩
  | cons result rest ih =>
    have one : SameThreads s (applyInitResult s result) ∧
        (applyInitResult s result).current = s.current ∧
        (applyInitResult s result).nextStamp = s.nextStamp := by
      unfold applyInitResult
      split <;> exact ⟨by constructor <;> rfl, rfl, rfl⟩
    obtain ⟨threads, current, stamp⟩ := ih (applyInitResult s result)
    exact ⟨one.1.trans threads, current.trans one.2.1, stamp.trans one.2.2⟩

theorem stepSession_keeps (moved : stepSession sess s action = some t) : SameThreads s t ∧
    ((∃ p, t.current = some p ∧ p.stamp = s.nextStamp ∧ t.nextStamp = s.nextStamp + 1) ∨
      t.current = s.current ∧ t.nextStamp = s.nextStamp) := by
  cases action with
  | publish snap =>
    cases moved
    exact ⟨by constructor <;> rfl, .inl ⟨_, rfl, rfl, rfl⟩⟩
  | startDelete =>
    cases moved
    exact ⟨by constructor <;> rfl, .inr ⟨rfl, rfl⟩⟩
  | aggregateInitialize answers =>
    simp only [stepSession] at moved
    split_ifs at moved
    cases moved
    have here : SameThreads s { s with initialized := true } := by constructor <;> rfl
    obtain ⟨threads, pointer⟩ := applyInitResults_keeps (sess.intendedParticipants.zip answers) _
    exact ⟨here.trans threads, .inr pointer⟩
  | trackPort port | countRestart port =>
    simp only [stepSession] at moved
    split_ifs at moved <;> cases moved <;> exact ⟨by constructor <;> rfl, .inr ⟨rfl, rfl⟩⟩
  | _ => cases moved

theorem stepList_keeps (moved : stepList sess s action = some t) :
    ∃ lists routeMap, t = { s with lists := lists, routeMap := routeMap } := by
  cases action with
  | startList id =>
    simp only [stepList] at moved
    split_ifs at moved
    cases moved
    exact ⟨_, _, rfl⟩
  | captureList id =>
    simp only [stepList] at moved
    split at moved
    · split_ifs at moved <;> cases moved <;> exact ⟨_, _, rfl⟩
    · cases moved
  | filterList id ref =>
    simp only [stepList] at moved
    split at moved
    · split_ifs at moved
      cases moved
      exact ⟨_, _, rfl⟩
    · cases moved
  | countList id =>
    simp only [stepList] at moved
    split at moved <;> cases moved <;> exact ⟨_, _, rfl⟩
  | fanOut id answers | loadHidden id | publishRoutes id =>
    simp only [stepList] at moved
    split at moved
    · cases moved; exact ⟨_, _, rfl⟩
    · cases moved
  | _ => cases moved

inductive FlightRule (sess : Session) (s : State) : Flight → State → Flight → Prop
  | readGeneration {ref : DaemonRef} :
      FlightRule sess s ⟨ref, .begun⟩ s ⟨ref, .stamped (s.generation ref.port)⟩
  | dial {ref : DaemonRef} {flightGen : ℕ} :
      FlightRule sess s ⟨ref, .stamped flightGen⟩ { s with clock := s.clock + 1 }
        ⟨ref, .dialing flightGen s.clock⟩
  | refused {ref : DaemonRef} {flightGen began : ℕ} :
      FlightRule sess s ⟨ref, .dialing flightGen began⟩ s ⟨ref, .returned none⟩
  | minted {ref : DaemonRef} {flightGen began : ℕ} {sid negotiated : String} :
      FlightRule sess s ⟨ref, .dialing flightGen began⟩
        { s with handshakes := s.handshakes ++ [⟨ref, sid, began⟩] }
        ⟨ref, .minted flightGen sid negotiated⟩
  | uncached {ref : DaemonRef} {flightGen : ℕ} {sid negotiated : String} :
      FlightRule sess s ⟨ref, .minted flightGen sid negotiated⟩ s ⟨ref, .returned none⟩
  | cached {ref : DaemonRef} {flightGen : ℕ} {sid negotiated : String} {cache : Cache}
      {result : InitState}
      (stored : s.cache.cacheReinitResult ref sid (protocolOr sess.protocolVersion negotiated)
        flightGen = some cache) :
      FlightRule sess s ⟨ref, .minted flightGen sid negotiated⟩ { s with cache := cache }
        ⟨ref, .returned (some result)⟩
  | settle {ref : DaemonRef} {result : Option InitState} :
      FlightRule sess s ⟨ref, .returned result⟩
        { s with reinitGroup := s.reinitGroup.erase (groupKey ref) } ⟨ref, .settled result⟩

theorem FlightRule.ref {base : State} {old new : Flight}
    (rule : FlightRule sess s old base new) : new.ref = old.ref := by
  cases rule <;> rfl

theorem stepFlight_ruled (moved : stepFlight sess s action = some t) :
    ∃ id old base new, s.flights id = some old ∧ FlightRule sess s old base new ∧
      t = base.setFlight id new := by
  cases action with
  | readGeneration id | dial id | settle id =>
    simp only [stepFlight] at moved
    split at moved
    · next found => cases moved; exact ⟨id, _, _, _, found, by constructor, rfl⟩
    · cases moved
  | handshake id answer =>
    simp only [stepFlight] at moved
    split at moved
    · next found =>
      split at moved
      · cases moved; exact ⟨id, _, _, _, found, .refused, rfl⟩
      · cases moved; exact ⟨id, _, _, _, found, .minted, rfl⟩
    · cases moved
  | cacheResult id =>
    simp only [stepFlight] at moved
    split at moved
    · next found =>
      split at moved
      · cases moved; exact ⟨id, _, _, _, found, .uncached, rfl⟩
      · next stored => cases moved; exact ⟨id, _, _, _, found, .cached stored, rfl⟩
    · cases moved
  | _ => cases moved

theorem revalidate_cases (sess : Session) (current : Option Published) (ref : ToolRef) :
    revalidate sess current ref = .ended outOfScope ∨
      (revalidate sess current ref = .checked ref false current ∧
        (current.isSome = true → samePointer current sess.snapshotAtInit = true)) ∨
      ∃ live moved, liveDaemonBinding (pointee current) sess.scopeKey ref.daemonRef = some live ∧
        snapshotHidesTool (pointee current) sess.scopeKey ref = false ∧
        revalidate sess current ref = .checked { ref with port := live.port } moved current := by
  unfold revalidate
  by_cases republished : current.isSome = true ∧ samePointer current sess.snapshotAtInit = false
  · rw [if_pos republished]
    cases found : liveDaemonBinding (pointee current) sess.scopeKey ref.daemonRef with
    | none => exact .inl rfl
    | some live =>
      simp only
      by_cases hidden : snapshotHidesTool (pointee current) sess.scopeKey ref = true
      · exact .inl (if_pos hidden)
      · have visible : snapshotHidesTool (pointee current) sess.scopeKey ref = false := by
          simpa using hidden
        rw [if_neg hidden]
        by_cases stays : live.port = ref.port
        · exact .inr (.inr ⟨live, false, rfl, visible, by rw [if_pos stays, stays]⟩)
        · exact .inr (.inr ⟨live, true, rfl, visible, if_neg stays⟩)
  · rw [if_neg republished]
    refine .inr (.inl ⟨rfl, fun loaded => ?_⟩)
    by_contra other
    exact republished ⟨loaded, by simpa using other⟩

theorem lookup_setCall {new call : Call}
    (found : (s.setCall id new).calls.lookup other = some call) :
    other = id ∧ call = new ∨ other ≠ id ∧ s.calls.lookup other = some call :=
  lookup_insert_cases found

theorem lists_setList {new phase : ListPhase}
    (found : (s.setList id new).lists other = some phase) :
    other = id ∧ phase = new ∨ other ≠ id ∧ s.lists other = some phase :=
  update_cases found

theorem flights_setFlight {new flight : Flight}
    (found : (s.setFlight id new).flights other = some flight) :
    other = id ∧ flight = new ∨ other ≠ id ∧ s.flights other = some flight :=
  update_cases found

end McpLocalHub.Hub.CallRules
