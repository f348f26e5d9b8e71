/- Module: Hub/Aggregator
   source: internal/api/hub_mcp_session.go, internal/api/hub_mcp_aggregator.go
   digest: One hub session as a transition system, each operation cut at its locks and atomic
   reads. -/

import McpLocalHub.Foundation.Runs
import McpLocalHub.Hub.RequestId
import McpLocalHub.Hub.ToolsList

set_option autoImplicit false

namespace McpLocalHub.Hub.Aggregator

open Foundation.Maps Foundation.RawJSON RequestId ToolsList

/-- A published snapshot. The stamp is the identity of the pointer: each publication is a new one. -/
structure Published where
  stamp : ℕ
  snapshot : ResolverSnapshot

def pointee (p : Option Published) : Option ResolverSnapshot := p.map Published.snapshot

def samePointer (a b : Option Published) : Bool :=
  decide (a.map Published.stamp = b.map Published.stamp)

structure InitState where
  sessionID : String
  protocolVersion : String

structure Session where
  scopeKey : String
  protocolVersion : String
  snapshotAtInit : Option Published
  intendedParticipants : List DaemonRef

structure Cache where
  initSuccesses : Map DaemonRef String := ∅
  daemonProtoVer : Map DaemonRef String := ∅
  initSuccessGen : Map DaemonRef ℕ := ∅
  deleteStarted : Bool := false

def protocolOr (own negotiated : String) : String := if negotiated = "" then own else negotiated

def Cache.daemonInitState (sess : Session) (cache : Cache) (ref : DaemonRef) : Option InitState :=
  (cache.initSuccesses.lookup ref).map (fun sid =>
    ⟨sid, protocolOr sess.protocolVersion ((cache.daemonProtoVer.lookup ref).getD "")⟩)

def survives (ref cached : DaemonRef) : Bool :=
  !sameDaemonIdentity cached ref || decide (cached = ref)

def Cache.cacheReinitResult (cache : Cache) (ref : DaemonRef) (sid proto : String)
    (flightGen : ℕ) : Option Cache :=
  if cache.deleteStarted then none
  else
    some { cache with
      initSuccesses := (keep (survives ref) cache.initSuccesses).insert ref sid
      -- The stamps go with the sessions: an entry is dropped with its session.
      initSuccessGen := (keep (fun cached => survives ref cached ||
        (cache.initSuccesses.lookup cached).isNone) cache.initSuccessGen).insert ref flightGen
      daemonProtoVer := (keep (survives ref) cache.daemonProtoVer).insert ref proto }

structure InflightEntry where
  daemonRef : DaemonRef
  daemonSessionID : String
  daemonProtocol : String
  daemonRequestID : Text
  deriving DecidableEq

structure InFlight where
  requests : Map RequestIDKey InflightEntry := ∅
  count : ℤ := 0

def InFlight.insertInFlight (rows : InFlight) (key : RequestIDKey) (entry : InflightEntry) :
    InFlight × Bool :=
  match rows.requests.lookup key with
  | some _ => (rows, false)
  | none => (⟨rows.requests.insert key entry, rows.count + 1⟩, true)

def InFlight.removeInFlight (rows : InFlight) (key : RequestIDKey) : InFlight :=
  match rows.requests.lookup key with
  | some _ => ⟨rows.requests.erase key, rows.count - 1⟩
  | none => rows

def currentDaemonPort (snap : Option ResolverSnapshot) (scopeKey : String) (ref : ToolRef) : ℕ :=
  match liveDaemonBinding snap scopeKey ref.daemonRef with
  | some live => live.port
  | none => ref.port

def groupKey (ref : DaemonRef) : String :=
  ref.server ++ "\x00" ++ ref.daemon ++ "\x00" ++ toString ref.port

def maxProactiveReinitAttempts : ℕ := 3

/-- A re-initialization in `reinitGroup`, cut at the reads and at the caching. `none` is a failure.
-/
inductive FlightPhase
  | begun
  | stamped (flightGen : ℕ)
  | dialing (flightGen began : ℕ)
  | minted (flightGen : ℕ) (sid negotiated : String)
  | returned (result : Option InitState)
  | settled (result : Option InitState)

structure Flight where
  ref : DaemonRef
  phase : FlightPhase

structure Listing where
  current : Option Published
  successes : Map DaemonRef InitState
  initFailures : List DaemonFailure

inductive ListPhase
  | loaded (current : Option Published)
  /-- The loop of `filterToolsListSuccessesByLiveSnapshot`; the order of the range is free. -/
  | filtering (run : Listing) (remaining : List DaemonRef) (filtered : Map DaemonRef InitState)
  | counting (run : Listing) (remaining : List DaemonRef) (live : ℕ)
  | fanning (run : Listing) (allowEmptyKnown : Bool)
  | listed (run : Listing) (allowEmptyKnown : Bool) (results : List ListResult)
  | assembling (run : Listing) (allowEmptyKnown : Bool) (results : List ListResult)
      (hiddenSnapshot : Option Published)
  | finished (response : Response)

structure Target where
  ref : ToolRef
  daemonSID : String
  daemonProto : String

/-- What a tools/call ends with: an error envelope, the daemon's answer under the caller's id, or
the failure to rewrite it. -/
inductive Outcome
  | error (code : ℤ) (message : String)
  | response (body : Fields)
  | failure (message : String)

inductive Purpose
  | refresh (attempt : ℕ)
  | heal (key : RequestIDKey) (err : String)

inductive CallPhase
  | routed (ref : ToolRef)
  | checked (ref : ToolRef) (moved : Bool) (seen : Option Published)
  | resolved (target : Target)
  | resolvePort (target : Target) (attempt : ℕ)
  | readCache (target : Target) (attempt port : ℕ)
  | readGen (target : Target) (attempt port : ℕ) (cached : Option InitState) (stampGen : ℕ)
  | reinit (target : Target) (purpose : Purpose)
  | join (target : Target) (purpose : Purpose) (ref : DaemonRef)
  | waiting (target : Target) (purpose : Purpose) (port flight : ℕ)
  | ready (target : Target)
  | posting (target : Target) (key : RequestIDKey) (daemonReqID : Text)
  | healed (target : Target) (key : RequestIDKey) (err : String)
  | removed (target : Target) (key : RequestIDKey) (err : String) (retryReqID : Text)
  | retrying (target : Target) (key : RequestIDKey) (err : String) (retryReqID : Text)
  | finishing (key : RequestIDKey) (outcome : Outcome)
  | ended (outcome : Outcome)

structure Call where
  clientReqID : Text
  phase : CallPhase

structure Handshake where
  ref : DaemonRef
  sid : String
  began : ℕ

inductive Exit
  | neverRestarted
  | reused (curGen : ℕ)
  | exhausted
  | exhaustedWithoutSession
  | reinitFailed
  deriving DecidableEq

structure Refresh where
  caller : Target
  daemonSID : String
  port : ℕ
  exit : Exit

/-- A route that `resolveToolsCallRoute` returned to a call, and the snapshot that it loaded. -/
structure Resolution where
  call : ℕ
  ref : ToolRef
  seen : Option Published

/-- The session with what surrounds it. The last five fields are records of the run: nothing reads
them. -/
structure State where
  current : Option Published
  nextStamp : ℕ
  initialized : Bool := false
  initFailures : List DaemonFailure := []
  cache : Cache := {}
  staleDaemonPorts : ℕ → Option ℕ := fun _ => none
  marking : List ℕ := []
  routeMap : Option (Map String ToolRef) := none
  inFlight : InFlight := {}
  flights : ℕ → Option Flight := fun _ => none
  reinitGroup : Map String ℕ := ∅
  lists : ℕ → Option ListPhase := fun _ => none
  calls : Map ℕ Call := ∅
  clock : ℕ := 0
  restarts : ℕ → List ℕ := fun _ => []
  handshakes : List Handshake := []
  resolutions : List Resolution := []
  refreshes : List Refresh := []

def State.setFlight (s : State) (id : ℕ) (flight : Flight) : State :=
  { s with flights := Function.update s.flights id (some flight) }

def State.setList (s : State) (id : ℕ) (phase : ListPhase) : State :=
  { s with lists := Function.update s.lists id (some phase) }

def State.setCall (s : State) (id : ℕ) (call : Call) : State :=
  { s with calls := s.calls.insert id call }

def State.generation (s : State) (port : ℕ) : ℕ := (s.staleDaemonPorts port).getD 0

def State.tracksDaemonPort (sess : Session) (s : State) (port : ℕ) : Bool :=
  decide (port ≠ 0) &&
    ((s.routeMap.getD ∅).entries.any (fun route => route.2.port = port) ||
      s.cache.initSuccesses.keys.any (fun ref => ref.port = port) ||
      (scopeBindings (pointee sess.snapshotAtInit) sess.scopeKey).any (fun ref => ref.port = port))

/-- What posting a tools/call came to; a retriable failure is one where the request never left. -/
inductive Posted
  | answered (body : Line)
  | retriable (err : String)
  | failed (err : String)

inductive Action
  | publish (snap : ResolverSnapshot)
  | aggregateInitialize (answers : List (Except String (String × String)))
  | trackPort (port : ℕ)
  | countRestart (port : ℕ)
  | startDelete
  | startList (id : ℕ)
  | captureList (id : ℕ)
  | filterList (id : ℕ) (ref : DaemonRef)
  | countList (id : ℕ)
  | fanOut (id : ℕ) (answers : DaemonRef → Except String (List Line))
  | loadHidden (id : ℕ)
  | publishRoutes (id : ℕ)
  | readGeneration (flight : ℕ)
  | dial (flight : ℕ)
  | handshake (flight : ℕ) (answer : Except String (String × String))
  | cacheResult (flight : ℕ)
  | settle (flight : ℕ)
  | startCall (id : ℕ) (clientReqID : Text) (params : Except String String)
  | loadSnapshot (id : ℕ)
  | bindSession (id : ℕ)
  | refresh (id : ℕ)
  | resolvePort (id : ℕ)
  | readCache (id : ℕ)
  | readGen (id : ℕ)
  | reinit (id : ℕ)
  | join (id flight : ℕ)
  | await (id : ℕ)
  | giveUp (id : ℕ)
  | dispatch (id : ℕ) (prepared : Except String Text)
  | posted (id : ℕ) (result : Posted)
  | removeRow (id : ℕ) (prepared : Except String Text)
  | reinsertRow (id : ℕ)
  | retried (id : ℕ) (result : Posted)
  | finish (id : ℕ)

/-- `AggregateInitialize` on the results of the fan-out, in the order of the participants. -/
def applyInitResult (s : State) (result : DaemonRef × Except String (String × String)) : State :=
  match result.2 with
  | .error err =>
    { s with initFailures := s.initFailures ++
        [⟨result.1.server, result.1.daemon, .atInitialize, [.plain err]⟩] }
  | .ok (sid, negotiated) =>
    { s with
      cache := { s.cache with
        initSuccesses := s.cache.initSuccesses.insert result.1 sid
        daemonProtoVer := s.cache.daemonProtoVer.insert result.1 negotiated }
      handshakes := s.handshakes ++ [⟨result.1, sid, 0⟩] }

def stepSession (sess : Session) (s : State) : Action → Option State
  | .publish snap => some { s with current := some ⟨s.nextStamp, snap⟩, nextStamp := s.nextStamp + 1 }
  | .aggregateInitialize answers =>
    if s.initialized = false ∧ answers.length = sess.intendedParticipants.length then
      some ((sess.intendedParticipants.zip answers).foldl applyInitResult { s with initialized := true })
    else none
  -- `markStalePort` looks whether the port is tracked, and counts in a later critical section.
  | .trackPort port =>
    if s.tracksDaemonPort sess port then some { s with marking := port :: s.marking } else some s
  | .countRestart port =>
    if port ∈ s.marking then
      some { s with
        marking := s.marking.erase port
        staleDaemonPorts := Function.update s.staleDaemonPorts port (some (s.generation port + 1))
        restarts := Function.update s.restarts port (s.restarts port ++ [s.clock])
        clock := s.clock + 1 }
    else none
  | .startDelete => some { s with cache := { s.cache with deleteStarted := true } }
  | _ => none

def filterSuccess (sess : Session) (cache : Cache) (run : Listing) (ref : DaemonRef)
    (filtered : Map DaemonRef InitState) : Map DaemonRef InitState :=
  match run.successes.lookup ref, liveDaemonBinding (pointee run.current) sess.scopeKey ref with
  | some state, some live =>
    if live.port = ref.port then filtered.insert live state
    else
      match cache.daemonInitState sess live with
      | some fresh => filtered.insert live fresh
      | none => filtered
  | _, _ => filtered

def initFailureDaemonStillBound (snap : Option ResolverSnapshot) (scopeKey : String)
    (intended : List DaemonRef) (failure : DaemonFailure) : Bool :=
  intended.any (fun ref =>
    decide (ref.server = failure.server ∧ ref.daemon = failure.daemon) &&
      match liveDaemonBinding snap scopeKey ref with
      | some live => decide (live.port = ref.port)
      | none => false)

def countParticipant (sess : Session) (cache : Cache) (run : Listing) (ref : DaemonRef) : ℕ :=
  match liveDaemonBinding (pointee run.current) sess.scopeKey ref with
  | none => 0
  | some live =>
    if live.port = ref.port then 1
    else if (cache.daemonInitState sess live).isSome then 1 else 0

def captured (sess : Session) (cache : Cache) : Map DaemonRef InitState :=
  cache.initSuccesses.keys.foldl (fun successes ref =>
    match cache.daemonInitState sess ref with
    | some state => successes.insert ref state
    | none => successes) ∅

def stepList (sess : Session) (s : State) : Action → Option State
  | .startList id =>
    if s.initialized = true ∧ (s.lists id).isNone = true then some (s.setList id (.loaded s.current))
    else none
  | .captureList id =>
    match s.lists id with
    | some (.loaded current) =>
      let run : Listing := ⟨current, captured sess s.cache, s.initFailures⟩
      if sess.snapshotAtInit.isSome = true ∧ current.isSome = true ∧
          samePointer current sess.snapshotAtInit = false then
        some (s.setList id (.filtering run run.successes.keys ∅))
      else some (s.setList id (.fanning run false))
    | _ => none
  | .filterList id ref =>
    match s.lists id with
    | some (.filtering run remaining filtered) =>
      if ref ∈ remaining then
        some (s.setList id (.filtering run (remaining.erase ref)
          (filterSuccess sess s.cache run ref filtered)))
      else none
    | _ => none
  | .countList id =>
    match s.lists id with
    | some (.filtering run [] filtered) =>
      let bound := initFailureDaemonStillBound (pointee run.current) sess.scopeKey
        sess.intendedParticipants
      some (s.setList id (.counting ⟨run.current, filtered, run.initFailures.filter bound⟩
        sess.intendedParticipants 0))
    | some (.counting run (ref :: rest) live) =>
      some (s.setList id (.counting run rest (live + countParticipant sess s.cache run ref)))
    | some (.counting run [] live) =>
      some (s.setList id (.fanning run
        (isGroupScope sess.scopeKey && decide (live = 0) && run.successes.keys.isEmpty &&
          run.initFailures.isEmpty && snapshotKnowsScope (pointee run.current) sess.scopeKey)))
    | _ => none
  | .fanOut id answers =>
    match s.lists id with
    | some (.fanning run allowEmptyKnown) =>
      let results := run.successes.keys.map (fun ref =>
        (⟨ref, (answers ref).map (nameSpaceTools ref)⟩ : ListResult))
      some (s.setList id (.listed run allowEmptyKnown results))
    | _ => none
  | .loadHidden id =>
    match s.lists id with
    | some (.listed run allowEmptyKnown results) =>
      some (s.setList id (.assembling run allowEmptyKnown results (s.current.or run.current)))
    | _ => none
  | .publishRoutes id =>
    match s.lists id with
    | some (.assembling run allowEmptyKnown results hiddenSnapshot) =>
      let hiddenSet := buildHiddenToolSet
        (snapshotHiddenToolsForScope (pointee hiddenSnapshot) sess.scopeKey)
      let (response, routes) := assembleToolsListResponse hiddenSet results run.initFailures
        sess.intendedParticipants sess.scopeKey allowEmptyKnown (pointee hiddenSnapshot)
      some ({ s with routeMap := routes.or s.routeMap }.setList id (.finished response))
    | _ => none
  | _ => none

def stepFlight (sess : Session) (s : State) : Action → Option State
  | .readGeneration id =>
    match s.flights id with
    | some ⟨ref, .begun⟩ => some (s.setFlight id ⟨ref, .stamped (s.generation ref.port)⟩)
    | _ => none
  | .dial id =>
    match s.flights id with
    | some ⟨ref, .stamped flightGen⟩ =>
      some ({ s with clock := s.clock + 1 }.setFlight id ⟨ref, .dialing flightGen s.clock⟩)
    | _ => none
  | .handshake id answer =>
    match s.flights id with
    | some ⟨ref, .dialing flightGen began⟩ =>
      match answer with
      | .error _ => some (s.setFlight id ⟨ref, .returned none⟩)
      | .ok (sid, negotiated) =>
        let minted : Handshake := ⟨ref, sid, began⟩
        some ({ s with handshakes := s.handshakes ++ [minted] }.setFlight id
          ⟨ref, .minted flightGen sid negotiated⟩)
    | _ => none
  | .cacheResult id =>
    match s.flights id with
    | some ⟨ref, .minted flightGen sid negotiated⟩ =>
      let proto := protocolOr sess.protocolVersion negotiated
      match s.cache.cacheReinitResult ref sid proto flightGen with
      | none => some (s.setFlight id ⟨ref, .returned none⟩)
      | some cache =>
        some ({ s with cache := cache }.setFlight id ⟨ref, .returned (some ⟨sid, proto⟩)⟩)
    | _ => none
  | .settle id =>
    match s.flights id with
    | some ⟨ref, .returned result⟩ =>
      some ({ s with reinitGroup := s.reinitGroup.erase (groupKey ref) }.setFlight id
        ⟨ref, .settled result⟩)
    | _ => none
  | _ => none

def outOfScope : Outcome := .error (-32601) "tool moved out of scope; reinitialize session"

def routeCall (routeMap : Option (Map String ToolRef)) (params : Except String String) : CallPhase :=
  match params with
  | .error err => .ended (.error (-32602) ("Invalid params: " ++ err))
  | .ok name =>
    if name = "" then .ended (.error (-32602) "Invalid params: missing name")
    else
      match routeMap.bind (fun routes => routes.lookup name) with
      | none => .ended (.error (-32601) ("Method not found: " ++ name))
      | some ref => .routed ref

def revalidate (sess : Session) (current : Option Published) (ref : ToolRef) : CallPhase :=
  if current.isSome = true ∧ samePointer current sess.snapshotAtInit = false then
    match liveDaemonBinding (pointee current) sess.scopeKey ref.daemonRef with
    | none => .ended outOfScope
    | some live =>
      if snapshotHidesTool (pointee current) sess.scopeKey ref then .ended outOfScope
      else if live.port = ref.port then .checked ref false current
      else .checked { ref with port := live.port } true current
  else .checked ref false current

def noSession (moved : Bool) : Outcome :=
  if moved then outOfScope
  else .error (-32603) "Internal error: no daemon session id for target"

def rewriteResponseID (clientReqID : Text) (body : Line) : Outcome :=
  match body with
  | .malformed => .failure "daemon response body is not a JSON object"
  | .object fields => .response (setMember "id" (.other (String.ofList clientReqID)) fields)

def callFailed (err : String) : Outcome := .error (-32000) ("tools/call failed: " ++ err)

def Target.entry (target : Target) (daemonReqID : Text) : InflightEntry :=
  ⟨target.ref.daemonRef, target.daemonSID, target.daemonProto, daemonReqID⟩

def readyCall (clientReqID : Text) (caller : Target) (state : InitState) (port : ℕ) : Call :=
  ⟨clientReqID, .ready ⟨{ caller.ref with port := port }, state.sessionID, state.protocolVersion⟩⟩

def State.recordRefresh (s : State) (refresh : Refresh) : State :=
  { s with refreshes := s.refreshes ++ [refresh] }

def State.refreshed (s : State) (id : ℕ) (clientReqID : Text) (caller : Target) (state : InitState)
    (port : ℕ) (exit : Exit) : State :=
  (s.recordRefresh ⟨caller, state.sessionID, port, exit⟩).setCall id
    (readyCall clientReqID caller state port)

def Target.own (target : Target) : InitState := ⟨target.daemonSID, target.daemonProto⟩

def State.refreshedOwn (s : State) (id : ℕ) (clientReqID : Text) (caller : Target) (exit : Exit) :
    State :=
  s.refreshed id clientReqID caller caller.own caller.ref.port exit

/-- The freshness check of the loop, on the pair that was read and the generation read after it. -/
def State.checkFresh (s : State) (id : ℕ) (clientReqID : Text) (target : Target)
    (attempt port : ℕ) (cached : Option InitState) (stampGen curGen : ℕ) : State :=
  match cached with
  | some state =>
    if curGen ≤ stampGen then s.refreshed id clientReqID target state port (.reused curGen)
    else if maxProactiveReinitAttempts ≤ attempt then
      s.refreshed id clientReqID target state port .exhausted
    else s.setCall id ⟨clientReqID, .reinit target (.refresh attempt)⟩
  | none =>
    if maxProactiveReinitAttempts ≤ attempt then
      s.refreshedOwn id clientReqID target .exhaustedWithoutSession
    else s.setCall id ⟨clientReqID, .reinit target (.refresh attempt)⟩

def State.joinFlight (s : State) (id : ℕ) (call : Call) (target : Target) (purpose : Purpose)
    (ref : DaemonRef) (fresh : ℕ) : Option State :=
  match s.reinitGroup.lookup (groupKey ref) with
  | some flight =>
    some (s.setCall id { call with phase := .waiting target purpose ref.port flight })
  | none =>
    if (s.flights fresh).isNone then
      some ({ s with reinitGroup := s.reinitGroup.insert (groupKey ref) fresh }.setFlight fresh
        ⟨ref, .begun⟩ |>.setCall id { call with phase := .waiting target purpose ref.port fresh })
    else none

def State.reinitialized (s : State) (id : ℕ) (clientReqID : Text) (target : Target)
    (purpose : Purpose) (port : ℕ) (result : Option InitState) : State :=
  match purpose, result with
  | .refresh attempt, some _ => s.setCall id ⟨clientReqID, .resolvePort target (attempt + 1)⟩
  | .refresh _, none => s.refreshedOwn id clientReqID target .reinitFailed
  | .heal key err, some state =>
    s.setCall id ⟨clientReqID,
      .healed ⟨{ target.ref with port := port }, state.sessionID, state.protocolVersion⟩ key err⟩
  | .heal key err, none => s.setCall id ⟨clientReqID, .finishing key (callFailed err)⟩

/-- `dispatchToolsCall` from the rewritten body to the row, each of which may be refused. -/
def State.enter (json : JSON) (s : State) (id : ℕ) (clientReqID : Text) (target : Target)
    (prepared : Except String Text) : State :=
  match prepared with
  | .error err =>
    s.setCall id ⟨clientReqID, .ended (.error (-32603) ("Internal error: " ++ err))⟩
  | .ok daemonReqID =>
    match newRequestIDKey json clientReqID with
    | .error err => s.setCall id ⟨clientReqID, .ended (.error (-32600) err.message)⟩
    | .ok key =>
      match s.inFlight.insertInFlight key (target.entry daemonReqID) with
      | (_, false) => s.setCall id ⟨clientReqID,
          .ended (.error (-32600) "duplicate request id; original call still in flight")⟩
      | (rows, true) => { s with inFlight := rows }.setCall id
          ⟨clientReqID, .posting target key daemonReqID⟩

def stepCall (json : JSON) (sess : Session) (s : State) : Action → Option State
  | .startCall id clientReqID params =>
    if s.initialized = true ∧ (s.calls.lookup id).isNone = true then
      some (s.setCall id ⟨clientReqID, routeCall s.routeMap params⟩)
    else none
  | .loadSnapshot id =>
    match s.calls.lookup id with
    | some ⟨reqID, .routed ref⟩ => some (s.setCall id ⟨reqID, revalidate sess s.current ref⟩)
    | _ => none
  | .bindSession id =>
    match s.calls.lookup id with
    | some ⟨reqID, .checked ref moved seen⟩ =>
      match s.cache.daemonInitState sess ref.daemonRef with
      | none => some (s.setCall id ⟨reqID, .ended (noSession moved)⟩)
      | some state =>
        let record : Resolution := ⟨id, ref, seen⟩
        some ({ s with resolutions := s.resolutions ++ [record] }.setCall id
          ⟨reqID, .resolved ⟨ref, state.sessionID, state.protocolVersion⟩⟩)
    | _ => none
  | .refresh id =>
    match s.calls.lookup id with
    | some ⟨reqID, .resolved target⟩ =>
      match s.staleDaemonPorts target.ref.port with
      | none => some (s.refreshedOwn id reqID target .neverRestarted)
      | some _ => some (s.setCall id ⟨reqID, .resolvePort target 0⟩)
    | _ => none
  | .resolvePort id =>
    match s.calls.lookup id with
    | some ⟨reqID, .resolvePort target attempt⟩ =>
      some (s.setCall id ⟨reqID, .readCache target attempt
        (currentDaemonPort (pointee s.current) sess.scopeKey target.ref)⟩)
    | _ => none
  | .readCache id =>
    match s.calls.lookup id with
    | some ⟨reqID, .readCache target attempt port⟩ =>
      let daemonKey : DaemonRef := ⟨target.ref.server, target.ref.daemon, port⟩
      some (s.setCall id ⟨reqID, .readGen target attempt port
        (s.cache.daemonInitState sess daemonKey)
        ((s.cache.initSuccessGen.lookup daemonKey).getD 0)⟩)
    | _ => none
  | .readGen id =>
    match s.calls.lookup id with
    | some ⟨reqID, .readGen target attempt port cached stampGen⟩ =>
      some (s.checkFresh id reqID target attempt port cached stampGen (s.generation port))
    | _ => none
  | .reinit id =>
    match s.calls.lookup id with
    | some ⟨reqID, .reinit target purpose⟩ =>
      let port := currentDaemonPort (pointee s.current) sess.scopeKey target.ref
      some (s.setCall id ⟨reqID, .join target purpose ⟨target.ref.server, target.ref.daemon, port⟩⟩)
    | _ => none
  | .join id fresh =>
    match s.calls.lookup id with
    | some ⟨reqID, .join target purpose ref⟩ =>
      s.joinFlight id ⟨reqID, .join target purpose ref⟩ target purpose ref fresh
    | _ => none
  | .await id =>
    match s.calls.lookup id with
    | some ⟨reqID, .waiting target purpose port flight⟩ =>
      match s.flights flight with
      | some ⟨_, .settled result⟩ => some (s.reinitialized id reqID target purpose port result)
      | _ => none
    | _ => none
  -- The caller's own context ends; the flight goes on.
  | .giveUp id =>
    match s.calls.lookup id with
    | some ⟨reqID, .waiting target purpose port _⟩ =>
      some (s.reinitialized id reqID target purpose port none)
    | _ => none
  | .dispatch id prepared =>
    match s.calls.lookup id with
    | some ⟨reqID, .ready target⟩ => some (s.enter json id reqID target prepared)
    | _ => none
  | .posted id result =>
    match s.calls.lookup id with
    | some ⟨reqID, .posting target key _⟩ =>
      match result with
      | .answered body =>
        some (s.setCall id ⟨reqID, .finishing key (rewriteResponseID reqID body)⟩)
      | .failed err => some (s.setCall id ⟨reqID, .finishing key (callFailed err)⟩)
      | .retriable err => some (s.setCall id ⟨reqID, .reinit target (.heal key err)⟩)
    | _ => none
  | .removeRow id prepared =>
    match s.calls.lookup id with
    | some ⟨reqID, .healed target key err⟩ =>
      match prepared with
      | .error _ => some (s.setCall id ⟨reqID, .finishing key (callFailed err)⟩)
      | .ok retryReqID =>
        some ({ s with inFlight := s.inFlight.removeInFlight key }.setCall id
          ⟨reqID, .removed target key err retryReqID⟩)
    | _ => none
  -- The result of the second insertion is not looked at.
  | .reinsertRow id =>
    match s.calls.lookup id with
    | some ⟨reqID, .removed target key err retryReqID⟩ =>
      some ({ s with inFlight :=
          (s.inFlight.insertInFlight key (target.entry retryReqID)).1 }.setCall id
        ⟨reqID, .retrying target key err retryReqID⟩)
    | _ => none
  | .retried id result =>
    match s.calls.lookup id with
    | some ⟨reqID, .retrying _ key err _⟩ =>
      match result with
      | .answered body =>
        some (s.setCall id ⟨reqID, .finishing key (rewriteResponseID reqID body)⟩)
      | .failed _ | .retriable _ => some (s.setCall id ⟨reqID, .finishing key (callFailed err)⟩)
    | _ => none
  | .finish id =>
    match s.calls.lookup id with
    | some ⟨reqID, .finishing key outcome⟩ =>
      some ({ s with inFlight := s.inFlight.removeInFlight key }.setCall id ⟨reqID, .ended outcome⟩)
    | _ => none
  | _ => none

def step (json : JSON) (sess : Session) (s : State) (action : Action) : Option State :=
  stepSession sess s action <|> stepList sess s action <|> stepFlight sess s action <|>
    stepCall json sess s action

theorem step_cases {json : JSON} {sess : Session} {s t : State} {action : Action}
    (moved : step json sess s action = some t) :
    stepSession sess s action = some t ∨ stepList sess s action = some t ∨
      stepFlight sess s action = some t ∨ stepCall json sess s action = some t := by
  simp only [step, Option.orElse_eq_orElse, Option.orElse_eq_or, Option.or_eq_some_iff] at moved
  rcases moved with first | ⟨_, second | ⟨_, third | ⟨_, last⟩⟩⟩
  · exact .inl first
  · exact .inr (.inl second)
  · exact .inr (.inr (.inl third))
  · exact .inr (.inr (.inr last))

/-- The session is created under the snapshot that is current, with the bindings of its scope as
its participants. -/
def Created (sess : Session) (s : State) : Prop :=
  ∃ current nextStamp, (∀ p, current = some p → p.stamp < nextStamp) ∧
    sess.snapshotAtInit = current ∧
    sess.intendedParticipants = scopeBindings (pointee current) sess.scopeKey ∧
    s = { current := current, nextStamp := nextStamp }

/-- `ForwardCancellation`: the row whose daemon request is cancelled; the row stays. -/
def forwardCancellation (json : JSON) (s : State) (clientReqID : Text) : Option InflightEntry :=
  match newRequestIDKey json clientReqID with
  | .error _ => none
  | .ok key => s.inFlight.requests.lookup key

def memoryRef : DaemonRef := ⟨"memory", "default", 9001⟩

def memorySnapshot : ResolverSnapshot where
  bindings := (∅ : Map String (List DaemonRef)).insert "client" [memoryRef]
  toolsHidden := ∅
  groups := []
  groupDeclaredMembers := ∅

def memorySession : Session where
  scopeKey := "client"
  protocolVersion := "2025-11-25"
  snapshotAtInit := some ⟨0, memorySnapshot⟩
  intendedParticipants := [memoryRef]

def memoryStart : State := { current := some ⟨0, memorySnapshot⟩, nextStamp := 1 }

theorem memoryStart_created : Created memorySession memoryStart := by
  refine ⟨some ⟨0, memorySnapshot⟩, 1, ?_, rfl, rfl, rfl⟩
  rintro p ⟨⟩
  exact Nat.zero_lt_one

def opened : List Action :=
  [.aggregateInitialize [.ok ("first", "")], .startList 0, .captureList 0,
    .fanOut 0 (fun _ => .ok [.object [("name", .string "read")]]), .loadHidden 0, .publishRoutes 0]

def called (id : ℕ) (daemonReqID : Text) : List Action :=
  [.startCall id ['7'] (.ok "memory__read"), .loadSnapshot id, .bindSession id, .refresh id,
    .dispatch id (.ok daemonReqID)]

def reinitialized (id flight : ℕ) (sid : String) : List Action :=
  [.reinit id, .join id flight, .readGeneration flight, .dial flight,
    .handshake flight (.ok (sid, "")), .cacheResult flight, .settle flight, .await id]

end McpLocalHub.Hub.Aggregator
