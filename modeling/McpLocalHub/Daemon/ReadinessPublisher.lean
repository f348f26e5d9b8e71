/- Module: Daemon/ReadinessPublisher
   source: internal/daemon/lazy_proxy_readiness.go, internal/cli/supervisor_runtime_tracker.go
   digest: The readiness publisher of one wrapper, its callers and the supervisor, interleaved at
   its lock. -/

import McpLocalHub.Foundation.Maps
import McpLocalHub.Foundation.Runs
import McpLocalHub.Supervisor.LazyReadiness

set_option autoImplicit false

namespace McpLocalHub.Daemon.ReadinessPublisher

open Foundation.Maps Foundation.Runs Supervisor.LazyReadiness Supervisor.RuntimeTracker

structure Wrapper where
  taskName : String
  wrapperPID : ℕ
  wrapperStartedAt : ℤ
  lazyProxy : isLazyProxyTaskName taskName = true
  process : 0 < wrapperPID

/-- `lazyProxyReadinessRequest`; the identifier stands for the pointer. The other fields of the
event are the wrapper's. -/
structure Request where
  id : ℕ
  epoch : ℕ
  transition : Transition
  observedAt : ℤ
  deriving DecidableEq

def Request.state (request : Request) : LazyState := ⟨request.epoch, request.transition⟩

def Request.key (request : Request) : Key := request.state.key

def Request.event (request : Request) (w : Wrapper) : LazyProxyReadinessEvent where
  protocolVersion := 1
  taskName := w.taskName
  wrapperPID := w.wrapperPID
  wrapperStartedAt := some w.wrapperStartedAt
  backendEpoch := request.epoch
  transition := request.transition
  observedAt := some request.observedAt

inductive Outcome
  | lost
  | refused (error : CommitError)
  | answered (disposition : Disposition)
  deriving DecidableEq

def Outcome.ok : Outcome → Bool
  | .answered _ => true
  | _ => false

inductive Worker
  | waiting
  | attempting (request : Request) (outcomes : List Outcome)
  | checking (request : Request) (outcomes : List Outcome)
  | returned (request : Request) (outcomes : List Outcome)
  /-- The request is out of flight; `fatal` says that the fatal signal is still to be decided. -/
  | finishing (request : Request) (outcomes : List Outcome) (fatal : Bool)

def Worker.send : Worker → Option (Request × List Outcome)
  | .waiting => none
  | .attempting r outcomes | .checking r outcomes | .returned r outcomes
  | .finishing r outcomes _ => some (r, outcomes)

def Worker.inFlight : Worker → Option Request
  | .attempting r _ | .checking r _ | .returned r _ => some r
  | .waiting | .finishing _ _ _ => none

def sendOk (outcomes : List Outcome) : Bool := outcomes.getLast?.any Outcome.ok

structure Waiter where
  key : Key
  request : Request
  waitLimit : ℤ

structure System where
  pending : Option Request := none
  worker : Worker := .waiting
  latest : Option Key := none
  delivered : Option Key := none
  nextRequest : ℕ := 0
  /-- The requests that are complete, and whether without error. -/
  results : Map Request Bool := ∅
  callers : Map ℕ Waiter := ∅
  row : LazyRow
  /-- The epochs whose starting was published and returned without error. -/
  started : List ℕ := []
  published : List Key := []
  /-- What the supervisor accepted in its present lifetime, in order. -/
  accepted : List Key := []
  lastSent : Option (Key × Outcome) := none
  /-- The fatal signals, each with the attempts of its send. -/
  fatals : List (List Outcome) := []

def System.returns (s : System) (key : Key) (ok : Bool) : System :=
  if ok ∧ key.rank = Transition.starting.rank then { s with started := key.epoch :: s.started } else s

def System.complete (s : System) (request : Request) (ok : Bool) : System :=
  if (s.results.lookup request).isSome then s
  else { s with results := s.results.insert request ok }

def System.await (s : System) (c : ℕ) (key : Key) (request : Request) (waitLimit : ℤ) : System :=
  if waitLimit = 0 then s.returns key true
  else { s with callers := s.callers.insert c ⟨key, request, waitLimit⟩ }

def System.joinable (s : System) (key : Key) : Option Request :=
  match s.pending with
  | some r => if r.key = key then some r
      else s.worker.inFlight.filter (fun flying => decide (flying.key = key))
  | none => s.worker.inFlight.filter (fun flying => decide (flying.key = key))

def System.raised (s : System) (key : Key) : Key :=
  match s.latest with
  | none => key
  | some latest => if 0 < compareLazyProxyReadinessKey key latest then key else latest

def System.submit (s : System) (request : Request) : System :=
  let stored := { s with
    latest := some (s.raised request.key)
    pending := some request
    nextRequest := s.nextRequest + 1 }
  match s.pending with
  | none => stored
  | some replaced => stored.complete replaced true

def System.post (s : System) (c : ℕ) (request : Request) (waitLimit : ℤ) : System :=
  match s.latest with
  | none => (s.submit request).await c request.key request waitLimit
  | some latest =>
    let cmp := compareLazyProxyReadinessKey request.key latest
    if cmp < 0 ∨ cmp = 0 ∧ s.delivered = some request.key then s.returns request.key true
    else if cmp = 0 then
      match s.joinable request.key with
      | some joined => s.await c request.key joined waitLimit
      | none => (s.submit request).await c request.key request waitLimit
    else (s.submit request).await c request.key request waitLimit

def System.publish (s : System) (c epoch : ℕ) (transition : Transition) (waitLimit now : ℤ) :
    System :=
  let request : Request := ⟨s.nextRequest, epoch, transition, now⟩
  if epoch = 0 ∨ transition.rank = 0 then s
  else { s with published := request.key :: s.published }.post c request waitLimit

def System.isCurrent (s : System) (key : Key) : Bool := decide (s.latest = some key)

def System.commit (s : System) (w : Wrapper) (request : Request) (outcomes : List Outcome)
    (lost : Bool) : System :=
  let failed (s : System) (outcome : Outcome) : System :=
    { s with
      worker := .checking request (outcomes ++ [outcome])
      lastSent := some (request.key, outcome) }
  if lost then failed s .lost
  else
    match commitLazyProxyReadinessEvent s.row (request.event w) with
    | .error e => failed s (.refused e)
    | .ok (receipt, row) =>
      { s with
        row := row
        accepted := if receipt.disposition = .accepted then s.accepted ++ [request.key]
          else s.accepted
        worker := .returned request (outcomes ++ [.answered receipt.disposition])
        lastSent := some (request.key, .answered receipt.disposition) }

inductive Action
  | publish (c epoch : ℕ) (transition : Transition) (waitLimit now : ℤ)
  | wake (c : ℕ)
  | timeout (c : ℕ)
  | take
  | commit (lost : Bool)
  | check
  | land
  | signal
  | complete
  /-- The supervisor restarts; the row comes back for the same process with this generation. -/
  | restart (pidGeneration : ℕ)

def step (w : Wrapper) (s : System) : Action → Option System
  | .publish c epoch transition waitLimit now =>
    if (s.callers.lookup c).isSome then none
    else some (s.publish c epoch transition waitLimit now)
  | .wake c => do
      let waiter ← s.callers.lookup c
      let ok ← s.results.lookup waiter.request
      some ({ s with callers := s.callers.erase c }.returns waiter.key ok)
  | .timeout c => do
      let waiter ← s.callers.lookup c
      if 0 < waiter.waitLimit then
        some ({ s with callers := s.callers.erase c }.returns waiter.key false)
      else none
  | .take =>
    match s.worker, s.pending with
    | .waiting, some request =>
      some { s with pending := none, worker := .attempting request [] }
    | _, _ => none
  | .commit lost =>
    match s.worker with
    | .attempting request outcomes => some (s.commit w request outcomes lost)
    | _ => none
  | .check =>
    match s.worker with
    | .checking request outcomes =>
      some { s with
        worker := if s.isCurrent request.key ∧ outcomes.length < 2
          then .attempting request outcomes else .returned request outcomes }
    | _ => none
  | .land =>
    match s.worker with
    | .returned request outcomes =>
      let current := s.isCurrent request.key
      some { s with
        delivered := if sendOk outcomes ∧ current then some request.key else s.delivered
        worker := .finishing request outcomes
          (!sendOk outcomes && current && decide (request.transition ≠ .ready)) }
    | _ => none
  | .signal =>
    match s.worker with
    | .finishing request outcomes true =>
      some { s with
        fatals := if s.isCurrent request.key then outcomes :: s.fatals else s.fatals
        worker := .finishing request outcomes false }
    | _ => none
  | .complete =>
    match s.worker with
    | .finishing request outcomes false =>
      some ({ s with worker := .waiting }.complete request (sendOk outcomes))
    | _ => none
  | .restart pidGeneration =>
    if pidGeneration = 0 then none
    else some { s with
      row := hydrateFromState
        ⟨.running, w.wrapperPID, some w.wrapperStartedAt, pidGeneration⟩
      accepted := [] }

/-- The publisher is new and its process has just been marked as spawned. -/
def Starts (w : Wrapper) (s : System) : Prop :=
  ∃ prior, s = { row := { entry := (markSpawned prior w.wrapperPID w.wrapperStartedAt).1 } }

/-- What is assumed of the callers: ready is published for an epoch only after starting of that
epoch returned without error. -/
def ReadyAfterStarting (s : System) : Action → Prop
  | .publish _ epoch .ready _ _ => epoch ∈ s.started
  | _ => True

instance (s : System) (action : Action) : Decidable (ReadyAfterStarting s action) := by
  unfold ReadyAfterStarting
  split <;> infer_instance

end McpLocalHub.Daemon.ReadinessPublisher
