/- Module: Supervisor/Lifecycle
   source: internal/api/supervisor_event_loop.go, internal/cli/supervisor_controller.go,
   internal/cli/supervise.go
   digest: The supervisor as a transition system: the loop, the children and the off-loop
   writers. -/

import McpLocalHub.Foundation.Runs
import McpLocalHub.Supervisor.StopBatch

set_option autoImplicit false

namespace McpLocalHub.Supervisor.Lifecycle

open StateMachine Intents RuntimeTracker Controller StopBatch

inductive SettlementChange
  | advance (phase : StopSettlementPhase)
  | fail (failureClass : StopSettlementFailureClass) (detail : String)
  | remove
  deriving DecidableEq

/-- The steps of the supervisor and its surroundings. Only an empty self channel lets an event in
from outside. -/
inductive Action
  | selfTurn (answers : Answers)
  | post (ev : SMEvent) (task : String) (body : EventBody) (answers : Answers)
  | deliverExit (task : String) (generation : Nat) (exitCode : Int) (cleanExit : Bool)
      (answers : Answers)
  | paroleTick (now : Int) (visited : List String)
  | stopBatch (command : StopBatchCommand) (now : Int) (write : BatchWrite)
      (answers : String → Answers)
  | stopRecovery (task : String) (answers : Answers)
  | dwellTick (task : String)
  | childDies (task : String) (generation : Nat)
  | childWaited (task : String) (generation : Nat)
  | settle (task : String) (change : SettlementChange)
  | refreshStops (stops : List (String × DaemonIntent))
  | setGraceful (graceful : Bool)
  | clearGate (task : String)
  | hydrate (task : String)

def postable (ev : SMEvent) : Bool :=
  match ev with
  | .start | .intentUpdate | .manualRestart | .timerDue | .requestGraceful => true
  | _ => false

def handleEvent (cfg : Config) (w : World) (ev : LoopEvent) (answers : Answers) : World :=
  let task := canonicalSupervisorTaskName ev.taskName
  w.store task (handleTaskEvent cfg (w.turn task answers) task ev.kind ev.body (w.rows task))

/-- A report that the runtime was cleared is given only when no own child of the current
generation is alive. -/
def truthfulBody (body : EventBody) (row : TaskRow) : Bool :=
  !(body.runtimeCleared && hasLiveChild row (generation row.entry))

def advanceChild (generation : Nat) (before after : ChildPhase) : List Child → Option (List Child)
  | [] => none
  | c :: rest =>
    if c.generation = generation ∧ c.phase = before then some ({ c with phase := after } :: rest)
    else (advanceChild generation before after rest).map (c :: ·)

def waitedChild (generation : Nat) (row : TaskRow) : Option Child :=
  row.children.find? (fun c => decide (c.generation = generation ∧ c.phase = .waited))

theorem waitedChild_generation {generation : Nat} {row : TaskRow} {child : Child}
    (found : waitedChild generation row = some child) : child.generation = generation := by
  have told := List.find?_some found
  exact (of_decide_eq_true told).1

def exitBody (child : Child) (exitCode : Int) (cleanExit : Bool) : EventBody where
  pid := some child.pid
  pidGeneration := some child.generation
  startedAt := some child.startedAt
  exitCode := some exitCode
  cleanExit := cleanExit

def paroleVisits (now : Int) : List String → World → World
  | [], w => w
  | task :: rest, w =>
    paroleVisits now rest
      (w.store task (paroleVisit now (lookupStop w.stops task) task (w.rows task)))

def settleReceipt (change : SettlementChange) (receipt : StopSettlementReceipt) :
    Option (Option StopSettlementReceipt) :=
  match change with
  | .advance phase => (nextStopSettlementReceipt receipt phase none "").map some
  | .fail failureClass detail =>
    (nextStopSettlementReceipt receipt .failed (some failureClass) detail).map some
  | .remove => if receipt.phase = .portReleased then some none else none

def hydrateSMState (row : TaskRow) : TaskRow :=
  match row.smState with
  | some _ => row
  | none =>
    { row with
      smState := some
        (match row.entry with
        | some ⟨.quarantine, _, _, _⟩ => .quarantined
        | some ⟨.backoff, _, _, _⟩ => .backoffWaiting
        | _ => .idle) }

def step (cfg : Config) (w : World) (action : Action) : Option World :=
  match action with
  | .selfTurn answers =>
    match w.selfCh with
    | [] => none
    | ev :: rest => some (handleEvent cfg { w with selfCh := rest } ev answers)
  | .post ev task body answers =>
    if w.selfCh = [] ∧ postable ev = true ∧
        truthfulBody body (w.rows (canonicalSupervisorTaskName task)) = true then
      some (handleEvent cfg w ⟨.sm ev, task, body⟩ answers)
    else none
  | .deliverExit task generation exitCode cleanExit answers =>
    let key := canonicalSupervisorTaskName task
    if w.selfCh = [] then
      match waitedChild generation (w.rows key),
          advanceChild generation .waited .delivered (w.rows key).children with
      | some child, some children =>
        some (handleEvent cfg (w.setRow key { w.rows key with children := children })
          ⟨.ownedChildWaitExit, key, exitBody child exitCode cleanExit⟩ answers)
      | _, _ => none
    else none
  | .paroleTick now visited =>
    if w.selfCh = [] ∧ visited.Nodup ∧
        visited.all (fun task => canonicalSupervisorTaskName task = task) = true then
      some (if w.graceful then w else paroleVisits now visited w)
    else none
  | .stopBatch command now write answers =>
    if w.selfCh = [] then some (handleStopBatchOnLoop cfg w command now write answers) else none
  | .stopRecovery task answers =>
    if w.selfCh = [] then
      let key := canonicalSupervisorTaskName task
      some (w.store key (recoverStopReceiptOnLoop cfg (w.turn key answers) key (w.rows key)))
    else none
  | .dwellTick task =>
    if w.selfCh = [] then
      some (w.setRow task { w.rows task with failures := [], reallocations := [] })
    else none
  | .childDies task generation =>
    (advanceChild generation .alive .dead (w.rows task).children).map
      (fun children => w.setRow task { w.rows task with children := children })
  | .childWaited task generation =>
    (advanceChild generation .dead .waited (w.rows task).children).map
      (fun children => w.setRow task
        { w.rows task with
          children := children
          entry := (markExitedIfCurrent (w.rows task).entry generation).1 })
  | .settle task change =>
    match (w.rows task).receipt with
    | none => none
    | some receipt =>
      (settleReceipt change receipt).map
        (fun next => w.setRow task { w.rows task with receipt := next })
  | .refreshStops stops => some { w with stops := stops }
  | .setGraceful graceful => some { w with graceful := graceful }
  | .clearGate task => some (w.setRow task { w.rows task with gateCleared := true })
  | .hydrate task => some (w.setRow task (hydrateSMState (w.rows task)))

/-- Whatever the state file recorded, but no own process, nothing queued, and no task being spawned
or stopped. -/
structure Booted (row : TaskRow) : Prop where
  state : row.smState ≠ some .spawning ∧ row.smState ≠ some .exiting
  queued : row.queuedAction = .none
  owned : row.ownSpawned = false ∧ row.reaperOutstanding = false
  noReap : row.pendingReap = none ∧ row.reapShadow = none
  noChildren : row.children = []
  noRecords : row.spawnCalls = [] ∧ row.transitions = []

def Initial (w : World) : Prop :=
  w.selfCh = [] ∧ ∀ task, Booted (w.rows task)

def coldStart (file : SupervisorIntentFile) (stops : List (String × DaemonIntent)) : World where
  rows := fun _ => {}
  selfCh := []
  intentCache := some file
  stops := stops
  graceful := false
  integrityError := false
  settlementEpoch := 0

theorem coldStart_initial (file : SupervisorIntentFile) (stops : List (String × DaemonIntent)) :
    Initial (coldStart file stops) :=
  ⟨rfl, fun _ => ⟨⟨nofun, nofun⟩, rfl, ⟨rfl, rfl⟩, ⟨rfl, rfl⟩, rfl, ⟨rfl, rfl⟩⟩⟩

def respawnFailureWindow : Int := 1800 * 10 ^ 9
def respawnQuarantineThreshold : Nat := 10

def wiredConfig : Config := ⟨respawnFailureWindow, respawnQuarantineThreshold, true, .outcome⟩

def memoryDaemon : SupervisorDaemon := ⟨"\\memory", ["daemon", "memory"], false, 9101, none⟩

def memoryFile : SupervisorIntentFile := ⟨1, [memoryDaemon], []⟩

def obliging (spawn : SpawnOutcome) : Answers where
  now := 0
  persistOK := true
  pathHold := false
  portHold := false
  spawn := spawn
  terminate := ⟨.terminationCommitted, none, none, true, false⟩

end McpLocalHub.Supervisor.Lifecycle
