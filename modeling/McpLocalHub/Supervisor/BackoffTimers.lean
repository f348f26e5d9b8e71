/- Module: Supervisor/BackoffTimers
   source: internal/cli/supervisor_controller.go, internal/cli/supervise_realloc.go,
   internal/api/reallocate_dynamic_pool.go
   digest: The supervisor with its backoff timers and the outcomes of the reallocation worker. -/

import McpLocalHub.Supervisor.OrphanReap

set_option autoImplicit false

namespace McpLocalHub.Supervisor.BackoffTimers

open Foundation.Runs StateMachine Intents RuntimeTracker Controller StopBatch Lifecycle Reap

def rewritePortFlag (newPort : Nat) : List String → Option (List String)
  | [] => none
  | [_] => none
  | flag :: value :: rest =>
    if flag = "--port" then some (flag :: toString newPort :: rest)
    else (rewritePortFlag newPort (value :: rest)).map (flag :: ·)

def applyReallocatedPortToDescriptor (newPort : Nat) (d : SupervisorDaemon) :
    Option SupervisorDaemon :=
  (rewritePortFlag newPort (d.args.drop 2)).map
    (fun flags => { d with args := d.args.take 2 ++ flags, port := newPort })

def moveFirstRow (task : String) (newPort : Nat) :
    List SupervisorDaemon → Option (List SupervisorDaemon)
  | [] => none
  | d :: rest =>
    if canonicalSupervisorTaskName d.taskName = canonicalSupervisorTaskName task then
      (applyReallocatedPortToDescriptor newPort d).map (· :: rest)
    else (moveFirstRow task newPort rest).map (d :: ·)

def cloneIntentWithReallocatedPort (source : Option SupervisorIntentFile) (task : String)
    (newPort : Nat) : Option SupervisorIntentFile :=
  match source with
  | none => none
  | some file =>
    if newPort = 0 then none
    else (moveFirstRow task newPort file.daemons).map (fun daemons => { file with daemons := daemons })

inductive ReallocSnapshotDisposition
  | unorderable | incomingNewer | incomingStale

/-- `reallocSnapshotOrder`; `stamps` are the parsed `UpdatedAt` of the cached and of the carried
file, when both parse. -/
def reallocSnapshotOrder (current incoming : Option SupervisorIntentFile)
    (stamps : Option (Int × Int)) : ReallocSnapshotDisposition :=
  match incoming, current, stamps with
  | none, _, _ => .unorderable
  | some _, none, _ => .incomingNewer
  | some _, some _, none => .unorderable
  | some _, some _, some (cached, carried) =>
    if cached < carried then .incomingNewer else .incomingStale

/-- What the reallocation worker posts: the new port with the file it read afterwards, no free
port, or a failure. -/
inductive ReallocOutcome
  | reallocated (newPort : Nat) (carried : Option SupervisorIntentFile)
      (stamps : Option (Int × Int))
  | poolExhausted
  | failed

def holdInBackoffNoTimer (row : TaskRow) : TaskRow :=
  { row with smState := some .backoffWaiting, entry := some (markBackoff row.entry) }

/-- `none` when the cap is spent. The outcome of the request comes back as an event of its own. -/
def dispatchDynamicPoolRealloc (cfg : Config) (now : Int) (row : TaskRow) : Option TaskRow :=
  if reallocationCap ≤ countInWindow row.reallocations now cfg.failureWindow then none
  else some (armRespawnBackoffTimer (holdInBackoffNoTimer row))

/-- `handlePreSpawnRealloc`: a foreign holder of the port of a task that is still held. -/
def handlePreSpawnRealloc (cfg : Config) (now : Int) (cached : Option SupervisorDaemon)
    (row : TaskRow) : TaskRow :=
  if row.smState ≠ some .backoffWaiting then row
  else
    match cached.or row.reapShadow with
    | none => row
    | some d =>
      if isDynamicPoolProxyDescriptor d then (dispatchDynamicPoolRealloc cfg now row).getD row
      else row

def quarantineAfterRealloc (now : Int) (row : TaskRow) : TaskRow :=
  let stored := recordQuarantineParoleEligible { row with smState := some .quarantined } now
  { stored with entry := some (markQuarantined stored.entry) }

def reallocFailedEscalationBound : Nat := 3

/-- The goroutine of one arm: its delay, the two checks and the post, after each of which it may be
preempted. -/
inductive TimerPhase
  | waiting | stateChecked | armChecked | finished
  deriving DecidableEq

/-- The supervisor with its timers, the timer events that wait, and the counted failures of the
worker. -/
structure Timed where
  fleet : Fleet
  timers : String → Nat → TimerPhase := fun _ _ => .waiting
  due : List String := []
  reallocFailCount : String → Nat := fun _ => 0

namespace Timed

def row (w : Timed) (task : String) : TaskRow := w.fleet.row task

def cached (w : Timed) (task : String) : Option SupervisorDaemon :=
  lookupCanonical w.fleet.supervisor.intentCache task

def setRow (w : Timed) (task : String) (row : TaskRow) : Timed :=
  { w with fleet := w.fleet.setRow task row }

def setTimer (w : Timed) (task : String) (epoch : Nat) (phase : TimerPhase) : Timed :=
  { w with timers := Function.update w.timers task (Function.update (w.timers task) epoch phase) }

def setFailCount (w : Timed) (task : String) (count : Nat) : Timed :=
  { w with reallocFailCount := Function.update w.reallocFailCount task count }

def timerIs (w : Timed) (task : String) (epoch : Nat) (phase : TimerPhase) : Bool :=
  decide (0 < epoch ∧ epoch ≤ (w.row task).respawnArmEpoch ∧ w.timers task epoch = phase)

end Timed

def phaseAfterState (row : TaskRow) : TimerPhase :=
  match row.smState with
  | none | some .backoffWaiting => .stateChecked
  | some _ => .finished

def phaseAfterArm (row : TaskRow) (epoch : Nat) : TimerPhase :=
  if row.respawnArmGen = some epoch then .armChecked else .finished

/-- What resets the crash window resets the counted failures, and so does the dwell of a task that
stayed up. -/
def failCountsAfter (before after : World) (counts : String → Nat) (action : ReapAction) :
    String → Nat := fun task =>
  let entered := (after.rows task).transitions.drop (before.rows task).transitions.length
  match action with
  | .loop (.dwellTick dwelt) => if dwelt = task then 0 else counts task
  | _ => if entered.any resetsFailures then 0 else counts task

structure ScanInputs where
  now : Int
  order : List String
  answers : String → Answers

def applyCarried (cfg : Config) (inputs : ScanInputs) (file : SupervisorIntentFile) (w : Fleet) :
    Fleet :=
  handleReapScan cfg w (taskNames w.supervisor.intentCache) (some file) none inputs.now inputs.order
    inputs.answers

def patchCachedReallocatedPort (cfg : Config) (inputs : ScanInputs) (task : String) (newPort : Nat)
    (w : Fleet) : Fleet :=
  match cloneIntentWithReallocatedPort w.supervisor.intentCache task newPort with
  | none => w
  | some patched => applyCarried cfg inputs patched w

def moveCache (cfg : Config) (inputs : ScanInputs) (task : String) (newPort : Nat)
    (carried : Option SupervisorIntentFile) (stamps : Option (Int × Int)) (w : Fleet) : Fleet :=
  match reallocSnapshotOrder w.supervisor.intentCache carried stamps, carried with
  | .incomingNewer, some file => applyCarried cfg inputs file w
  | _, _ => patchCachedReallocatedPort cfg inputs task newPort w

def rearmHeld (cached : Option SupervisorDaemon) (row : TaskRow) : TaskRow :=
  if row.smState = some .backoffWaiting ∧ (cached.or row.reapShadow).isSome = true then
    armRespawnBackoffTimer row
  else row

def applyReallocated (cfg : Config) (inputs : ScanInputs) (task : String) (newPort : Nat)
    (carried : Option SupervisorIntentFile) (stamps : Option (Int × Int)) (w : Timed) : Timed :=
  let stamped := { w.row task with
    reallocations :=
      (recordAndCountInWindow (w.row task).reallocations inputs.now cfg.failureWindow).1 }
  let counted := (w.setRow task stamped).setFailCount task 0
  let moved := { counted with
    fleet := moveCache cfg inputs task newPort carried stamps counted.fleet }
  moved.setRow task (rearmHeld (moved.cached task) (moved.row task))

/-- `handleReallocApplied` for a failure: a few of them in a row are retried on the old port. -/
def applyReallocFailed (now : Int) (task : String) (w : Timed) : Timed :=
  let row := w.row task
  if row.smState = some .backoffWaiting ∧ ((w.cached task).or row.reapShadow).isSome = true then
    let count := w.reallocFailCount task + 1
    if reallocFailedEscalationBound < count then
      (w.setFailCount task 0).setRow task (quarantineAfterRealloc now row)
    else (w.setFailCount task count).setRow task (armRespawnBackoffTimer row)
  else w

def handleReallocApplied (cfg : Config) (inputs : ScanInputs) (task : String)
    (outcome : ReallocOutcome) (w : Timed) : Timed :=
  match outcome with
  | .reallocated newPort carried stamps => applyReallocated cfg inputs task newPort carried stamps w
  | .poolExhausted =>
    if (w.row task).smState = some .backoffWaiting then
      w.setRow task (quarantineAfterRealloc inputs.now (w.row task))
    else w
  | .failed => applyReallocFailed inputs.now task w

inductive TimedAction
  | reap (action : ReapAction)
  | checkState (task : String) (epoch : Nat)
  | checkArm (task : String) (epoch : Nat)
  | postDue (task : String) (epoch : Nat)
  | takeDue (answers : Answers)
  | preSpawnRealloc (name : String) (now : Int)
  | reallocApplied (name : String) (outcome : ReallocOutcome) (inputs : ScanInputs)
  | forgetFailures (task : String)

def unseeded : ReapAction → Bool
  | .loop (.post .timerDue _ _ _) | .loop (.hydrate _) => false
  | _ => true

/-- One step; the loop's own turns find the self channel empty where the event comes from the
other one. -/
def step (cfg : Config) (w : Timed) (action : TimedAction) : Option Timed :=
  match action with
  | .reap action =>
    if unseeded action = true then
      (Reap.step cfg w.fleet action).map (fun after =>
        { w with
          fleet := after
          reallocFailCount :=
            failCountsAfter w.fleet.supervisor after.supervisor w.reallocFailCount action })
    else none
  | .checkState task epoch =>
    if w.timerIs task epoch .waiting = true then
      some (w.setTimer task epoch (phaseAfterState (w.row task)))
    else none
  | .checkArm task epoch =>
    if w.timerIs task epoch .stateChecked = true then
      some (w.setTimer task epoch (phaseAfterArm (w.row task) epoch))
    else none
  | .postDue task epoch =>
    if w.timerIs task epoch .armChecked = true then
      some { w.setTimer task epoch .finished with due := w.due ++ [task] }
    else none
  | .takeDue answers =>
    match w.fleet.supervisor.selfCh, w.due with
    | [], task :: rest =>
      let handled := handleEvent cfg w.fleet.supervisor ⟨.sm .timerDue, task, {}⟩ answers
      some { w with fleet := { w.fleet with supervisor := handled }, due := rest }
    | _, _ => none
  | .preSpawnRealloc name now =>
    let task := canonicalSupervisorTaskName name
    if w.fleet.supervisor.selfCh = [] then
      some (w.setRow task (handlePreSpawnRealloc cfg now (w.cached task) (w.row task)))
    else none
  | .reallocApplied name outcome inputs =>
    if w.fleet.supervisor.selfCh = [] ∧ inputs.order.Perm w.fleet.pendingKeys then
      some (handleReallocApplied cfg inputs (canonicalSupervisorTaskName name) outcome w)
    else none
  | .forgetFailures task =>
    if w.fleet.supervisor.selfCh = [] ∧ (w.row task).smState = none then
      some (w.setFailCount task 0)
    else none

/-- A supervisor as boot leaves it, with no timer armed and no task in backoff. -/
structure TimersIdle (w : Timed) : Prop where
  started : Started w.fleet
  noTimers : w.timers = fun _ _ => .waiting
  noneDue : w.due = []
  unarmed : ∀ task, (w.row task).respawnArmEpoch = 0
  noneHeld : ∀ task, (w.row task).smState ≠ some .backoffWaiting

end McpLocalHub.Supervisor.BackoffTimers
