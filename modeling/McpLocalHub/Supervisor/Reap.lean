/- Module: Supervisor/Reap
   source: internal/cli/supervisor_controller.go
   digest: The reaping of daemons whose descriptor has left the intent file. -/

import McpLocalHub.Supervisor.Lifecycle
import Mathlib.Data.List.Dedup

set_option autoImplicit false

/-!
Every map of the controller is keyed by the canonical name of a task. The lookups that also try the
other spelling find nothing more: a spelling without the backslash keys no row.
-/

namespace McpLocalHub.Supervisor.Reap

open StateMachine Intents RuntimeTracker Controller StopBatch Lifecycle

def smStateIsReapable (row : TaskRow) : Bool :=
  match row.smState with
  | some .spawning | some .running | some .backoffWaiting | some .exiting => true
  | _ => false

def armReapFollowup (row : TaskRow) : TaskRow :=
  let generation := row.reapGeneration.getD 0
  if row.reapFollowupArmed = some generation then row
  else { row with reapFollowupArmed := some generation }

def bumpReapGeneration (row : TaskRow) : TaskRow :=
  { row with reapGeneration := some (row.reapGeneration.getD 0 + 1) }

def disarmReapFollowup (row : TaskRow) : TaskRow := { row with reapFollowupArmed := none }

def markPendingReap (captured : SupervisorDaemon) (row : TaskRow) : TaskRow :=
  armReapFollowup (disarmReapFollowup (bumpReapGeneration
    { row with pendingReap := some captured, reapShadow := some captured }))

def cancelPendingReap (row : TaskRow) : TaskRow :=
  disarmReapFollowup { row with pendingReap := none, reapShadow := none }

def clearRemovedTaskRuntime (row : TaskRow) : TaskRow :=
  { row with
    smState := none
    queuedAction := .none
    gateCleared := false
    pendingReap := none
    reapShadow := none
    reapFollowupArmed := none
    respawnArmGen := none
    reapDeferredTimerDue := false
    reapDeferredStop := false
    ownSpawned := false
    entry := none
    failures := []
    reallocations := [] }

def queueRespawnOnReapCancelIfNeeded (task : String) (intent : DaemonIntent) (now : Int)
    (row : TaskRow) : TaskRow × List LoopEvent :=
  match row.smState with
  | some .exiting =>
    if intent.isActiveStop now then (row, []) else ({ row with queuedAction := .respawn }, [])
  | some .idle =>
    if intent.isActiveStop now then (row, [])
    else (row, [{ kind := .sm .start, taskName := task }])
  | _ => (row, [])

def replayDeferredBackoffTimerIfPending (task : String) (row : TaskRow) :
    TaskRow × List LoopEvent :=
  if row.reapDeferredTimerDue then
    ({ row with reapDeferredTimerDue := false }, [{ kind := .sm .timerDue, taskName := task }])
  else (row, [])

/-- The marker goes in any case, the queued stop only when the daemon is declared running again. -/
def clearReapDeferredStopIfPending (intent : DaemonIntent) (now : Int) (row : TaskRow) : TaskRow :=
  if row.reapDeferredStop then
    let consumed := { row with reapDeferredStop := false }
    if intent.isActiveStop now = false ∧ row.queuedAction = .stop then
      { consumed with queuedAction := .none }
    else consumed
  else row

def reappear (task : String) (intent : DaemonIntent) (now : Int) (row : TaskRow) :
    TaskRow × List LoopEvent :=
  let queued := queueRespawnOnReapCancelIfNeeded task intent now row
  let replayed := replayDeferredBackoffTimerIfPending task queued.1
  (cancelPendingReap (clearReapDeferredStopIfPending intent now replayed.1), queued.2 ++ replayed.2)

inductive ReapOutcome
  | terminatedDead | deferred | terminateFailed

structure Reaped where
  outcome : ReapOutcome
  row : TaskRow
  posts : List LoopEvent

def reapContext (graceful : Bool) (row : TaskRow) : SMContext where
  intentDesired := .stopped
  intentIsActiveStop := true
  failures := 0
  queuedAction := row.queuedAction
  gracefulInProgress := graceful

def storeReap (current : SMState) (result : TransitionResult) (row : TaskRow) : TaskRow :=
  { row with
    queuedAction := queuedWriteBack result.side row.queuedAction
    smState := some result.newState
    entry := if result.newState = .idle ∧ current ≠ .idle then some (markExited row.entry)
      else row.entry
    transitions := row.transitions ++ [result.side] }

/-- A failed termination restores the state it started from, so that it is tried again. -/
def classifyReap (current newState : SMState) (effect : Effect) : Reaped :=
  match newState with
  | .exiting =>
    if effect.error = some .other then
      ⟨.terminateFailed, { effect.row with smState := some current }, effect.posts⟩
    else if effect.row.ownSpawned || effect.row.reaperOutstanding then
      ⟨.deferred, effect.row, effect.posts⟩
    else ⟨.terminatedDead, effect.row, effect.posts⟩
  | .spawning => ⟨.deferred, { effect.row with reapDeferredStop := true }, effect.posts⟩
  | _ => ⟨.terminatedDead, effect.row, effect.posts⟩

def reapRemovedDaemon (cfg : Config) (turn : Turn) (task : String) (d : SupervisorDaemon)
    (row : TaskRow) : Reaped :=
  match row.smState with
  | none => ⟨.terminatedDead, row, []⟩
  | some .exiting =>
    -- a termination is under way; a restart that waits for it is called off
    ⟨.deferred,
      { row with
        queuedAction := if row.queuedAction = .respawn then .none else row.queuedAction }, []⟩
  | some current =>
    if smStateIsReapable row = false then ⟨.terminatedDead, row, []⟩
    else
      let result := transition current .intentUpdate (reapContext turn.graceful row)
      if result.matched = false then ⟨.terminatedDead, row, []⟩
      else
        classifyReap current result.newState
          (executeSideEffect cfg turn task d result.side result.newState .intentUpdate
            (storeReap current result row))

def settleReap (outcome : ReapOutcome) (row : TaskRow) : TaskRow :=
  match outcome with
  | .terminatedDead => clearRemovedTaskRuntime row
  | .deferred | .terminateFailed => armReapFollowup row

def resolveConfirmedReap (cfg : Config) (answers : String → Answers) (w : World)
    (d : SupervisorDaemon) : World :=
  let task := canonicalSupervisorTaskName d.taskName
  let reaped := reapRemovedDaemon cfg (w.turn task (answers task)) task d (w.rows task)
  w.store task (settleReap reaped.outcome reaped.row, reaped.posts)

def confirmReapForTask (cfg : Config) (answers : String → Answers) (task : String)
    (candidates : List SupervisorDaemon) (w : World) : World :=
  match candidates.find? (fun d => canonicalSupervisorTaskName d.taskName = task) with
  | none => w
  | some d => resolveConfirmedReap cfg answers w d

/-- What is recorded of the reaping: the snapshots and files that were read, and the marks. -/
inductive ReapRecord
  | scanned (names : List String)
  | reread (task : String) (generation : Nat) (names : List String)
  | marked (task : String) (generation : Nat) (names : List String)
  deriving DecidableEq

structure Fleet where
  supervisor : World
  reapKeys : List String := []
  log : List ReapRecord := []

namespace Fleet

def row (w : Fleet) (task : String) : TaskRow := w.supervisor.rows task

def setRow (w : Fleet) (task : String) (row : TaskRow) : Fleet :=
  { w with supervisor := w.supervisor.setRow task row }

def record (w : Fleet) (entry : ReapRecord) : Fleet := { w with log := w.log ++ [entry] }

def pendingKeys (w : Fleet) : List String :=
  w.reapKeys.filter (fun task => (w.row task).pendingReap.isSome)

end Fleet

def captureAbsent (w : World) (next tasks : List String) : List (String × SupervisorDaemon) :=
  tasks.filterMap (fun task =>
    if task ∈ next ∨ (w.rows task).pendingReap.isSome = true then none
    else (lookupCanonical w.intentCache task).map (fun d => (task, d)))

def installShadow (w : World) (entry : String × SupervisorDaemon) : World :=
  if smStateIsReapable (w.rows entry.1) then
    w.setRow entry.1 { w.rows entry.1 with reapShadow := some entry.2 }
  else w

def swapCaches (updated : Option SupervisorIntentFile) (stops : Option (List (String × DaemonIntent)))
    (w : World) : World :=
  { w with intentCache := updated, stops := stops.getD w.stops }

def resolvePending (next : List String) (now : Int) (acc : World × List SupervisorDaemon)
    (task : String) : World × List SupervisorDaemon :=
  if task = "" then acc
  else
    match (acc.1.rows task).pendingReap with
    | none => acc
    | some d =>
      if task ∈ next then
        (acc.1.store task (reappear task (lookupStop acc.1.stops task) now (acc.1.rows task)),
          acc.2)
      else if smStateIsReapable (acc.1.rows task) = false then
        (acc.1.setRow task (clearRemovedTaskRuntime (acc.1.rows task)), acc.2)
      else (acc.1, acc.2 ++ [d])

def markAbsent (next : List String) (captured : List (String × SupervisorDaemon)) (w : Fleet)
    (task : String) : Fleet :=
  let row := w.row task
  if task ∈ next ∨ row.pendingReap.isSome = true then w
  else if smStateIsReapable row = false then w.setRow task (clearRemovedTaskRuntime row)
  else
    match captured.lookup task with
    | none => w.setRow task (clearRemovedTaskRuntime row)
    | some d =>
      let marked := { w.setRow task (markPendingReap d row) with reapKeys := w.reapKeys.insert task }
      marked.record (.marked task (row.reapGeneration.getD 0 + 1) next)

/-- The fleet with the snapshot applied, and the candidates that are still absent and live. -/
def applyReapSnapshot (w : Fleet) (previous : List String) (updated : Option SupervisorIntentFile)
    (stops : Option (List (String × DaemonIntent))) (now : Int) (order : List String) :
    Fleet × List SupervisorDaemon :=
  let next := taskNames updated
  let tasks := (previous ++ taskNames w.supervisor.intentCache).dedup
  let captured := captureAbsent w.supervisor next tasks
  let shadowed := captured.foldl installShadow w.supervisor
  let resolved := order.foldl (resolvePending next now) (swapCaches updated stops shadowed, [])
  (tasks.foldl (markAbsent next captured) { w with supervisor := resolved.1 }, resolved.2)

def handleReapScan (cfg : Config) (w : Fleet) (previous : List String)
    (updated : Option SupervisorIntentFile) (stops : Option (List (String × DaemonIntent)))
    (now : Int) (order : List String) (answers : String → Answers) : Fleet :=
  let applied := applyReapSnapshot w previous updated stops now order
  let scanned := applied.1.record (.scanned (taskNames updated))
  { scanned with
    supervisor := applied.2.foldl (resolveConfirmedReap cfg answers) scanned.supervisor }

def stopsAsDaemonIntentFile (file : Option SupervisorIntentFile) : List (String × DaemonIntent) :=
  match file with
  | none => []
  | some f => f.stops

def resolveFollowup (cfg : Config) (w : Fleet) (task : String) (generation : Nat)
    (d : SupervisorDaemon) (fresh : Option SupervisorIntentFile) (now : Int) (order : List String)
    (answers : String → Answers) : Fleet :=
  let names := taskNames fresh
  if task ∈ names then
    let applied := applyReapSnapshot w (taskNames w.supervisor.intentCache) fresh
      (some (stopsAsDaemonIntentFile fresh)) now order
    let reread := applied.1.record (.reread task generation names)
    { reread with
      supervisor := confirmReapForTask cfg answers task applied.2 reread.supervisor }
  else
    let reread := w.record (.reread task generation names)
    if smStateIsReapable (reread.row task) = false then
      reread.setRow task (clearRemovedTaskRuntime (reread.row task))
    else { reread with supervisor := resolveConfirmedReap cfg answers reread.supervisor d }

def handleReapFollowup (cfg : Config) (w : Fleet) (name : String) (generation : Nat)
    (fresh : Option (Option SupervisorIntentFile)) (now : Int) (order : List String)
    (answers : String → Answers) : Fleet :=
  let task := canonicalSupervisorTaskName name
  if (w.row task).reapGeneration ≠ some generation then w
  else
    let fired := w.setRow task (disarmReapFollowup (w.row task))
    match (w.row task).pendingReap, fresh with
    | none, _ => fired
    | some _, none => fired.setRow task (armReapFollowup (fired.row task))
    | some d, some file => resolveFollowup cfg fired task generation d file now order answers

inductive ReapAction
  | loop (action : Action)
  | scan (previous : List String) (updated : Option SupervisorIntentFile)
      (stops : Option (List (String × DaemonIntent))) (now : Int) (order : List String)
      (answers : String → Answers)
  | followup (name : String) (generation : Nat) (fresh : Option (Option SupervisorIntentFile))
      (now : Int) (order : List String) (answers : String → Answers)

def step (cfg : Config) (w : Fleet) (action : ReapAction) : Option Fleet :=
  match action with
  | .loop action =>
    (Lifecycle.step cfg w.supervisor action).map (fun after => { w with supervisor := after })
  | .scan previous updated stops now order answers =>
    if w.supervisor.selfCh = [] ∧ order.Perm w.pendingKeys then
      some (handleReapScan cfg w previous updated stops now order answers)
    else none
  | .followup name generation fresh now order answers =>
    if w.supervisor.selfCh = [] ∧ order.Perm w.pendingKeys then
      some (handleReapFollowup cfg w name generation fresh now order answers)
    else none

def Started (w : Fleet) : Prop := Initial w.supervisor ∧ w.reapKeys = [] ∧ w.log = []

end McpLocalHub.Supervisor.Reap
