/- Module: Supervisor/Controller
   source: internal/cli/supervisor_controller.go, internal/cli/supervise.go,
   internal/cli/supervise_realloc.go
   digest: The controller's row of one task and the loop handler's turn on it. -/

import McpLocalHub.Supervisor.Intents
import McpLocalHub.Supervisor.RuntimeTracker

set_option autoImplicit false

namespace McpLocalHub.Supervisor.Controller

open StateMachine Intents RuntimeTracker

/-- A process this supervisor started: it dies, the wait goroutine sees that, and its exit event is
handled. -/
inductive ChildPhase
  | alive | dead | waited | delivered
  deriving DecidableEq

structure Child where
  generation : Nat
  pid : Nat
  startedAt : Int
  phase : ChildPhase
  deriving DecidableEq

structure ParoleEntry where
  attempts : Nat
  nextAttemptAt : Int
  healthySince : Option Int

/-- How the spawn callback ends. `postChild` has started a child and fails to persist, `preChild`
promises that no child exists, and `unowned` may leave a process without a wait goroutine. -/
inductive SpawnOutcome
  | started (pid : Nat) (startedAt : Int)
  | postChild (pid : Nat) (startedAt : Int)
  | preChild
  | jobProtectionRefused
  | unowned (recorded : Bool)
  deriving DecidableEq

structure SpawnCall where
  live : Nat
  outcome : SpawnOutcome

/-- What the controller and the tracker keep under one task name. The last three fields are the
processes and two records. -/
structure TaskRow where
  smState : Option SMState := none
  queuedAction : QueuedAction := .none
  ownSpawned : Bool := false
  reaperOutstanding : Bool := false
  gateCleared : Bool := false
  pendingReap : Option SupervisorDaemon := none
  reapShadow : Option SupervisorDaemon := none
  reapGeneration : Option Nat := none
  reapFollowupArmed : Option Nat := none
  reapDeferredTimerDue : Bool := false
  reapDeferredStop : Bool := false
  respawnArmEpoch : Nat := 0
  respawnArmGen : Option Nat := none
  quarantineParole : Option ParoleEntry := none
  entry : Option RuntimeEntry := none
  failures : List Int := []
  reallocations : List Int := []
  receipt : Option StopSettlementReceipt := none
  children : List Child := []
  spawnCalls : List SpawnCall := []
  transitions : List SideEffect := []

def TaskRow.state (row : TaskRow) : SMState := row.smState.getD .idle

def Child.alive (child : Child) : Bool := decide (child.phase = .alive)

def TaskRow.liveChildren (row : TaskRow) : List Child := row.children.filter Child.alive

/-- The keys of an event body that the loop handler reads. -/
structure EventBody where
  pid : Option Nat := none
  pidGeneration : Option Nat := none
  startedAt : Option Int := none
  exitCode : Option Int := none
  cleanExit : Bool := false
  requireRunningIntent : Bool := false
  runtimeCleared : Bool := false
  deriving DecidableEq

/-- The kinds of an event for one task: the state machine's own, and the two exits that may also
advance a stop receipt. -/
inductive EventKind
  | sm (ev : SMEvent)
  | ownedChildWaitExit
  | foreignTerminationExit
  deriving DecidableEq

def EventKind.smEvent (kind : EventKind) : SMEvent :=
  match kind with
  | .sm ev => ev
  | .ownedChildWaitExit | .foreignTerminationExit => .childExit

structure LoopEvent where
  kind : EventKind
  taskName : String
  body : EventBody := {}

/-- How the terminate callback ends: what it reports, whether it kills, and whether it records the
exit first. -/
structure TerminateAnswer where
  kind : TerminationOutcomeKind
  cause : Option TerminationCause
  legacyError : Option LegacyTerminateError
  kills : Bool
  marksExited : Bool
  deriving DecidableEq

inductive TerminateWiring
  | outcome | legacy | unwired
  deriving DecidableEq

structure Config where
  failureWindow : Int
  quarantineThreshold : Nat
  spawnWired : Bool
  terminateWiring : TerminateWiring

structure Answers where
  now : Int
  persistOK : Bool
  pathHold : Bool
  portHold : Bool
  spawn : SpawnOutcome
  terminate : TerminateAnswer
  stopError : String := ""
  deriving DecidableEq

/-- What a turn reads besides the row: descriptor, stop directive, flags and the answers of the
callbacks. -/
structure Turn where
  cached : Option SupervisorDaemon
  intent : DaemonIntent
  graceful : Bool
  integrityError : Bool
  answers : Answers
  deriving DecidableEq

structure Effect where
  row : TaskRow
  posts : List LoopEvent
  error : Option TerminationCause

def runSpawn (row : TaskRow) (outcome : SpawnOutcome) : TaskRow :=
  let called := { row with spawnCalls := row.spawnCalls ++ [⟨row.liveChildren.length, outcome⟩] }
  match outcome with
  | .started pid startedAt | .postChild pid startedAt =>
    let (entry, generation) := markSpawned row.entry pid startedAt
    { called with
      entry := some entry
      children := row.children ++ [⟨generation, pid, startedAt, .alive⟩] }
  | .preChild | .unowned true => { called with entry := some (markSpawnFailed row.entry) }
  | .unowned false => called
  | .jobProtectionRefused => { called with entry := some (markQuarantined row.entry) }

def killGeneration (generation : Nat) (children : List Child) : List Child :=
  children.map (fun c => if c.generation = generation ∧ c.phase = .alive then { c with phase := .dead }
    else c)

def hasLiveChild (row : TaskRow) (generation : Nat) : Bool :=
  row.children.any (fun c => decide (c.generation = generation) && c.alive)

/-- A process is never reported dead while an own child of the expected generation is alive. -/
def runTerminate (cfg : Config) (row : TaskRow) (answer : TerminateAnswer)
    (expected : TerminationExpectedTuple) : TaskRow × TerminationOutcome :=
  let killed :=
    if answer.kills && expected.valid then
      { row with children := killGeneration expected.pidGeneration row.children }
    else row
  let alive := hasLiveChild killed expected.pidGeneration
  match cfg.terminateWiring with
  | .outcome =>
    let kind := if alive && answer.kind.reportsDead then .uncertain else answer.kind
    let marked :=
      if answer.marksExited && expected.valid && kind.reportsDead then
        { killed with entry := (markExitedIfCurrent killed.entry expected.pidGeneration).1 }
      else killed
    (marked, ⟨kind, expected, answer.cause⟩)
  | .legacy =>
    let outcome := terminationOutcomeFromLegacy expected answer.legacyError
    (killed, if alive && outcome.kind.reportsDead then { outcome with kind := .uncertain }
      else outcome)
  | .unwired => (row, ⟨.targetAbsent, expected, some .other⟩)

theorem runTerminate_frame (cfg : Config) (row : TaskRow) (answer : TerminateAnswer)
    (expected : TerminationExpectedTuple) :
    ∃ children entry, (runTerminate cfg row answer expected).1 =
      { row with children := children, entry := entry } := by
  unfold runTerminate
  cases cfg.terminateWiring with
  | outcome | legacy =>
    dsimp only
    split_ifs <;> exact ⟨_, _, rfl⟩
  | unwired => exact ⟨_, _, rfl⟩

def armRespawnBackoffTimer (row : TaskRow) : TaskRow :=
  { row with
    respawnArmEpoch := row.respawnArmEpoch + 1
    respawnArmGen := some (row.respawnArmEpoch + 1) }

def holdSpawnInBackoff (row : TaskRow) : TaskRow :=
  armRespawnBackoffTimer
    { row with smState := some .backoffWaiting, entry := some (markBackoff row.entry) }

def admitsCreateProcess (turn : Turn) (row : TaskRow) : Bool :=
  !turn.integrityError && row.receipt.isNone

def quarantineParoleBaseDelay : Int := 900 * 10 ^ 9
def quarantineParoleMaxDelay : Int := 7200 * 10 ^ 9
def quarantineParoleStabilizeDwell : Int := 120 * 10 ^ 9

def quarantineParoleDelay : Nat → Int
  | 0 => quarantineParoleBaseDelay
  | attempts + 1 =>
    let d := quarantineParoleDelay attempts
    min (if d < quarantineParoleMaxDelay then d * 2 else d) quarantineParoleMaxDelay

def recordQuarantineParoleEligible (row : TaskRow) (now : Int) : TaskRow :=
  match row.quarantineParole with
  | some _ => row
  | none =>
    { row with quarantineParole := some ⟨0, now + quarantineParoleDelay 0, none⟩ }

/-- A refused admission and an unwired callback leave the spawning state; every other refusal stores
another. -/
def createProcess (cfg : Config) (turn : Turn) (task : String) (d : SupervisorDaemon)
    (row : TaskRow) : Effect :=
  if admitsCreateProcess turn row = false then ⟨row, [], some .other⟩
  else if isSerenaProxyDescriptor d = true ∧ d.hasRuntimeSpec = false then
    ⟨{ row with
        smState := some .quarantined
        quarantineParole := none
        entry := some (markQuarantined row.entry) }, [], some .other⟩
  else if cfg.spawnWired = false then ⟨row, [], some .other⟩
  else if turn.answers.pathHold then ⟨holdSpawnInBackoff row, [], some .other⟩
  else
    let passed := { row with gateCleared := false }
    if row.gateCleared = false ∧ turn.answers.portHold = true then
      ⟨holdSpawnInBackoff passed, [], some .other⟩
    else
      let spawned := runSpawn passed turn.answers.spawn
      match turn.answers.spawn with
      | .jobProtectionRefused =>
        ⟨{ spawned with smState := some .quarantined, quarantineParole := none }, [], some .other⟩
      | .started _ _ =>
        ⟨{ spawned with ownSpawned := true, reaperOutstanding := true },
          [{ kind := .sm .healthOK, taskName := task }], none⟩
      | .preChild => ⟨spawned, [{ kind := .sm .childExit, taskName := task }], some .other⟩
      | .postChild _ _ | .unowned _ => ⟨spawned, [], some .other⟩

def handleBackoffWaiting (cfg : Config) (now : Int) (row : TaskRow) : TaskRow :=
  let (stamps, count) := recordAndCountInWindow row.failures now cfg.failureWindow
  if cfg.quarantineThreshold ≤ count then
    recordQuarantineParoleEligible
      { row with
        failures := stamps
        smState := some .quarantined
        entry := some (markQuarantined row.entry) } now
  else
    armRespawnBackoffTimer { row with failures := stamps, entry := some (markBackoff row.entry) }

/-- A process that is proved dead and that no wait goroutine owns gets its exit synthesized. -/
def terminateProcess (cfg : Config) (turn : Turn) (task : String) (row : TaskRow) : Effect :=
  let expected := terminationExpectedTupleForTask row.entry
  let (after, outcome) := runTerminate cfg row turn.answers.terminate expected
  let posts :=
    if outcome.allowsSynthetic && !after.ownSpawned && !after.reaperOutstanding then
      [{ kind := .foreignTerminationExit, taskName := task, body := {
          pid := some outcome.expected.pid
          pidGeneration := some outcome.expected.pidGeneration
          startedAt := outcome.expected.startedAt } }]
    else []
  ⟨after, posts, outcome.legacyError⟩

def executeSideEffect (cfg : Config) (turn : Turn) (task : String) (d : SupervisorDaemon)
    (side : SideEffect) (newState : SMState) (ev : SMEvent) (row : TaskRow) : Effect :=
  match newState with
  | .spawning => if createsProcess side then createProcess cfg turn task d row else ⟨row, [], none⟩
  | .backoffWaiting => ⟨handleBackoffWaiting cfg turn.answers.now row, [], none⟩
  | .quarantined =>
    if ev = .timerDue then ⟨recordQuarantineParoleEligible row turn.answers.now, [], none⟩
    else ⟨row, [], none⟩
  | .exiting => terminateProcess cfg turn task row
  | .running | .idle => ⟨row, [], none⟩

/-- What no side effect touches: the queued action, the record of the transitions, and the reap
window. -/
structure EffectFrame (row after : TaskRow) : Prop where
  queuedAction : after.queuedAction = row.queuedAction
  transitions : after.transitions = row.transitions
  reap : after.pendingReap = row.pendingReap ∧ after.reapGeneration = row.reapGeneration

inductive Posted (task : String) : List LoopEvent → Prop
  | none : Posted task []
  | one {ev : LoopEvent} (own : ev.taskName = task) (other : ev.kind.smEvent ≠ .manualRestart) :
      Posted task [ev]

/-- A side effect keeps the frame, leaves the daemon where the transition put it, and posts at most
one event. -/
theorem executeSideEffect_spec (cfg : Config) (turn : Turn) (task : String) (d : SupervisorDaemon)
    (side : SideEffect) (newState : SMState) (ev : SMEvent) (row : TaskRow) :
    EffectFrame row (executeSideEffect cfg turn task d side newState ev row).row ∧
      (row.smState = some newState →
        (executeSideEffect cfg turn task d side newState ev row).row.state = newState ∨
          newState = .backoffWaiting ∨ newState = .spawning ∧ createsProcess side = true) ∧
      Posted task (executeSideEffect cfg turn task d side newState ev row).posts := by
  have kept (after : TaskRow) (same : after.smState = row.smState) (stored : row.smState = some newState) :
      after.state = newState := by rw [TaskRow.state, same, stored]; rfl
  have paroled (middle : TaskRow) (now : Int) :
      EffectFrame middle (recordQuarantineParoleEligible middle now) ∧
        (recordQuarantineParoleEligible middle now).smState = middle.smState := by
    unfold recordQuarantineParoleEligible
    split <;> exact ⟨⟨rfl, rfl, rfl, rfl⟩, rfl⟩
  unfold executeSideEffect
  cases newState with
  | spawning =>
    dsimp only
    split_ifs with asks
    · refine and_left_comm.mp ⟨fun _ => .inr (.inr ⟨rfl, asks⟩), ?_⟩
      unfold createProcess
      split_ifs
      all_goals try exact ⟨⟨rfl, rfl, rfl, rfl⟩, .none⟩
      cases turn.answers.spawn with
      | started | preChild => exact ⟨⟨rfl, rfl, rfl, rfl⟩, .one rfl nofun⟩
      | unowned recorded => cases recorded <;> exact ⟨⟨rfl, rfl, rfl, rfl⟩, .none⟩
      | _ => exact ⟨⟨rfl, rfl, rfl, rfl⟩, .none⟩
    · exact ⟨⟨rfl, rfl, rfl, rfl⟩, fun stored => .inl (kept row rfl stored), .none⟩
  | exiting =>
    obtain ⟨children, entry, after⟩ := runTerminate_frame cfg row turn.answers.terminate
      (terminationExpectedTupleForTask row.entry)
    unfold terminateProcess
    dsimp only
    rw [after]
    refine ⟨⟨rfl, rfl, rfl, rfl⟩, fun stored => .inl (kept _ rfl stored), ?_⟩
    split_ifs
    · exact .one rfl nofun
    · exact .none
  | backoffWaiting =>
    refine ⟨?_, fun _ => .inr (.inl rfl), .none⟩
    unfold handleBackoffWaiting
    dsimp only
    split_ifs
    · exact { (paroled _ turn.answers.now).1 with }
    · exact ⟨rfl, rfl, rfl, rfl⟩
  | quarantined =>
    dsimp only
    split_ifs
    · obtain ⟨frame, same⟩ := paroled row turn.answers.now
      exact ⟨frame, fun stored => .inl (kept _ same stored), .none⟩
    · exact ⟨⟨rfl, rfl, rfl, rfl⟩, fun stored => .inl (kept row rfl stored), .none⟩
  | running | idle => exact ⟨⟨rfl, rfl, rfl, rfl⟩, fun stored => .inl (kept row rfl stored), .none⟩

/-- The pending receipt of exactly this process moves on to `exitObserved`, when the write succeeds.
-/
def advanceExactStopReceiptExit (persistOK : Bool) (tuple : TerminationExpectedTuple)
    (row : TaskRow) : TaskRow :=
  match row.receipt with
  | none => row
  | some receipt =>
    if terminationTupleMatchesReceipt tuple receipt = true ∧ receipt.phase = .stopRequested ∧
        persistOK = true then
      match nextStopSettlementReceipt receipt .exitObserved none "" with
      | some next => { row with receipt := some next }
      | none => row
    else row

def recordExactStopReceiptExit (kind : EventKind) (body : EventBody) (persistOK : Bool)
    (row : TaskRow) : TaskRow :=
  match kind, body.pid, body.pidGeneration, body.startedAt with
  | .sm _, _, _, _ => row
  | _, some pid, some generation, some startedAt =>
    advanceExactStopReceiptExit persistOK ⟨pid, some startedAt, generation, true⟩ row
  | _, _, _, _ => row

def isStaleExit (ev : SMEvent) (body : EventBody) (row : TaskRow) : Bool :=
  match body.pidGeneration with
  | some gen => decide (ev = .childExit ∧ 0 < gen ∧ row.entry.isSome = true ∧
      gen < generation row.entry)
  | none => false

def lookupDescriptorWithShadow (turn : Turn) (row : TaskRow) : Option SupervisorDaemon :=
  turn.cached.or row.reapShadow

def exitBindRefused : Int := 3
def reallocationCap : Nat := 3

/-- The exits of a running dynamic-pool proxy with budget left in its reallocation window. -/
def takesBindRefusedExit (cfg : Config) (now : Int) (d : SupervisorDaemon) (state : SMState)
    (ev : SMEvent) (body : EventBody) (row : TaskRow) : Bool :=
  decide (state = .running ∧ ev = .childExit ∧ body.exitCode = some exitBindRefused) &&
    isDynamicPoolProxyDescriptor d &&
    decide (countInWindow row.reallocations now cfg.failureWindow < reallocationCap)

def smContext (cfg : Config) (turn : Turn) (row : TaskRow) : SMContext where
  intentDesired := turn.intent.effectiveDesired
  intentIsActiveStop := turn.intent.isActiveStop turn.answers.now
  failures := countInWindow row.failures turn.answers.now cfg.failureWindow
  queuedAction := row.queuedAction
  gracefulInProgress := turn.graceful

/-- A transition the handler is about to make. -/
structure Prepared where
  row : TaskRow
  descriptor : SupervisorDaemon
  current : SMState
  result : TransitionResult

inductive TurnPlan
  | finished (row : TaskRow)
  | moves (prepared : Prepared)

/-- The row after a liveness restart that reports the runtime cleared, and the state that the
turn then starts from. -/
def clearReportedRuntime (ev : SMEvent) (body : EventBody) (row : TaskRow) : TaskRow × SMState :=
  if ev = .manualRestart ∧ body.runtimeCleared = true then
    let cleared := { row with entry := some (markExited row.entry) }
    (cleared, if row.state = .running then .idle else row.state)
  else (row, row.state)

def planTransition (cfg : Config) (turn : Turn) (d : SupervisorDaemon) (ev : SMEvent)
    (current : SMState) (row : TaskRow) : TurnPlan :=
  let result := transition current ev (smContext cfg turn row)
  if result.matched then .moves ⟨row, d, current, result⟩ else .finished row

def planResolved (cfg : Config) (turn : Turn) (d : SupervisorDaemon) (ev : SMEvent)
    (body : EventBody) (row : TaskRow) : TurnPlan :=
  if ev = .timerDue ∧ row.state = .backoffWaiting ∧ row.pendingReap.isSome = true then
    .finished { row with reapDeferredTimerDue := true }
  else if ev = .childExit ∧ row.state = .running ∧ body.cleanExit = true then
    .finished { row with smState := some .idle }
  else
    let (cleared, current) := clearReportedRuntime ev body row
    if takesBindRefusedExit cfg turn.answers.now d current ev body cleared then
      .finished (armRespawnBackoffTimer
        { cleared with
          smState := some .backoffWaiting
          entry := some (markBackoff cleared.entry) })
    else planTransition cfg turn d ev current cleared

/-- `handleLoopEvent` up to the table: the gate, the stale-exit guard, the orphan drop, and what
lies behind them. -/
def planTurn (cfg : Config) (turn : Turn) (kind : EventKind) (body : EventBody) (row : TaskRow) :
    TurnPlan :=
  let ev := kind.smEvent
  let recorded := recordExactStopReceiptExit kind body turn.answers.persistOK row
  if ev = .manualRestart ∧ body.requireRunningIntent = true ∧
      turn.intent.suppressesAutomaticStart turn.answers.now = true then
    .finished { recorded with gateCleared := false }
  else if isStaleExit ev body recorded then .finished recorded
  else
    let heard := if ev = .childExit then { recorded with reaperOutstanding := false } else recorded
    match lookupDescriptorWithShadow turn heard with
    | none => .finished { heard with gateCleared := false }
    | some d => planResolved cfg turn d ev body heard

def storeTransition (prepared : Prepared) : TaskRow :=
  let row := prepared.row
  let result := prepared.result
  { row with
    smState := some result.newState
    gateCleared := row.gateCleared && decide (result.newState = .spawning)
    queuedAction := queuedAfter prepared.current result row.queuedAction
    failures := if resetsFailures result.side then [] else row.failures
    reallocations := if resetsFailures result.side then [] else row.reallocations
    entry := if result.newState = .idle ∧ prepared.current ≠ .idle then some (markExited row.entry)
      else row.entry
    transitions := row.transitions ++ [result.side] }

def handleTaskEvent (cfg : Config) (turn : Turn) (task : String) (kind : EventKind)
    (body : EventBody) (row : TaskRow) : TaskRow × List LoopEvent :=
  match planTurn cfg turn kind body row with
  | .finished after => (after, [])
  | .moves prepared =>
    let effect := executeSideEffect cfg turn task prepared.descriptor prepared.result.side
      prepared.result.newState kind.smEvent (storeTransition prepared)
    (effect.row, effect.posts)

/-- One visit of `runQuarantineParoleTick`: a quarantined task whose cooldown is over gets one
stop-gated restart. -/
def paroleVisit (now : Int) (intent : DaemonIntent) (task : String) (row : TaskRow) :
    TaskRow × List LoopEvent :=
  match row.quarantineParole, row.smState with
  | none, _ => (row, [])
  | some _, none => ({ row with quarantineParole := none }, [])
  | some entry, some .running =>
    let since := entry.healthySince.getD now
    if quarantineParoleStabilizeDwell ≤ now - since then ({ row with quarantineParole := none }, [])
    else ({ row with quarantineParole := some { entry with healthySince := some since } }, [])
  | some _, some .idle => ({ row with quarantineParole := none }, [])
  | some entry, some .quarantined =>
    let waiting := { entry with healthySince := none }
    if now < entry.nextAttemptAt ∨ intent.suppressesAutomaticStart now = true then
      ({ row with quarantineParole := some waiting }, [])
    else
      ({ row with
          quarantineParole := some
            { waiting with
              attempts := entry.attempts + 1
              nextAttemptAt := now + quarantineParoleDelay (entry.attempts + 1) } },
        [{ kind := .sm .manualRestart, taskName := task, body := { requireRunningIntent := true } }])
  | some entry, some _ =>
    ({ row with quarantineParole := some { entry with healthySince := none } }, [])

/-- A parole visit writes the parole entry, and posts a stop-gated restart only for a quarantined
task. -/
theorem paroleVisit_cases (now : Int) (intent : DaemonIntent) (task : String) (row : TaskRow) :
    ∃ parole, paroleVisit now intent task row = ({ row with quarantineParole := parole }, []) ∨
      (row.smState = some .quarantined ∧ intent.suppressesAutomaticStart now = false ∧
        paroleVisit now intent task row = ({ row with quarantineParole := parole },
          [{ kind := .sm .manualRestart, taskName := task,
             body := { requireRunningIntent := true } }])) := by
  unfold paroleVisit
  split
  · exact ⟨row.quarantineParole, .inl rfl⟩
  · exact ⟨none, .inl rfl⟩
  · dsimp only
    split_ifs
    · exact ⟨none, .inl rfl⟩
    · exact ⟨_, .inl rfl⟩
  · exact ⟨none, .inl rfl⟩
  next entry paroled quarantined =>
    split_ifs with waits
    · exact ⟨_, .inl rfl⟩
    · refine ⟨_, .inr ⟨quarantined, ?_, rfl⟩⟩
      have free := (not_or.mp waits).2
      simpa using free
  · exact ⟨_, .inl rfl⟩

/-- The two rows agree on the state, the queued action, the processes, the records and the reap
window. -/
structure SameCore (row after : TaskRow) : Prop where
  smState : after.smState = row.smState
  queuedAction : after.queuedAction = row.queuedAction
  generation : generation after.entry = generation row.entry
  children : after.children = row.children
  spawnCalls : after.spawnCalls = row.spawnCalls
  transitions : after.transitions = row.transitions
  reapShadow : after.reapShadow = row.reapShadow
  receipt : row.receipt = none → after.receipt = none
  reap : after.pendingReap = row.pendingReap ∧ after.reapGeneration = row.reapGeneration

theorem SameCore.refl
    (row : TaskRow) : SameCore row row := ⟨rfl, rfl, rfl, rfl, rfl, rfl, rfl, id, rfl, rfl⟩

theorem SameCore.trans {row middle after : TaskRow} (left : SameCore row middle)
    (right : SameCore middle after) : SameCore row after :=
  ⟨right.smState.trans left.smState, right.queuedAction.trans left.queuedAction,
    right.generation.trans left.generation, right.children.trans left.children,
    right.spawnCalls.trans left.spawnCalls, right.transitions.trans left.transitions,
    right.reapShadow.trans left.reapShadow, fun settled => right.receipt (left.receipt settled),
    right.reap.1.trans left.reap.1, right.reap.2.trans left.reap.2⟩

theorem SameCore.state {row after : TaskRow} (core : SameCore row after) :
    after.state = row.state := by
  unfold TaskRow.state
  rw [core.smState]

inductive PlanCase (cfg : Config) (turn : Turn) (kind : EventKind) (body : EventBody)
    (row : TaskRow) : TurnPlan → Prop
  | gated {after : TaskRow} (core : SameCore row after) (restart : kind.smEvent = .manualRestart) :
      PlanCase cfg turn kind body row (.finished after)
  | stale {after : TaskRow} (core : SameCore row after)
      (stale : isStaleExit kind.smEvent body row = true) :
      PlanCase cfg turn kind body row (.finished after)
  | orphaned {after : TaskRow} (core : SameCore row after)
      (missing : lookupDescriptorWithShadow turn row = none) :
      PlanCase cfg turn kind body row (.finished after)
  | deferred {after : TaskRow} (core : SameCore row after) (waits : row.state = .backoffWaiting) :
      PlanCase cfg turn kind body row (.finished after)
  | idled {middle : TaskRow} (core : SameCore row middle) (exit : kind.smEvent = .childExit)
      (fresh : isStaleExit kind.smEvent body row = false) (running : row.state = .running) :
      PlanCase cfg turn kind body row (.finished { middle with smState := some .idle })
  | refused {middle : TaskRow} (core : SameCore row middle) (exit : kind.smEvent = .childExit)
      (fresh : isStaleExit kind.smEvent body row = false) (running : row.state = .running) :
      PlanCase cfg turn kind body row
        (.finished (armRespawnBackoffTimer
          { middle with
            smState := some .backoffWaiting
            entry := some (markBackoff middle.entry) }))
  | unmatched {after : TaskRow} {current : SMState} (core : SameCore row after)
      (fresh : isStaleExit kind.smEvent body row = false)
      (started : current = row.state ∨ kind.smEvent = .manualRestart ∧ row.state = .running)
      (noRow : (transition current kind.smEvent (smContext cfg turn after)).matched = false) :
      PlanCase cfg turn kind body row (.finished after)
  | moves {prepared : Prepared} (core : SameCore row prepared.row)
      (fresh : isStaleExit kind.smEvent body row = false)
      (ungated : ¬(kind.smEvent = .manualRestart ∧ body.requireRunningIntent = true ∧
        turn.intent.suppressesAutomaticStart turn.answers.now = true))
      (found : lookupDescriptorWithShadow turn row = some prepared.descriptor)
      (started : prepared.current = row.state ∨
        kind.smEvent = .manualRestart ∧ body.runtimeCleared = true ∧ row.state = .running ∧
          prepared.current = .idle)
      (answer : prepared.result =
        transition prepared.current kind.smEvent (smContext cfg turn prepared.row))
      (matched : prepared.result.matched = true) :
      PlanCase cfg turn kind body row (.moves prepared)

private theorem recordExactStopReceiptExit_core (kind : EventKind) (body : EventBody)
    (persistOK : Bool) (row : TaskRow) :
    SameCore row (recordExactStopReceiptExit kind body persistOK row) ∧
      (recordExactStopReceiptExit kind body persistOK row).entry = row.entry := by
  have advance : ∀ tuple, SameCore row (advanceExactStopReceiptExit persistOK tuple row) ∧
      (advanceExactStopReceiptExit persistOK tuple row).entry = row.entry := by
    intro tuple
    unfold advanceExactStopReceiptExit
    split
    · exact ⟨.refl row, rfl⟩
    next receipt pending =>
      split_ifs
      · split
        · exact ⟨{ SameCore.refl row with receipt := fun settled => nomatch pending.symm.trans settled },
            rfl⟩
        · exact ⟨.refl row, rfl⟩
      · exact ⟨.refl row, rfl⟩
  unfold recordExactStopReceiptExit
  split
  · exact ⟨.refl row, rfl⟩
  · exact advance _
  · exact ⟨.refl row, rfl⟩

private theorem clearReportedRuntime_core (ev : SMEvent) (body : EventBody) (row : TaskRow) :
    SameCore row (clearReportedRuntime ev body row).1 ∧
      ((clearReportedRuntime ev body row).2 = row.state ∨
        ev = .manualRestart ∧ body.runtimeCleared = true ∧ row.state = .running ∧
          (clearReportedRuntime ev body row).2 = .idle) := by
  unfold clearReportedRuntime
  split_ifs with cleared running
  · exact ⟨{ SameCore.refl row with }, .inr ⟨cleared.1, cleared.2, running, rfl⟩⟩
  · exact ⟨{ SameCore.refl row with }, .inl rfl⟩
  · exact ⟨.refl row, .inl rfl⟩

private theorem planResolved_cases {cfg : Config} {turn : Turn} {kind : EventKind}
    {body : EventBody} {row heard : TaskRow} {d : SupervisorDaemon} (core : SameCore row heard)
    (fresh : isStaleExit kind.smEvent body row = false)
    (ungated : ¬(kind.smEvent = .manualRestart ∧ body.requireRunningIntent = true ∧
      turn.intent.suppressesAutomaticStart turn.answers.now = true))
    (found : lookupDescriptorWithShadow turn row = some d) :
    PlanCase cfg turn kind body row (planResolved cfg turn d kind.smEvent body heard) := by
  obtain ⟨clearedCore, started⟩ := clearReportedRuntime_core kind.smEvent body heard
  unfold planResolved
  split_ifs with deferred clean
  · exact .deferred { core with } (core.state ▸ deferred.2.1)
  · exact .idled core clean.1 fresh (core.state ▸ clean.2.1)
  · generalize clearReportedRuntime kind.smEvent body heard = pair at *
    obtain ⟨cleared, current⟩ := pair
    dsimp only at clearedCore started ⊢
    rw [core.state] at started
    split_ifs with refused
    · simp only [takesBindRefusedExit, Bool.and_eq_true, decide_eq_true_eq] at refused
      obtain ⟨⟨running, exit, _⟩, _⟩ := refused.1
      refine .refused (core.trans clearedCore) exit fresh ?_
      rcases started with same | restarted
      · exact same ▸ running
      · exact restarted.2.2.1
    · unfold planTransition
      dsimp only
      split_ifs with matched
      · exact .moves (core.trans clearedCore) fresh ungated found started rfl matched
      · refine .unmatched (core.trans clearedCore) fresh ?_ (by simpa using matched)
        exact started.imp id (fun restarted => ⟨restarted.1, restarted.2.2.1⟩)

theorem planTurn_cases (cfg : Config) (turn : Turn) (kind : EventKind) (body : EventBody)
    (row : TaskRow) : PlanCase cfg turn kind body row (planTurn cfg turn kind body row) := by
  obtain ⟨recordedCore, recordedEntry⟩ :=
    recordExactStopReceiptExit_core kind body turn.answers.persistOK row
  unfold planTurn
  dsimp only
  generalize recordExactStopReceiptExit kind body turn.answers.persistOK row = recorded at *
  have staleSame : isStaleExit kind.smEvent body recorded = isStaleExit kind.smEvent body row := by
    unfold isStaleExit
    rw [recordedEntry]
  rw [staleSame]
  by_cases gate : kind.smEvent = .manualRestart ∧ body.requireRunningIntent = true ∧
      turn.intent.suppressesAutomaticStart turn.answers.now = true
  · rw [if_pos gate]
    exact .gated { recordedCore with } gate.1
  · rw [if_neg gate]
    cases stale : isStaleExit kind.smEvent body row with
    | true => exact .stale recordedCore stale
    | false =>
      have heardCore : SameCore row (if kind.smEvent = .childExit then
          { recorded with reaperOutstanding := false } else recorded) := by
        split_ifs
        · exact { recordedCore with }
        · exact recordedCore
      generalize (if kind.smEvent = .childExit then
          { recorded with reaperOutstanding := false } else recorded) = heard at *
      have sameLookup : lookupDescriptorWithShadow turn heard =
          lookupDescriptorWithShadow turn row := by
        unfold lookupDescriptorWithShadow
        rw [heardCore.reapShadow]
      rw [sameLookup]
      cases found : lookupDescriptorWithShadow turn row with
      | none =>
        exact .orphaned { heardCore with } found
      | some d => exact planResolved_cases heardCore stale gate found

end McpLocalHub.Supervisor.Controller
