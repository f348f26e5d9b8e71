/- Module: Supervisor/StopBatch
   source: internal/cli/supervise_stop_batch.go, internal/cli/supervise_target_settlement.go
   digest: The state of the whole supervisor and the stop batches applied on its loop. -/

import McpLocalHub.Supervisor.Controller

set_option autoImplicit false

namespace McpLocalHub.Supervisor.StopBatch

open StateMachine Intents RuntimeTracker Controller

/-- The supervisor: a row for every task name, the self channel, the caches and the fleet-wide
flags. -/
structure World where
  rows : String → TaskRow
  selfCh : List LoopEvent
  intentCache : Option SupervisorIntentFile
  stops : List (String × DaemonIntent)
  graceful : Bool
  integrityError : Bool
  settlementEpoch : Nat

def World.turn (w : World) (task : String) (answers : Answers) : Turn where
  cached := lookupCanonical w.intentCache task
  intent := lookupStop w.stops task
  graceful := w.graceful
  integrityError := w.integrityError
  answers := answers

def World.store (w : World) (task : String) (result : TaskRow × List LoopEvent) : World :=
  { w with
    rows := Function.update w.rows task result.1
    selfCh := w.selfCh ++ result.2 }

def World.setRow (w : World) (task : String) (row : TaskRow) : World :=
  { w with rows := Function.update w.rows task row }

structure StopBatchTarget where
  taskName : String
  expectedPort : Nat

structure StopBatchCommand where
  protocolVersion : Nat
  batchID : String
  targets : List StopBatchTarget
  intentGeneration : Nat
  supervisorIntent : Option SupervisorIntentFile
  unifiedStops : Option (List (String × DaemonIntent))

/-- Written, failed with the file unchanged, or written while a target's runtime changed. -/
inductive BatchWrite
  | ok | persistFailed | raced

def hasActiveStop (stops : List (String × DaemonIntent)) (task : String) (now : Int) : Bool :=
  match stops.lookup task with
  | none => false
  | some stop => stop.isActiveStop now

/-- A command older than the cached intent is taken only when that intent stops every target too. -/
def validateStopBatchIntentSelection (w : World) (command : StopBatchCommand) (now : Int) : Bool :=
  match w.intentCache with
  | none => true
  | some current =>
    if command.intentGeneration < current.intentGeneration then
      command.targets.all (fun target => hasActiveStop current.stops target.taskName now)
    else true

def sameStops (left right : List (String × DaemonIntent)) : Bool :=
  (left.map Prod.fst ++ right.map Prod.fst).all
    (fun name => decide (left.lookup name = right.lookup name))

def stopContext (cfg : Config) (now : Int) (row : TaskRow) : SMContext where
  intentDesired := .stopped
  intentIsActiveStop := true
  failures := countInWindow row.failures now cfg.failureWindow
  queuedAction := row.queuedAction
  gracefulInProgress := false

def preflightTarget (cfg : Config) (w : World) (file : SupervisorIntentFile)
    (stops : List (String × DaemonIntent)) (now : Int) (target : StopBatchTarget) : Bool :=
  let row := w.rows target.taskName
  let result := transition row.state .intentUpdate (stopContext cfg now row)
  decide (target.taskName = canonicalSupervisorTaskName target.taskName ∧
      0 < target.expectedPort ∧ target.expectedPort ≤ 65535) &&
    decide ((file.findSupervisorDaemonByTaskName target.taskName).bind effectiveDaemonPort =
      some target.expectedPort) &&
    hasActiveStop stops target.taskName now &&
    stopSettlementAdmissionEntry row.entry &&
    result.matched &&
    !(contains result.side.text "terminate" && decide (cfg.terminateWiring = .unwired))

def preflightStopBatch (cfg : Config) (w : World) (command : StopBatchCommand)
    (file : SupervisorIntentFile) (stops : List (String × DaemonIntent)) (now : Int) : Bool :=
  !w.integrityError &&
    decide (file.intentGeneration = command.intentGeneration) &&
    sameStops file.stops stops &&
    validateStopBatchIntentSelection w command now &&
    decide (command.targets.map StopBatchTarget.taskName).Nodup &&
    command.targets.all (preflightTarget cfg w file stops now)

def stopReceiptRecoveryIdentityMatches (receipt : StopSettlementReceipt)
    (phase : StopSettlementPhase) (entry : RuntimeEntry) : Bool :=
  match receipt.mode, phase with
  | .stop, .stopRequested =>
    decide (entry.currentPID = receipt.pid ∧ entry.pidGeneration = receipt.pidGeneration ∧
      entry.startedAt.isSome = true ∧ entry.startedAt = receipt.startedAt)
  | _, .exitObserved | _, .portReleased =>
    decide (entry.state = .idle ∧ entry.currentPID = 0 ∧
      entry.pidGeneration = receipt.pidGeneration)
  | _, _ => false

def joinsPendingReceipt (w : World) (current : SupervisorIntentFile) (now : Int)
    (target : StopBatchTarget) (receipt : StopSettlementReceipt) : Bool :=
  decide (receipt.phase ≠ .failed ∧ receipt.port = target.expectedPort) &&
    decide ((current.findSupervisorDaemonByTaskName target.taskName).bind effectiveDaemonPort =
      some target.expectedPort) &&
    hasActiveStop current.stops target.taskName now &&
    (match (w.rows target.taskName).entry with
    | none => false
    | some entry => stopReceiptRecoveryIdentityMatches receipt receipt.phase entry)

/-- `none` is an error, `some true` means that every target is already being stopped. -/
def joinPendingStopBatch (w : World) (command : StopBatchCommand) (now : Int) : Option Bool :=
  match w.intentCache with
  | none => none
  | some current =>
    let pending := command.targets.filterMap
      (fun target => ((w.rows target.taskName).receipt).map (fun receipt => (target, receipt)))
    if pending.all (fun p => joinsPendingReceipt w current now p.1 p.2) = false then none
    else if pending.length = 0 then some false
    else if pending.length ≠ command.targets.length then none
    else some true

def selectStopBatchIntent (w : World) (command : StopBatchCommand) (file : SupervisorIntentFile)
    (stops : List (String × DaemonIntent)) : World :=
  match w.intentCache with
  | some current =>
    if command.intentGeneration < current.intentGeneration then w
    else { w with intentCache := some file, stops := stops }
  | none => { w with intentCache := some file, stops := stops }

/-- Of the loop handler's write-backs only the queued stop: a queued respawn of an exiting task
stays. -/
def storeAuthoritativeStop (row : TaskRow) (result : TransitionResult) : TaskRow :=
  { row with
    queuedAction := if contains result.side.text "queued_action=stop" then .stop
      else row.queuedAction
    smState := some result.newState
    entry := if result.newState = .idle ∧ row.state ≠ .idle then some (markExited row.entry)
      else row.entry
    transitions := row.transitions ++ [result.side] }

def applyAuthoritativeStopTransition (cfg : Config) (turn : Turn) (task : String)
    (d : SupervisorDaemon) (row : TaskRow) : Effect :=
  let result := transition row.state .intentUpdate (stopContext cfg turn.answers.now row)
  if result.matched = false then ⟨row, [], some .other⟩
  else
    let stored := storeAuthoritativeStop row result
    if result.persistBefore = true ∧ turn.answers.persistOK = false then ⟨stored, [], some .other⟩
    else executeSideEffect cfg turn task d result.side result.newState .intentUpdate stored

def failReceipt (answers : Answers) (row : TaskRow) : TaskRow :=
  match row.receipt with
  | none => row
  | some receipt =>
    match nextStopSettlementReceipt receipt .failed (some .terminationFailed) answers.stopError with
    | some next => if answers.persistOK then { row with receipt := some next } else row
    | none => row

def applyStopTarget (cfg : Config) (turn : Turn) (task : String) (d : SupervisorDaemon)
    (row : TaskRow) : TaskRow × List LoopEvent :=
  let effect := applyAuthoritativeStopTransition cfg turn task d row
  match effect.error with
  | none => (effect.row, effect.posts)
  | some _ => (failReceipt turn.answers effect.row, effect.posts)

def beginReceipts (batchID : String) : Nat → Nat → List StopBatchTarget → World → World
  | _, _, [], w => w
  | epoch, index, target :: rest, w =>
    let row := w.rows target.taskName
    let receipt := row.entry.map
      (beginStopSettlement batchID target.taskName (epoch + 1) index target.expectedPort)
    beginReceipts batchID (epoch + 1) (index + 1) rest
      { w.setRow target.taskName { row with receipt := receipt } with settlementEpoch := epoch + 1 }

def applyTargets (cfg : Config) (file : SupervisorIntentFile) (answers : String → Answers) :
    List StopBatchTarget → World → World
  | [], w => w
  | target :: rest, w =>
    let task := target.taskName
    match file.findSupervisorDaemonByTaskName task with
    | none =>
      applyTargets cfg file answers rest
        (w.store task (failReceipt (answers task) (w.rows task), []))
    | some d =>
      applyTargets cfg file answers rest
        (w.store task (applyStopTarget cfg (w.turn task (answers task)) task d (w.rows task)))

def StopBatchCommand.snapshot (command : StopBatchCommand) :
    Option (SupervisorIntentFile × List (String × DaemonIntent)) :=
  if command.protocolVersion = 1 ∧ command.batchID ≠ "" ∧ command.targets ≠ [] ∧
      command.intentGeneration ≠ 0 then
    match command.supervisorIntent, command.unifiedStops with
    | some file, some stops => some (file, stops)
    | _, _ => none
  else none

/-- The checks in front of the durable write. A refused or joined batch has none. -/
def admittedBatch (cfg : Config) (w : World) (command : StopBatchCommand) (now : Int) :
    Option (SupervisorIntentFile × World) :=
  match command.snapshot with
  | none => none
  | some (file, stops) =>
    if preflightStopBatch cfg w command file stops now = false then none
    else if joinPendingStopBatch w command now = some false then
      some (file, selectStopBatchIntent w command file stops)
    else none

def handleStopBatchOnLoop (cfg : Config) (w : World) (command : StopBatchCommand) (now : Int)
    (write : BatchWrite) (answers : String → Answers) : World :=
  match admittedBatch cfg w command now with
  | none => w
  | some (file, selected) =>
    match write with
    | .persistFailed => selected
    | .raced => { selected with integrityError := true }
    | .ok =>
      applyTargets cfg file answers command.targets
        (beginReceipts command.batchID w.settlementEpoch 0 command.targets selected)

def retriesFailure (failureClass : Option StopSettlementFailureClass) : Bool :=
  match failureClass with
  | some .processAlive | some .listenerAlive | some .settlementTimeout
  | some .settlementCanceled | some .terminationFailed => true
  | _ => false

/-- A failed receipt is resumed first, when its failure may be retried and the write succeeds. -/
def recoveredReceipt (persistOK : Bool) (receipt : StopSettlementReceipt) :
    Option StopSettlementReceipt :=
  match receipt.phase, receipt.resumePhase with
  | .failed, some resume =>
    if retriesFailure receipt.failureClass = true ∧ persistOK = true then
      nextStopSettlementReceipt receipt resume none ""
    else none
  | .failed, none => none
  | _, _ => some receipt

def effectivePhase (receipt : StopSettlementReceipt) : StopSettlementPhase :=
  if receipt.phase = .failed then receipt.resumePhase.getD .failed else receipt.phase

/-- The pending stop is applied again under an active stop and for the very process the receipt
names. -/
def recoverStopReceiptOnLoop (cfg : Config) (turn : Turn) (task : String) (row : TaskRow) :
    TaskRow × List LoopEvent :=
  match row.receipt, turn.cached, row.entry with
  | some receipt, some d, some entry =>
    if effectiveDaemonPort d = some receipt.port ∧
        turn.intent.isActiveStop turn.answers.now = true ∧
        stopReceiptRecoveryIdentityMatches receipt (effectivePhase receipt) entry = true then
      match recoveredReceipt turn.answers.persistOK receipt with
      | none => (row, [])
      | some next =>
        let resumed := { row with receipt := some next }
        if next.mode = .stop ∧ next.phase = .stopRequested then
          applyStopTarget cfg turn task d resumed
        else (resumed, [])
    else (row, [])
  | _, _, _ => (row, [])

/-- Nothing, a change of the receipt alone, or another application of the stop under an active
directive. -/
theorem recover_cases (cfg : Config) (turn : Turn) (task : String) (row : TaskRow) :
    (∃ receipt, recoverStopReceiptOnLoop cfg turn task row = ({ row with receipt := receipt }, [])) ∨
      ∃ receipt d, turn.cached = some d ∧ turn.intent.isActiveStop turn.answers.now = true ∧
        recoverStopReceiptOnLoop cfg turn task row =
          applyStopTarget cfg turn task d { row with receipt := receipt } := by
  have untouched : ({ row with receipt := row.receipt }, ([] : List LoopEvent)) = (row, []) := rfl
  unfold recoverStopReceiptOnLoop
  split
  next receipt d entry pending cached tracked =>
    split_ifs with applies
    · split
      · exact .inl ⟨row.receipt, untouched.symm⟩
      · next resumed recovered =>
          split_ifs
          · exact .inr ⟨some resumed, d, cached, applies.2.1, rfl⟩
          · exact .inl ⟨some resumed, rfl⟩
    · exact .inl ⟨row.receipt, untouched.symm⟩
  · exact .inl ⟨row.receipt, untouched.symm⟩

theorem failReceipt_core (answers : Answers) (row : TaskRow) :
    SameCore row (failReceipt answers row) := by
  unfold failReceipt
  split
  · exact .refl row
  next receipt pending =>
    split
    · split_ifs
      · refine ⟨rfl, rfl, rfl, rfl, rfl, rfl, rfl, ?_, rfl, rfl⟩
        intro settled
        rw [pending] at settled
        cases settled
      · exact .refl row
    · exact .refl row

theorem applyStopTarget_cases (cfg : Config) (turn : Turn) (task : String) (d : SupervisorDaemon)
    (row : TaskRow) :
    SameCore (applyAuthoritativeStopTransition cfg turn task d row).row
        (applyStopTarget cfg turn task d row).1 ∧
      (applyStopTarget cfg turn task d row).2 =
        (applyAuthoritativeStopTransition cfg turn task d row).posts := by
  unfold applyStopTarget
  dsimp only
  split
  · exact ⟨.refl _, rfl⟩
  · exact ⟨failReceipt_core _ _, rfl⟩

theorem selectStopBatchIntent_cases (w : World) (command : StopBatchCommand)
    (file : SupervisorIntentFile) (stops : List (String × DaemonIntent)) :
    selectStopBatchIntent w command file stops = w ∨
      selectStopBatchIntent w command file stops =
        { w with intentCache := some file, stops := stops } := by
  unfold selectStopBatchIntent
  split
  · split_ifs
    · exact .inl rfl
    · exact .inr rfl
  · exact .inr rfl

variable {cfg : Config} {w : World} {now : Int} {file : SupervisorIntentFile}

/-- An admitted batch has distinct targets, an active stop and a descriptor for each, and changed
only the caches. -/
theorem admittedBatch_spec {command : StopBatchCommand} {selected : World}
    (admitted : admittedBatch cfg w command now = some (file, selected)) :
    ∃ stops, command.snapshot = some (file, stops) ∧
      (command.targets.map StopBatchTarget.taskName).Nodup ∧
      (∀ target ∈ command.targets, preflightTarget cfg w file stops now target = true) ∧
      (selected = w ∨ selected = { w with intentCache := some file, stops := stops }) := by
  unfold admittedBatch at admitted
  split at admitted
  · cases admitted
  next snapshotFile stops snapshot =>
    split_ifs at admitted with refused joined
    obtain ⟨rfl, rfl⟩ := Prod.mk.inj (Option.some.inj admitted)
    have passed : preflightStopBatch cfg w command snapshotFile stops now = true := by
      simpa using refused
    simp only [preflightStopBatch, Bool.and_eq_true, decide_eq_true_eq, List.all_eq_true] at passed
    exact ⟨stops, snapshot, passed.1.2, passed.2, selectStopBatchIntent_cases w command _ stops⟩

theorem preflightTarget_canonical {stops : List (String × DaemonIntent)} {target : StopBatchTarget}
    (passed : preflightTarget cfg w file stops now target = true) :
    canonicalSupervisorTaskName target.taskName = target.taskName := by
  simp only [preflightTarget, Bool.and_eq_true, decide_eq_true_eq] at passed
  exact passed.1.1.1.1.1.1.symm

theorem beginReceipts_spec (batchID : String) (targets : List StopBatchTarget) (epoch index : Nat)
    (w : World) :
    (beginReceipts batchID epoch index targets w).selfCh = w.selfCh ∧
      (∀ task answers, (beginReceipts batchID epoch index targets w).turn task answers =
        w.turn task answers) ∧
      (∀ task, (beginReceipts batchID epoch index targets w).rows task =
        { w.rows task with
          receipt := ((beginReceipts batchID epoch index targets w).rows task).receipt }) ∧
      ∀ task, task ∉ targets.map StopBatchTarget.taskName →
        (beginReceipts batchID epoch index targets w).rows task = w.rows task := by
  induction targets generalizing epoch index w with
  | nil => exact ⟨rfl, fun _ _ => rfl, fun _ => rfl, fun _ _ => rfl⟩
  | cons target rest ih =>
    simp only [beginReceipts]
    obtain ⟨selfCh, turns, rows, others⟩ := ih (epoch + 1) (index + 1)
      { w.setRow target.taskName { w.rows target.taskName with
          receipt := (w.rows target.taskName).entry.map
            (beginStopSettlement batchID target.taskName (epoch + 1) index target.expectedPort) }
        with settlementEpoch := epoch + 1 }
    refine ⟨selfCh, turns, ?_, ?_⟩
    · intro task
      refine (rows task).trans ?_
      by_cases same : task = target.taskName
      · subst same
        simp only [World.setRow, Function.update_self]
      · simp only [World.setRow, Function.update_of_ne same]
    · intro task absent
      have split := not_or.mp (by simpa only [List.map_cons, List.mem_cons] using absent)
      rw [others task split.2]
      simp only [World.setRow, Function.update_of_ne split.1]

end McpLocalHub.Supervisor.StopBatch
