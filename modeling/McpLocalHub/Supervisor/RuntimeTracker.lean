/- Module: Supervisor/RuntimeTracker
   source: internal/cli/supervisor_runtime_tracker.go, internal/cli/termination_outcome.go
   digest: The tracker's row of one task, and the outcomes of a termination. -/

import McpLocalHub.Foundation.GoText

set_option autoImplicit false

namespace McpLocalHub.Supervisor.RuntimeTracker

open Foundation.GoText (trimSpace)

inductive RuntimeState
  | idle | running | backoff | quarantine
  deriving DecidableEq

/-- `DaemonRuntimeEntry`: `currentPID = 0` means no process, `startedAt = none` is the zero time. -/
structure RuntimeEntry where
  state : RuntimeState
  currentPID : Nat
  startedAt : Option Int
  pidGeneration : Nat

def generation (entry : Option RuntimeEntry) : Nat :=
  match entry with
  | none => 0
  | some e => e.pidGeneration

def markSpawned (entry : Option RuntimeEntry) (pid : Nat) (startedAt : Int) : RuntimeEntry × Nat :=
  let next := generation entry + 1
  (⟨.running, pid, some startedAt, next⟩, next)

def markWithoutProcess (state : RuntimeState) (entry : Option RuntimeEntry) : RuntimeEntry :=
  ⟨state, 0, none, generation entry⟩

def markExited : Option RuntimeEntry → RuntimeEntry := markWithoutProcess .idle
def markBackoff : Option RuntimeEntry → RuntimeEntry := markWithoutProcess .backoff
def markQuarantined : Option RuntimeEntry → RuntimeEntry := markWithoutProcess .quarantine
def markSpawnFailed : Option RuntimeEntry → RuntimeEntry := markWithoutProcess .backoff

def markExitedIfCurrent (entry : Option RuntimeEntry) (pidGeneration : Nat) :
    Option RuntimeEntry × Bool :=
  if pidGeneration < generation entry then (entry, false) else (some (markExited entry), true)

@[simp] theorem generation_markExitedIfCurrent (entry : Option RuntimeEntry) (gen : Nat) :
    generation (markExitedIfCurrent entry gen).1 = generation entry := by
  unfold markExitedIfCurrent
  split <;> rfl

/-- `RecordCrashAndCountInWindow` and its reallocation twin: drop what is older than the window,
append now, count. -/
def recordAndCountInWindow (stamps : List Int) (now window : Int) : List Int × Nat :=
  let kept := stamps.filter (fun ts => now - window < ts) ++ [now]
  (kept, kept.length)

def countInWindow (stamps : List Int) (now window : Int) : Nat :=
  (stamps.filter (fun ts => now - window < ts)).length

inductive StopSettlementPhase
  | stopRequested | exitObserved | portReleased | failed
  deriving DecidableEq

inductive StopSettlementFailureClass
  | processAlive | listenerAlive | identityUnverified | settlementTimeout | settlementCanceled
  | runtimeReplaced | terminationFailed | persistence
  deriving DecidableEq

inductive StopSettlementMode
  | stop | portFence
  deriving DecidableEq

structure StopSettlementReceipt where
  batchID : String
  taskName : String
  epoch : Nat
  pid : Nat
  startedAt : Option Int
  pidGeneration : Nat
  batchIndex : Nat
  mode : StopSettlementMode
  port : Nat
  revision : Nat
  attempt : Nat
  phase : StopSettlementPhase
  failureClass : Option StopSettlementFailureClass
  failureDetail : String
  resumePhase : Option StopSettlementPhase
  operationID : String
  deriving DecidableEq

def stopSettlementAdmissionEntry (entry : Option RuntimeEntry) : Bool :=
  match entry with
  | none => false
  | some e =>
    if 0 < e.currentPID then decide (0 < e.pidGeneration) && e.startedAt.isSome
    else decide (e.state = .idle) || decide (e.state = .backoff)

def receiptIdentified (receipt : StopSettlementReceipt) : Bool :=
  decide (receipt.batchID ≠ "" ∧ receipt.taskName ≠ "" ∧ receipt.epoch ≠ 0 ∧
    0 < receipt.port ∧ receipt.port ≤ 65535 ∧ receipt.revision ≠ 0 ∧ receipt.attempt ≠ 0 ∧
    receipt.operationID ≠ "")

def receiptNamesProcess (receipt : StopSettlementReceipt) : Bool :=
  match receipt.mode with
  | .stop => decide (0 < receipt.pid ∧ receipt.startedAt ≠ none ∧ 0 < receipt.pidGeneration)
  | .portFence => decide (receipt.pid = 0 ∧ receipt.startedAt = none)

def receiptPhaseFields (receipt : StopSettlementReceipt) : Bool :=
  match receipt.phase with
  | .failed =>
    receipt.failureClass.isSome && decide (trimSpace receipt.failureDetail ≠ "") &&
      (match receipt.mode with
      | .portFence => decide (receipt.resumePhase = some .exitObserved ∨
          receipt.resumePhase = some .portReleased)
      | .stop => receipt.resumePhase.isSome)
  | phase =>
    decide (receipt.failureClass = none ∧ receipt.failureDetail = "" ∧
      receipt.resumePhase = none) &&
      decide (receipt.mode ≠ .portFence ∨ phase = .exitObserved ∨ phase = .portReleased)

def validStopSettlementReceipt (receipt : StopSettlementReceipt) : Bool :=
  receiptIdentified receipt && receiptNamesProcess receipt && receiptPhaseFields receipt

def nextStopSettlementReceipt (current : StopSettlementReceipt) (phase : StopSettlementPhase)
    (failureClass : Option StopSettlementFailureClass) (failureDetail : String) :
    Option StopSettlementReceipt :=
  if phase = current.phase ∧ failureClass = current.failureClass ∧
      failureDetail = current.failureDetail then some current
  else if phase = .failed then
    if current.phase = .failed ∨ failureClass = none then none
    else some { current with
      revision := current.revision + 1, phase := .failed, failureClass := failureClass,
      failureDetail := trimSpace failureDetail, resumePhase := some current.phase }
  else if current.phase = .failed then
    if some phase ≠ current.resumePhase then none
    else some { current with
      revision := current.revision + 1, attempt := current.attempt + 1, phase := phase,
      failureClass := none, failureDetail := "", resumePhase := none }
  else if (current.phase = .stopRequested ∧ phase ≠ .exitObserved) ∨
      (current.phase = .exitObserved ∧ phase ≠ .portReleased) ∨ current.phase = .portReleased then none
  else
    let next := { current with
      revision := current.revision + 1, phase := phase, failureClass := none, failureDetail := "" }
    if validStopSettlementReceipt next then some next else none

/-- The receipt `BeginStopSettlementBatch` writes for one target: a fence on the port alone when
no process is current. -/
def beginStopSettlement (batchID taskName : String) (epoch index port : Nat) (entry : RuntimeEntry) :
    StopSettlementReceipt where
  batchID := batchID
  taskName := taskName
  epoch := epoch
  pid := entry.currentPID
  startedAt := if entry.currentPID = 0 then none else entry.startedAt
  pidGeneration := entry.pidGeneration
  batchIndex := index
  mode := if entry.currentPID = 0 then .portFence else .stop
  port := port
  revision := 1
  attempt := 1
  phase := if entry.currentPID = 0 then .exitObserved else .stopRequested
  failureClass := none
  failureDetail := ""
  resumePhase := none
  operationID := batchID

structure TerminationExpectedTuple where
  pid : Nat
  startedAt : Option Int
  pidGeneration : Nat
  valid : Bool

def terminationExpectedTupleForTask (entry : Option RuntimeEntry) : TerminationExpectedTuple :=
  match entry with
  | none => ⟨0, none, 0, false⟩
  | some e =>
    if 0 < e.currentPID ∧ 0 < e.pidGeneration ∧ e.startedAt.isSome then
      ⟨e.currentPID, e.startedAt, e.pidGeneration, true⟩
    else ⟨0, none, 0, false⟩

inductive TerminationOutcomeKind
  | targetAbsent | uncertain | alreadyExited | identityMismatch | failed
  | terminationCommitted | terminated
  deriving DecidableEq

inductive TerminationCause
  | targetGone | other
  deriving DecidableEq

structure TerminationOutcome where
  kind : TerminationOutcomeKind
  expected : TerminationExpectedTuple
  cause : Option TerminationCause

def TerminationOutcomeKind.reportsDead (kind : TerminationOutcomeKind) : Bool :=
  match kind with
  | .alreadyExited | .terminated => true
  | _ => false

def TerminationOutcome.allowsSynthetic (outcome : TerminationOutcome) : Bool :=
  outcome.expected.valid && outcome.kind.reportsDead

def TerminationOutcome.legacyError (outcome : TerminationOutcome) : Option TerminationCause :=
  match outcome.kind with
  | .alreadyExited | .terminated | .identityMismatch => none
  | .uncertain => outcome.cause
  | .terminationCommitted | .targetAbsent | .failed => some (outcome.cause.getD .other)

inductive LegacyTerminateError
  | identityMismatch | alreadyExited | targetGone | other
  deriving DecidableEq

def terminationOutcomeFromLegacy (expected : TerminationExpectedTuple)
    (err : Option LegacyTerminateError) : TerminationOutcome :=
  match err with
  | none => ⟨.uncertain, { expected with valid := false }, none⟩
  | some .identityMismatch => ⟨.identityMismatch, expected, some .other⟩
  | some .alreadyExited => ⟨.alreadyExited, expected, some .other⟩
  | some .targetGone => ⟨.alreadyExited, expected, some .targetGone⟩
  | some .other => ⟨.failed, expected, some .other⟩

def terminationTupleMatchesReceipt (tuple : TerminationExpectedTuple)
    (receipt : StopSettlementReceipt) : Bool :=
  tuple.valid && decide (tuple.pid = receipt.pid) && decide (tuple.startedAt = receipt.startedAt) &&
    decide (tuple.pidGeneration = receipt.pidGeneration)

theorem expected_generation (entry : Option RuntimeEntry)
    (valid : (terminationExpectedTupleForTask entry).valid = true) :
    (terminationExpectedTupleForTask entry).pidGeneration = generation entry := by
  unfold terminationExpectedTupleForTask at valid ⊢
  cases entry with
  | none => simp at valid
  | some e =>
    dsimp only at valid ⊢
    split_ifs at valid ⊢ with present
    rfl

end McpLocalHub.Supervisor.RuntimeTracker
