/- Module: Supervisor/StopSettlements
   source: internal/cli/supervisor_runtime_tracker.go, internal/api/supervisor_state.go
   digest: The receipts of the pending stops on disk and their mirror in memory. -/

import McpLocalHub.Foundation.Maps
import McpLocalHub.Foundation.Runs
import McpLocalHub.Supervisor.StopBatch
import Mathlib.Data.List.Sort

set_option autoImplicit false

/-!
The four calls hold `persistMu` from their first to their last access, so one of them is in progress
at a time. It reads the tracker under the read lock, then changes the file, then changes the
tracker under the write lock; the runtime entries can change between these sections, and the
process can end there. The checks for an empty path and a nil tracker do not appear.
-/

namespace McpLocalHub.Supervisor.StopSettlements

open Foundation.Maps Foundation.GoText Intents RuntimeTracker
open StopBatch (StopBatchTarget StopBatchCommand)

abbrev Settlements := Map String StopSettlementReceipt

def maxUint64 : ℕ := 2 ^ 64 - 1

/-- A digest stands for the payload that it is the hash of: the keys are sorted as the encoder
sorts them. -/
structure MapDigest where
  epoch : ℕ
  generation : ℕ
  rows : List (String × StopSettlementReceipt)
  deriving DecidableEq

def stopSettlementMapDigest (epoch generation : ℕ) (rows : Settlements) : MapDigest where
  epoch := epoch
  generation := generation
  rows := (rows.entries.map (fun entry => (entry.1, entry.2))).insertionSort (fun a b => a.1 ≤ b.1)

structure SupervisorDaemonState where
  state : RuntimeState
  currentPID : ℕ
  pidGeneration : ℕ
  startedAt : Option Int

/-- `SupervisorStateFile`; a missing file reads as the empty one, and `none` is the empty digest. -/
structure SupervisorStateFile where
  daemons : Map String SupervisorDaemonState := ∅
  stopSettlementEpoch : ℕ := 0
  stopSettlementMapGeneration : ℕ := 0
  stopSettlementDigest : Option MapDigest := none
  stopSettlements : Settlements := ∅

/-- The causes of `stopSettlementIntegrityErr`. -/
inductive IntegrityError
  | missingMetadata
  | digestMismatch
  | invalidReceipt (taskName : String)
  | batchNotInstalled (taskName : String)
  | batchMirrorChanged (taskName : String)
  | transitionNotInstalled (taskName : String)
  | removalNotInstalled (taskName : String)

structure Tracker where
  entries : Map String RuntimeEntry := ∅
  stopSettlements : Settlements := ∅
  stopSettlementEpoch : ℕ := 0
  stopSettlementIntegrityErr : Option IntegrityError := none

inductive Refusal
  | invalidBatch
  | recoveryRequired (err : IntegrityError)
  | invalidTarget (index : ℕ)
  | duplicateTarget (taskName : String)
  | descriptorPortMismatch (taskName : String)
  | notAdmissible (taskName : String)
  | alreadyPending (taskName : String)
  | epochOverflow
  | generationOverflow
  | alreadyDurable (taskName : String)
  | racedGeneration (taskName : String)
  | changedDuringAdmission (taskName : String)
  | invalidTransition
  | illegalTransition (source target : StopSettlementPhase)
  | removalNeedsPortReleased
  | staleReceipt (taskName : String)
  | staleDurableReceipt (taskName : String)
  | changedDuringTransition (taskName : String)
  | changedDuringRemoval (taskName : String)
  | stateFile

def mapIntegrity (file : SupervisorStateFile) : Option IntegrityError :=
  if file.stopSettlements.entries ≠ [] ∨ file.stopSettlementMapGeneration ≠ 0 ∨
      file.stopSettlementDigest ≠ none then
    if file.stopSettlementMapGeneration = 0 ∨ file.stopSettlementDigest = none then
      some .missingMetadata
    else if some (stopSettlementMapDigest file.stopSettlementEpoch file.stopSettlementMapGeneration
        file.stopSettlements) ≠ file.stopSettlementDigest then some .digestMismatch
    else none
  else none

def interpretable (taskName : String) (receipt : StopSettlementReceipt) : Bool :=
  decide (receipt.taskName = canonicalSupervisorTaskName taskName) &&
    validStopSettlementReceipt receipt

def hydrateReceipt (t : Tracker) (row : (_ : String) × StopSettlementReceipt) : Tracker :=
  if interpretable row.1 row.2 then
    { t with
      stopSettlements := t.stopSettlements.insert (canonicalSupervisorTaskName row.1) row.2 }
  else
    { t with
      stopSettlementIntegrityErr :=
        some (t.stopSettlementIntegrityErr.getD (.invalidReceipt row.1)) }

def hydrateDaemon (entries : Map String RuntimeEntry)
    (row : (_ : String) × SupervisorDaemonState) : Map String RuntimeEntry :=
  entries.insert (canonicalSupervisorTaskName row.1)
    ⟨row.2.state, row.2.currentPID, row.2.startedAt, row.2.pidGeneration⟩

def hydrateFromState (t : Tracker) (file : SupervisorStateFile) : Tracker :=
  let checked : Tracker :=
    { t with
      stopSettlementIntegrityErr := mapIntegrity file
      stopSettlementEpoch := max t.stopSettlementEpoch file.stopSettlementEpoch }
  let hydrated := file.stopSettlements.entries.foldl hydrateReceipt checked
  { hydrated with entries := file.daemons.entries.foldl hydrateDaemon hydrated.entries }

def clearStale (stale : List String) (file : SupervisorStateFile) : SupervisorStateFile :=
  { file with
    daemons := stale.foldl (fun daemons taskName =>
      match daemons.lookup taskName with
      | none => daemons
      | some row =>
        daemons.insert taskName { row with state := .idle, currentPID := 0, startedAt := none })
      file.daemons }

def loadDaemonRuntimeTracker (file : SupervisorStateFile) : Tracker := hydrateFromState {} file

def advanceStopSettlementMapMetadata (file : SupervisorStateFile) :
    Except Refusal SupervisorStateFile :=
  if file.stopSettlementMapGeneration = maxUint64 then .error .generationOverflow
  else
    let generation := file.stopSettlementMapGeneration + 1
    .ok { file with
      stopSettlementMapGeneration := generation
      stopSettlementDigest := some
        (stopSettlementMapDigest file.stopSettlementEpoch generation file.stopSettlements) }

structure BatchPlan where
  batchID : String
  targets : List (StopBatchTarget × RuntimeEntry)
  knownEpoch : ℕ

def validateTargets (t : Tracker) (descriptorPorts : Map String ℕ) :
    ℕ → List String → List StopBatchTarget → Except Refusal (List (StopBatchTarget × RuntimeEntry))
  | _, _, [] => .ok []
  | index, seen, target :: rest =>
    let taskName := canonicalSupervisorTaskName target.taskName
    if target.taskName ≠ taskName ∨ target.expectedPort = 0 ∨ 65535 < target.expectedPort then
      .error (.invalidTarget index)
    else if taskName ∈ seen then .error (.duplicateTarget taskName)
    else if descriptorPorts.lookup taskName ≠ some target.expectedPort then
      .error (.descriptorPortMismatch taskName)
    else
      match t.entries.lookup taskName with
      | none => .error (.notAdmissible taskName)
      | some entry =>
        if stopSettlementAdmissionEntry (some entry) = false then
          .error (.notAdmissible taskName)
        else if (t.stopSettlements.lookup taskName).isSome then
          .error (.alreadyPending taskName)
        else
          match validateTargets t descriptorPorts (index + 1) (taskName :: seen) rest with
          | .error refusal => .error refusal
          | .ok validated => .ok ((target, entry) :: validated)

def validateBatch (t : Tracker) (command : StopBatchCommand) (descriptorPorts : Map String ℕ) :
    Except Refusal BatchPlan :=
  if command.protocolVersion ≠ 1 ∨ trimSpace command.batchID = "" ∨ command.targets = [] then
    .error .invalidBatch
  else
    match t.stopSettlementIntegrityErr with
    | some err => .error (.recoveryRequired err)
    | none =>
      match validateTargets t descriptorPorts 0 [] command.targets with
      | .error refusal => .error refusal
      | .ok targets =>
        if maxUint64 - t.stopSettlementEpoch < targets.length then .error .epochOverflow
        else .ok ⟨command.batchID, targets, t.stopSettlementEpoch⟩

def stageReceipts (batchID : String) :
    ℕ → ℕ → List (StopBatchTarget × RuntimeEntry) → Settlements →
      Except Refusal (List StopSettlementReceipt × Settlements)
  | _, _, [], rows => .ok ([], rows)
  | epoch, index, (target, entry) :: rest, rows =>
    if (rows.lookup target.taskName).isSome then .error (.alreadyDurable target.taskName)
    else
      let receipt := beginStopSettlement batchID target.taskName (epoch + 1) index
        target.expectedPort entry
      match stageReceipts batchID (epoch + 1) (index + 1) rest
          (rows.insert target.taskName receipt) with
      | .error refusal => .error refusal
      | .ok (receipts, staged) => .ok (receipt :: receipts, staged)

def mutateBatch (plan : BatchPlan) (file : SupervisorStateFile) :
    Except Refusal (List StopSettlementReceipt × SupervisorStateFile) :=
  let epoch := max file.stopSettlementEpoch plan.knownEpoch
  if maxUint64 - epoch < plan.targets.length then .error .epochOverflow
  else
    match stageReceipts plan.batchID epoch 0 plan.targets file.stopSettlements with
    | .error refusal => .error refusal
    | .ok (receipts, staged) =>
      match advanceStopSettlementMapMetadata
          { file with
            stopSettlements := staged
            stopSettlementEpoch := epoch + plan.targets.length } with
      | .error refusal => .error refusal
      | .ok written => .ok (receipts, written)

def sameStopSettlementRuntimeIdentity (entry : RuntimeEntry) (receipt : StopSettlementReceipt) :
    Bool :=
  match receipt.mode with
  | .portFence =>
    decide (entry.currentPID = 0) && stopSettlementAdmissionEntry (some entry) &&
      decide (entry.pidGeneration = receipt.pidGeneration)
  | .stop =>
    decide (entry.currentPID = receipt.pid ∧ entry.pidGeneration = receipt.pidGeneration ∧
      entry.startedAt.isSome = true ∧ entry.startedAt = receipt.startedAt)

def mirrorRace (t : Tracker) : List StopSettlementReceipt → Option (IntegrityError × Refusal)
  | [] => none
  | receipt :: rest =>
    if (t.entries.lookup receipt.taskName).any
        (fun current => sameStopSettlementRuntimeIdentity current receipt) = false then
      some (.batchNotInstalled receipt.taskName, .racedGeneration receipt.taskName)
    else if (t.stopSettlements.lookup receipt.taskName).isSome then
      some (.batchMirrorChanged receipt.taskName, .changedDuringAdmission receipt.taskName)
    else mirrorRace t rest

def addReceipts (receipts : List StopSettlementReceipt) (rows : Settlements) : Settlements :=
  receipts.foldl (fun rows receipt => rows.insert receipt.taskName receipt) rows

def installBatch (t : Tracker) (receipts : List StopSettlementReceipt) :
    Except Refusal (List StopSettlementReceipt) × Tracker :=
  match mirrorRace t receipts with
  | some (err, refusal) => (.error refusal, { t with stopSettlementIntegrityErr := some err })
  | none =>
    (.ok receipts,
      { t with
        stopSettlements := addReceipts receipts t.stopSettlements
        stopSettlementEpoch :=
          receipts.foldl (fun epoch receipt => max epoch receipt.epoch) t.stopSettlementEpoch })

def sameStopSettlementRevision (a b : StopSettlementReceipt) : Bool := decide (a = b)

def holdsRevision (rows : Settlements) (expected : StopSettlementReceipt) : Bool :=
  (rows.lookup expected.taskName).any (fun current => sameStopSettlementRevision current expected)

def validateAdvance (t : Tracker) (expected : StopSettlementReceipt) (phase : StopSettlementPhase)
    (failureClass : Option StopSettlementFailureClass) (failureDetail : String) :
    Except Refusal StopSettlementReceipt :=
  if validStopSettlementReceipt expected = false then .error .invalidTransition
  else if holdsRevision t.stopSettlements expected = false then
    .error (.staleReceipt expected.taskName)
  else
    match nextStopSettlementReceipt expected phase failureClass failureDetail with
    | none => .error (.illegalTransition expected.phase phase)
    | some next => .ok next

def mutateAdvance (expected next : StopSettlementReceipt) (file : SupervisorStateFile) :
    Except Refusal SupervisorStateFile :=
  if holdsRevision file.stopSettlements expected = false then
    .error (.staleDurableReceipt expected.taskName)
  else
    advanceStopSettlementMapMetadata
      { file with stopSettlements := file.stopSettlements.insert expected.taskName next }

def installAdvance (t : Tracker) (expected next : StopSettlementReceipt) :
    Except Refusal StopSettlementReceipt × Tracker :=
  if holdsRevision t.stopSettlements expected = false then
    (.error (.changedDuringTransition expected.taskName),
      { t with stopSettlementIntegrityErr := some (.transitionNotInstalled expected.taskName) })
  else
    (.ok next, { t with stopSettlements := t.stopSettlements.insert expected.taskName next })

def validateRemove (t : Tracker) (expected : StopSettlementReceipt) : Except Refusal Unit :=
  if validStopSettlementReceipt expected = false ∨ expected.phase ≠ .portReleased then
    .error .removalNeedsPortReleased
  else if holdsRevision t.stopSettlements expected = false then
    .error (.staleReceipt expected.taskName)
  else .ok ()

def mutateRemove (expected : StopSettlementReceipt) (file : SupervisorStateFile) :
    Except Refusal SupervisorStateFile :=
  if holdsRevision file.stopSettlements expected = false then
    .error (.staleDurableReceipt expected.taskName)
  else
    advanceStopSettlementMapMetadata
      { file with stopSettlements := file.stopSettlements.erase expected.taskName }

def installRemove (t : Tracker) (expected : StopSettlementReceipt) : Except Refusal Unit × Tracker :=
  if holdsRevision t.stopSettlements expected = false then
    (.error (.changedDuringRemoval expected.taskName),
      { t with stopSettlementIntegrityErr := some (.removalNotInstalled expected.taskName) })
  else (.ok (), { t with stopSettlements := t.stopSettlements.erase expected.taskName })

def supervisorStateFromRuntimeState : RuntimeState → RuntimeState
  | .running => .running
  | _ => .idle

def persistedDaemon (daemons : Map String SupervisorDaemonState)
    (row : (_ : String) × RuntimeEntry) : Map String SupervisorDaemonState :=
  daemons.insert row.1
    { state := supervisorStateFromRuntimeState row.2.state
      currentPID := row.2.currentPID
      pidGeneration := row.2.pidGeneration
      startedAt := row.2.startedAt }

/-- The receipts are replaced as a whole, unless the integrity error is set. -/
def mutatePersist (snapshot : Tracker) (file : SupervisorStateFile) :
    Except Refusal SupervisorStateFile :=
  let rewritten : SupervisorStateFile :=
    { file with
      daemons := snapshot.entries.entries.foldl persistedDaemon ∅
      stopSettlementEpoch := max file.stopSettlementEpoch snapshot.stopSettlementEpoch }
  if snapshot.stopSettlementIntegrityErr.isSome then .ok rewritten
  else advanceStopSettlementMapMetadata { rewritten with stopSettlements := snapshot.stopSettlements }

/-- Where the call that holds `persistMu` stands: in front of the change of the file, or behind it.
-/
inductive Stage
  | batch (plan : BatchPlan)
  | batchWritten (receipts : List StopSettlementReceipt)
  | advance (expected next : StopSettlementReceipt)
  | advanceWritten (expected next : StopSettlementReceipt)
  | remove (expected : StopSettlementReceipt)
  | removeWritten (expected : StopSettlementReceipt)
  | persist (snapshot : Tracker)

inductive Outcome
  | batch (result : Except Refusal (List StopSettlementReceipt))
  | advance (result : Except Refusal StopSettlementReceipt)
  | remove (result : Except Refusal Unit)
  | persist (result : Except Refusal Unit)

/-- A record of a call that returned: the file when the call started, and the file and the error
when it returned. -/
structure Returned where
  outcome : Outcome
  fileBefore : SupervisorStateFile
  fileAfter : SupervisorStateFile
  integrityErr : Option IntegrityError

structure Holder where
  stage : Stage
  fileBefore : SupervisorStateFile

structure System where
  tracker : Tracker
  file : SupervisorStateFile
  holder : Option Holder := none
  returned : List Returned := []

inductive Action
  | beginStopSettlementBatch (command : StopBatchCommand) (descriptorPorts : Map String ℕ)
  | advanceStopSettlement (expected : StopSettlementReceipt) (phase : StopSettlementPhase)
      (failureClass : Option StopSettlementFailureClass) (failureDetail : String)
  | removeStopSettlement (expected : StopSettlementReceipt)
  | persistTo
  | mutate (stateFileOK : Bool)
  | install
  /-- Any mark on a task's entry, by any part of the supervisor, or its removal. -/
  | runtime (taskName : String) (entry : Option RuntimeEntry)
  /-- The process ends wherever it is, and another one starts on the same file. -/
  | restart (stale : List String)

def System.give (s : System) (fileBefore : SupervisorStateFile) (outcome : Outcome) : System :=
  { s with
    holder := none
    returned := s.returned ++
      [⟨outcome, fileBefore, s.file, s.tracker.stopSettlementIntegrityErr⟩] }

def System.hold (s : System) (stage : Stage) : System := { s with holder := some ⟨stage, s.file⟩ }

def System.goOn (s : System) (holder : Holder) (stage : Stage) : System :=
  { s with holder := some { holder with stage := stage } }

def System.write (s : System) (holder : Holder) (result : Except Refusal SupervisorStateFile)
    (failed : Refusal → Outcome) (goOn : System → System) : System :=
  match result with
  | .error refusal => s.give holder.fileBefore (failed refusal)
  | .ok file => goOn { s with file := file }

def attempt {α : Type} (stateFileOK : Bool) (result : Except Refusal α) : Except Refusal α :=
  if stateFileOK then result else .error .stateFile

def mutateStage (s : System) (holder : Holder) (stateFileOK : Bool) : Option System :=
  match holder.stage with
  | .batch plan =>
    match attempt stateFileOK (mutateBatch plan s.file) with
    | .error refusal => some (s.give holder.fileBefore (.batch (.error refusal)))
    | .ok (receipts, file) => some ({ s with file := file }.goOn holder (.batchWritten receipts))
  | .advance expected next =>
    some (s.write holder (attempt stateFileOK (mutateAdvance expected next s.file))
      (fun refusal => .advance (.error refusal))
      (fun t => t.goOn holder (.advanceWritten expected next)))
  | .remove expected =>
    some (s.write holder (attempt stateFileOK (mutateRemove expected s.file))
      (fun refusal => .remove (.error refusal))
      (fun t => t.goOn holder (.removeWritten expected)))
  | .persist snapshot =>
    some (s.write holder (attempt stateFileOK (mutatePersist snapshot s.file))
      (fun refusal => .persist (.error refusal))
      (fun t => t.give holder.fileBefore (.persist (.ok ()))))
  | .batchWritten _ | .advanceWritten _ _ | .removeWritten _ => none

def installStage (s : System) (holder : Holder) : Option System :=
  match holder.stage with
  | .batchWritten receipts =>
    let (result, tracker) := installBatch s.tracker receipts
    some ({ s with tracker := tracker }.give holder.fileBefore (.batch result))
  | .advanceWritten expected next =>
    let (result, tracker) := installAdvance s.tracker expected next
    some ({ s with tracker := tracker }.give holder.fileBefore (.advance result))
  | .removeWritten expected =>
    let (result, tracker) := installRemove s.tracker expected
    some ({ s with tracker := tracker }.give holder.fileBefore (.remove result))
  | .batch _ | .advance _ _ | .remove _ | .persist _ => none

def startCall (s : System) : Action → Option System
  | .beginStopSettlementBatch command descriptorPorts =>
    match validateBatch s.tracker command descriptorPorts with
    | .error refusal => some (s.give s.file (.batch (.error refusal)))
    | .ok plan => some (s.hold (.batch plan))
  | .advanceStopSettlement expected phase failureClass failureDetail =>
    match validateAdvance s.tracker expected phase failureClass failureDetail with
    | .error refusal => some (s.give s.file (.advance (.error refusal)))
    | .ok next =>
      if sameStopSettlementRevision next expected then
        some (s.give s.file (.advance (.ok expected)))
      else some (s.hold (.advance expected next))
  | .removeStopSettlement expected =>
    match validateRemove s.tracker expected with
    | .error refusal => some (s.give s.file (.remove (.error refusal)))
    | .ok () => some (s.hold (.remove expected))
  | .persistTo => some (s.hold (.persist s.tracker))
  | _ => none

def step (s : System) (action : Action) : Option System :=
  match action with
  | .runtime taskName entry =>
    some { s with tracker := { s.tracker with entries :=
      match entry with
      | some entry => s.tracker.entries.insert taskName entry
      | none => s.tracker.entries.erase taskName } }
  | .restart stale =>
    let file := clearStale stale s.file
    some { s with tracker := loadDaemonRuntimeTracker file, file := file, holder := none }
  | .mutate stateFileOK => s.holder.bind (fun holder => mutateStage s holder stateFileOK)
  | .install => s.holder.bind (installStage s)
  | call =>
    match s.holder with
    | some _ => none
    | none => startCall s call

/-- Every key of the file is a canonical task name, as every writer of the file writes it. -/
def CanonicalKeys (file : SupervisorStateFile) : Prop :=
  ∀ taskName receipt, file.stopSettlements.lookup taskName = some receipt →
    canonicalSupervisorTaskName taskName = taskName

/-- The supervisor has just started, on a file whose receipts and digest may be of any kind. -/
def Loaded (s : System) : Prop :=
  CanonicalKeys s.file ∧ s.tracker = loadDaemonRuntimeTracker s.file ∧ s.holder = none ∧
    s.returned = []

end McpLocalHub.Supervisor.StopSettlements
