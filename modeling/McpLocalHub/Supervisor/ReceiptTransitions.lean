/- Module: Supervisor/ReceiptTransitions
   source: internal/cli/supervisor_runtime_tracker.go, internal/api/supervisor_state.go
   digest: The stop settlement receipts on the wire, and what a transition makes of a valid one.
   -/

import McpLocalHub.Supervisor.RuntimeTracker
import Mathlib.Algebra.Order.Ring.Int

set_option autoImplicit false

namespace McpLocalHub.Supervisor.ReceiptTransitions

open Foundation.GoText (trimSpace trimSpace_trimSpace_ne)
open RuntimeTracker (StopSettlementPhase StopSettlementFailureClass StopSettlementReceipt)

structure StopSettlementReceiptV1 where
  version : ℤ
  batchID : String
  taskName : String
  epoch : UInt64
  pid : ℤ
  startedAt : String
  pidGeneration : ℤ
  batchIndex : ℤ
  mode : String
  port : ℤ
  revision : UInt64
  attempt : UInt64
  phase : String
  failureClass : String
  failureDetail : String
  resumePhase : String
  operationID : String
  deriving DecidableEq

def phaseStopRequested : String := "stop_requested"
def phaseExitObserved : String := "exit_observed"
def phasePortReleased : String := "port_released"
def phaseFailed : String := "failed"

def phases : List String := [phaseStopRequested, phaseExitObserved, phasePortReleased, phaseFailed]

def failureClasses : List String :=
  ["process_alive", "listener_alive", "identity_unverified", "settlement_timeout",
    "settlement_cancelled", "runtime_generation_replaced", "termination_failed",
    "persistence_failed"]

def validClass (failureClass : String) : Bool := failureClass ∈ failureClasses

section

-- whether `time.Parse` takes a text as RFC 3339 with nanoseconds
variable (parses : String → Bool)

def identified (r : StopSettlementReceiptV1) : Bool :=
  r.version = 1 ∧ r.batchID ≠ "" ∧ r.taskName ≠ "" ∧ r.epoch ≠ 0 ∧ 0 ≤ r.batchIndex ∧
    (r.mode = "stop" ∨ r.mode = "port_fence") ∧ 0 < r.port ∧ r.port ≤ 65535 ∧ r.revision ≠ 0 ∧
    r.attempt ≠ 0 ∧ r.operationID ≠ ""

def namesProcess (r : StopSettlementReceiptV1) : Bool :=
  (if r.mode = "stop" then decide (0 < r.pid ∧ r.startedAt ≠ "" ∧ 0 < r.pidGeneration)
    else decide (r.pid = 0 ∧ r.startedAt = "" ∧ 0 ≤ r.pidGeneration)) &&
  (decide (r.startedAt = "") || parses r.startedAt)

def phaseFields (r : StopSettlementReceiptV1) : Bool :=
  if r.phase ∈ phases then
    if r.phase = phaseFailed then
      if validClass r.failureClass = false ∨ trimSpace r.failureDetail = "" then false
      else if r.mode = "port_fence" then
        r.resumePhase = phaseExitObserved ∨ r.resumePhase = phasePortReleased
      else r.resumePhase ≠ ""
    else if r.failureClass ≠ "" ∨ r.failureDetail ≠ "" ∨ r.resumePhase ≠ "" then false
    else r.mode ≠ "port_fence" ∨ r.phase = phaseExitObserved ∨ r.phase = phasePortReleased
  else false

def validStopSettlementReceipt (r : StopSettlementReceiptV1) : Bool :=
  identified r && namesProcess parses r && phaseFields r

def nextStopSettlementReceipt (current : StopSettlementReceiptV1)
    (phase failureClass failureDetail : String) : Option StopSettlementReceiptV1 :=
  if phase = current.phase ∧ failureClass = current.failureClass ∧
      failureDetail = current.failureDetail then some current
  else if phase = phaseFailed then
    if current.phase = phaseFailed ∨ validClass failureClass = false then none
    else some { current with
      revision := current.revision + 1
      phase := phaseFailed
      failureClass := failureClass
      failureDetail := trimSpace failureDetail
      resumePhase := current.phase }
  else if current.phase = phaseFailed then
    if phase ≠ current.resumePhase then none
    else some { current with
      revision := current.revision + 1
      attempt := current.attempt + 1
      phase := phase
      failureClass := ""
      failureDetail := ""
      resumePhase := "" }
  else if (current.phase = phaseStopRequested ∧ phase ≠ phaseExitObserved) ∨
      (current.phase = phaseExitObserved ∧ phase ≠ phasePortReleased) ∨
      current.phase = phasePortReleased then none
  else
    let next := { current with
      revision := current.revision + 1
      phase := phase
      failureClass := ""
      failureDetail := "" }
    if validStopSettlementReceipt parses next then some next else none

def sameStopSettlementToken (a b : StopSettlementReceiptV1) : Bool :=
  a.version = b.version ∧ a.batchID = b.batchID ∧ a.taskName = b.taskName ∧ a.epoch = b.epoch ∧
    a.pid = b.pid ∧ a.startedAt = b.startedAt ∧ a.pidGeneration = b.pidGeneration ∧
    a.batchIndex = b.batchIndex ∧ a.mode = b.mode ∧ a.port = b.port ∧
    a.operationID = b.operationID

inductive Next (current : StopSettlementReceiptV1) (phase failureClass failureDetail : String) :
    StopSettlementReceiptV1 → Prop
  | same (again : phase = current.phase ∧ failureClass = current.failureClass ∧
      failureDetail = current.failureDetail) : Next current phase failureClass failureDetail current
  | fails (toFailed : phase = phaseFailed) (running : current.phase ≠ phaseFailed)
      (known : validClass failureClass = true) :
      Next current phase failureClass failureDetail { current with
        revision := current.revision + 1
        phase := phaseFailed
        failureClass := failureClass
        failureDetail := trimSpace failureDetail
        resumePhase := current.phase }
  | resumes (onward : phase ≠ phaseFailed) (stopped : current.phase = phaseFailed)
      (there : phase = current.resumePhase) :
      Next current phase failureClass failureDetail { current with
        revision := current.revision + 1
        attempt := current.attempt + 1
        phase := phase
        failureClass := ""
        failureDetail := ""
        resumePhase := "" }
  | advances (onward : phase ≠ phaseFailed) (running : current.phase ≠ phaseFailed)
      (checked : validStopSettlementReceipt parses { current with
        revision := current.revision + 1
        phase := phase
        failureClass := ""
        failureDetail := "" } = true) :
      Next current phase failureClass failureDetail { current with
        revision := current.revision + 1
        phase := phase
        failureClass := ""
        failureDetail := "" }

variable {parses} {current next : StopSettlementReceiptV1} {phase failureClass failureDetail : String}

theorem next_of_some
    (given : nextStopSettlementReceipt parses current phase failureClass failureDetail = some next) :
    Next parses current phase failureClass failureDetail next := by
  unfold nextStopSettlementReceipt at given
  dsimp only at given
  split_ifs at given with same toFailed refused stopped elsewhere illegal checked
  · cases given
    exact .same same
  · cases given
    rw [not_or, Bool.not_eq_false] at refused
    exact .fails toFailed refused.1 refused.2
  · cases given
    exact .resumes toFailed stopped (not_not.mp elsewhere)
  · cases given
    exact .advances toFailed stopped checked

theorem Next.token (moved : Next parses current phase failureClass failureDetail next) :
    sameStopSettlementToken next current = true := by
  cases moved <;> simp [sameStopSettlementToken]

theorem succ_ne_zero_iff {n : UInt64} : n + 1 ≠ 0 ↔ n.toNat < 2 ^ 64 - 1 := by
  rw [ne_eq, ← UInt64.toNat_inj, UInt64.toNat_add, UInt64.toNat_one, UInt64.toNat_zero]
  have bound := n.toNat_lt
  omega

theorem toNat_succ {n : UInt64} (room : n + 1 ≠ 0) : (n + 1).toNat = n.toNat + 1 := by
  have below := succ_ne_zero_iff.mp room
  rw [UInt64.toNat_add]
  exact Nat.mod_eq_of_lt (by simp; omega)

theorem valid_parts : validStopSettlementReceipt parses current = true ↔
      identified current = true ∧ namesProcess parses current = true ∧
        phaseFields current = true := by
  simp only [validStopSettlementReceipt, Bool.and_eq_true, and_assoc]

theorem identified_revision (known : identified current = true) : current.revision ≠ 0 := by
  simp only [identified, decide_eq_true_eq] at known
  exact known.2.2.2.2.2.2.2.2.1

theorem Next.revision (moved : Next parses current phase failureClass failureDetail next)
    (valid : validStopSettlementReceipt parses next = true) :
    next = current ∨ next.revision.toNat = current.revision.toNat + 1 := by
  have counted := identified_revision (valid_parts.mp valid).1
  cases moved with
  | same => exact .inl rfl
  | fails | resumes | advances => exact .inr (toNat_succ counted)

theorem phaseFields_running (fields : phaseFields current = true)
    (running : current.phase ≠ phaseFailed) :
    current.phase ∈ phases ∧
      (current.mode = "port_fence" →
        current.phase = phaseExitObserved ∨ current.phase = phasePortReleased) := by
  unfold phaseFields at fields
  rw [if_neg running] at fields
  split_ifs at fields with known told
  refine ⟨known, ?_⟩
  intro fence
  exact (of_decide_eq_true fields).resolve_left (not_not.mpr fence)

theorem phaseFields_failed (fields : phaseFields current = true)
    (stopped : current.phase = phaseFailed) (fence : current.mode = "port_fence") :
    current.resumePhase = phaseExitObserved ∨ current.resumePhase = phasePortReleased := by
  unfold phaseFields at fields
  split_ifs at fields with known blank
  exact of_decide_eq_true fields

/-- Nothing for a repetition; a text for a failure; a known phase and a free attempt for a
resumption. -/
def Sound (current : StopSettlementReceiptV1) (phase failureClass failureDetail : String) : Prop :=
  (phase = current.phase ∧ failureClass = current.failureClass ∧
    failureDetail = current.failureDetail) ∨
  (current.revision.toNat < 2 ^ 64 - 1 ∧
    (phase = phaseFailed → trimSpace failureDetail ≠ "") ∧
    (phase ≠ phaseFailed → current.phase = phaseFailed →
      phase ∈ phases ∧ current.attempt.toNat < 2 ^ 64 - 1))

theorem identified_fails_iff (known : identified current = true) (phase cls detail resume : String) :
    identified { current with
      revision := current.revision + 1, phase := phase, failureClass := cls,
      failureDetail := detail, resumePhase := resume } = true ↔ current.revision + 1 ≠ 0 := by
  simp only [identified, decide_eq_true_eq] at known ⊢
  tauto

theorem identified_resumes_iff (known : identified current = true) (phase : String) :
    identified { current with
      revision := current.revision + 1, attempt := current.attempt + 1, phase := phase,
      failureClass := "", failureDetail := "", resumePhase := "" } = true ↔
      current.revision + 1 ≠ 0 ∧ current.attempt + 1 ≠ 0 := by
  simp only [identified, decide_eq_true_eq] at known ⊢
  tauto

theorem phaseFields_fails_iff (fields : phaseFields current = true)
    (running : current.phase ≠ phaseFailed) (cls : validClass failureClass = true) :
    phaseFields { current with
      revision := current.revision + 1, phase := phaseFailed, failureClass := failureClass,
      failureDetail := trimSpace failureDetail, resumePhase := current.phase } = true ↔
      trimSpace failureDetail ≠ "" := by
  obtain ⟨phaseKnown, fence⟩ := phaseFields_running fields running
  have named : current.phase ≠ "" := by
    intro empty
    rw [empty] at phaseKnown
    revert phaseKnown
    decide
  have failedKnown : phaseFailed ∈ phases := by decide
  simp only [phaseFields, failedKnown, if_true, cls, Bool.true_eq_false, false_or]
  by_cases blank : trimSpace failureDetail = ""
  · have stays : trimSpace "" = "" := rfl
    simp [blank, stays]
  · rw [if_neg (trimSpace_trimSpace_ne blank)]
    by_cases mode : current.mode = "port_fence"
    · rw [if_pos mode]
      exact iff_of_true (decide_eq_true (fence mode)) blank
    · rw [if_neg mode]
      exact iff_of_true (decide_eq_true named) blank

theorem phaseFields_resumes_iff (fields : phaseFields current = true)
    (onward : phase ≠ phaseFailed) (stopped : current.phase = phaseFailed)
    (there : phase = current.resumePhase) :
    phaseFields { current with
      revision := current.revision + 1, attempt := current.attempt + 1, phase := phase,
      failureClass := "", failureDetail := "", resumePhase := "" } = true ↔ phase ∈ phases := by
  simp only [phaseFields, onward, if_false, ne_eq, not_true_eq_false, or_self]
  by_cases known : phase ∈ phases
  · rw [if_pos known]
    refine iff_of_true (decide_eq_true ?_) known
    by_cases mode : current.mode = "port_fence"
    · right
      rw [there]
      exact phaseFields_failed fields stopped mode
    · exact .inl mode
  · simp [known]

theorem Next.valid_iff (valid : validStopSettlementReceipt parses current = true)
    (moved : Next parses current phase failureClass failureDetail next) :
    validStopSettlementReceipt parses next = true ↔
      Sound current phase failureClass failureDetail := by
  obtain ⟨ident, process, fields⟩ := valid_parts.mp valid
  cases moved with
  | same again => exact iff_of_true valid (.inl again)
  | advances onward running checked =>
    have room := succ_ne_zero_iff.mp (identified_revision (valid_parts.mp checked).1)
    exact iff_of_true checked (.inr ⟨room, fun failed => absurd failed onward,
      fun _ failed => absurd failed running⟩)
  | fails toFailed running cls =>
    have apart : phaseFailed ≠ current.phase := running.symm
    rw [valid_parts, identified_fails_iff ident, phaseFields_fails_iff fields running cls,
      succ_ne_zero_iff]
    simp only [Sound, apart, toFailed, ne_eq, not_true_eq_false, false_and, false_or,
      forall_const, false_imp_iff, and_true]
    exact ⟨fun ⟨room, _, told⟩ => ⟨room, told⟩, fun ⟨room, told⟩ => ⟨room, process, told⟩⟩
  | resumes onward stopped there =>
    rw [valid_parts, identified_resumes_iff ident, phaseFields_resumes_iff fields onward stopped there,
      succ_ne_zero_iff, succ_ne_zero_iff]
    simp only [Sound, onward, stopped, ne_eq, not_false_eq_true, false_and, false_or,
      forall_const, false_imp_iff, true_and]
    exact ⟨fun ⟨⟨room, again⟩, _, known⟩ => ⟨room, known, again⟩,
      fun ⟨room, known, again⟩ => ⟨⟨room, again⟩, process, known⟩⟩

/-- A transition of a valid receipt gives a valid receipt of the same identity, itself or its next
revision, exactly when the transition is sound. -/
theorem next_receipt_valid (parses : String → Bool) (r next : StopSettlementReceiptV1)
    (phase failureClass failureDetail : String) (valid : validStopSettlementReceipt parses r = true)
    (given : nextStopSettlementReceipt parses r phase failureClass failureDetail = some next) :
    (validStopSettlementReceipt parses next = true ∧ sameStopSettlementToken next r = true ∧
      (next = r ∨ next.revision.toNat = r.revision.toNat + 1)) ↔
      Sound r phase failureClass failureDetail := by
  have moved := next_of_some given
  rw [← moved.valid_iff valid]
  exact ⟨And.left, fun accepted => ⟨accepted, moved.token, moved.revision accepted⟩⟩

end

def wirePhase : StopSettlementPhase → String
  | .stopRequested => phaseStopRequested
  | .exitObserved => phaseExitObserved
  | .portReleased => phasePortReleased
  | .failed => phaseFailed

def wireClass : StopSettlementFailureClass → String
  | .processAlive => "process_alive"
  | .listenerAlive => "listener_alive"
  | .identityUnverified => "identity_unverified"
  | .settlementTimeout => "settlement_timeout"
  | .settlementCanceled => "settlement_cancelled"
  | .runtimeReplaced => "runtime_generation_replaced"
  | .terminationFailed => "termination_failed"
  | .persistence => "persistence_failed"

def wireMode : RuntimeTracker.StopSettlementMode → String
  | .stop => "stop"
  | .portFence => "port_fence"

def wireOption {α : Type} (text : α → String) (value : Option α) : String := (value.map text).getD ""

def wire (stamp : ℤ → String) (r : StopSettlementReceipt) : StopSettlementReceiptV1 where
  version := 1
  batchID := r.batchID
  taskName := r.taskName
  epoch := .ofNat r.epoch
  pid := r.pid
  startedAt := wireOption stamp r.startedAt
  pidGeneration := r.pidGeneration
  batchIndex := r.batchIndex
  mode := wireMode r.mode
  port := r.port
  revision := .ofNat r.revision
  attempt := .ofNat r.attempt
  phase := wirePhase r.phase
  failureClass := wireOption wireClass r.failureClass
  failureDetail := r.failureDetail
  resumePhase := wireOption wirePhase r.resumePhase
  operationID := r.operationID

theorem wirePhase_inj {a b : StopSettlementPhase} : wirePhase a = wirePhase b ↔ a = b := by
  cases a <;> cases b <;> decide

theorem wirePhase_ne (a : StopSettlementPhase) : wirePhase a ≠ "" := by
  cases a <;> decide

theorem wireClass_inj {a b : StopSettlementFailureClass} : wireClass a = wireClass b ↔ a = b := by
  cases a <;> cases b <;> decide

theorem validClass_wireOption (a : Option StopSettlementFailureClass) :
    validClass (wireOption wireClass a) = a.isSome := by
  rcases a with _ | cls
  · decide
  · cases cls <;> decide

theorem wireClass_ne (a : StopSettlementFailureClass) : wireClass a ≠ "" := by
  cases a <;> decide

theorem wireOption_inj {α : Type} {text : α → String} (named : ∀ a, text a ≠ "")
    (injective : ∀ a b, text a = text b ↔ a = b) {a b : Option α} :
    wireOption text a = wireOption text b ↔ a = b := by
  cases a with
  | none =>
    cases b with
    | none => simp [wireOption]
    | some b => simpa [wireOption] using (named b).symm
  | some a =>
    cases b with
    | none => simpa [wireOption] using named a
    | some b => simp [wireOption, injective]

structure Fits (r : StopSettlementReceipt) : Prop where
  epoch : r.epoch < 2 ^ 64
  revision : r.revision < 2 ^ 64
  attempt : r.attempt < 2 ^ 64

theorem ofNat_ne_zero {n : ℕ} (fits : n < 2 ^ 64) : UInt64.ofNat n ≠ 0 ↔ n ≠ 0 := by
  have value : (UInt64.ofNat n).toNat = n := by
    rw [UInt64.toNat_ofNat']
    exact Nat.mod_eq_of_lt fits
  rw [not_iff_not]
  constructor
  · intro zero
    rw [zero, UInt64.toNat_zero] at value
    exact value.symm
  · rintro rfl
    rfl

section

variable {stamp : ℤ → String} {parses : String → Bool} {r : StopSettlementReceipt}

theorem wire_identified (fits : Fits r) :
    identified (wire stamp r) = RuntimeTracker.receiptIdentified r := by
  have epoch := ofNat_ne_zero fits.epoch
  have revision := ofNat_ne_zero fits.revision
  have attempt := ofNat_ne_zero fits.attempt
  have mode : wireMode r.mode = "stop" ∨ wireMode r.mode = "port_fence" := by
    cases r.mode <;> decide
  simp only [identified, RuntimeTracker.receiptIdentified, wire, decide_eq_decide, epoch, revision,
    attempt, mode, true_and, Int.natCast_nonneg, Int.natCast_pos]
  norm_cast

theorem wire_namesProcess
    (stamps : ∀ time ∈ r.startedAt, stamp time ≠ "" ∧ parses (stamp time) = true) :
    namesProcess parses (wire stamp r) = RuntimeTracker.receiptNamesProcess r := by
  cases mode : r.mode with
  | stop | portFence =>
    cases started : r.startedAt with
    | none =>
      simp [namesProcess, RuntimeTracker.receiptNamesProcess, wire, wireMode, wireOption, mode,
        started]
    | some time =>
      simp [namesProcess, RuntimeTracker.receiptNamesProcess, wire, wireMode, wireOption, mode,
        started, stamps time started]

theorem wire_phaseFields : phaseFields (wire stamp r) = RuntimeTracker.receiptPhaseFields r := by
  have classEmpty : wireOption wireClass r.failureClass = "" ↔ r.failureClass = none :=
    wireOption_inj wireClass_ne (fun _ _ => wireClass_inj) (b := none)
  have resumeEmpty : wireOption wirePhase r.resumePhase = "" ↔ r.resumePhase = none :=
    wireOption_inj wirePhase_ne (fun _ _ => wirePhase_inj) (b := none)
  have resumeAt (p : StopSettlementPhase) :
      wireOption wirePhase r.resumePhase = wirePhase p ↔ r.resumePhase = some p :=
    wireOption_inj wirePhase_ne (fun _ _ => wirePhase_inj) (b := some p)
  have mode : wireMode r.mode = "port_fence" ↔ r.mode = .portFence := by
    cases r.mode <;> decide
  cases phase : r.phase with
  | failed =>
    have resumes : r.resumePhase.isSome = !decide (r.resumePhase = none) := by
      cases r.resumePhase <;> rfl
    have atExit : wireOption wirePhase r.resumePhase = phaseExitObserved ↔
        r.resumePhase = some .exitObserved := resumeAt .exitObserved
    have atRelease : wireOption wirePhase r.resumePhase = phasePortReleased ↔
        r.resumePhase = some .portReleased := resumeAt .portReleased
    have listed : phaseFailed ∈ phases := by decide
    simp only [phaseFields, RuntimeTracker.receiptPhaseFields, wire, phase, wirePhase,
      validClass_wireOption, listed, if_true, mode, atExit, atRelease, resumes]
    cases r.mode <;> cases r.failureClass <;> by_cases blank : trimSpace r.failureDetail = "" <;>
      simp [blank, resumeEmpty]
  | stopRequested | exitObserved | portReleased =>
    simp [phaseFields, RuntimeTracker.receiptPhaseFields, wire, phase, wirePhase, phases,
      classEmpty, resumeEmpty, mode, phaseFailed, phaseStopRequested, phaseExitObserved,
      phasePortReleased]

theorem wire_valid (fits : Fits r)
    (stamps : ∀ time ∈ r.startedAt, stamp time ≠ "" ∧ parses (stamp time) = true) :
    validStopSettlementReceipt parses (wire stamp r) =
      RuntimeTracker.validStopSettlementReceipt r := by
  unfold validStopSettlementReceipt RuntimeTracker.validStopSettlementReceipt
  rw [wire_identified fits, wire_namesProcess stamps, wire_phaseFields]

/-- On the receipts of the tracker and its phases, the transitions of the wire are the transitions
of the tracker. -/
theorem wire_next (epoch : r.epoch < 2 ^ 64) (revision : r.revision < 2 ^ 64 - 1)
    (attempt : r.attempt < 2 ^ 64)
    (stamps : ∀ time ∈ r.startedAt, stamp time ≠ "" ∧ parses (stamp time) = true) (phase : StopSettlementPhase)
    (failureClass : Option StopSettlementFailureClass) (failureDetail : String) :
    nextStopSettlementReceipt parses (wire stamp r) (wirePhase phase)
        (wireOption wireClass failureClass) failureDetail =
      (RuntimeTracker.nextStopSettlementReceipt r phase failureClass failureDetail).map
        (wire stamp) := by
  have classSame : wireOption wireClass failureClass = wireOption wireClass r.failureClass ↔
      failureClass = r.failureClass := wireOption_inj wireClass_ne (fun _ _ => wireClass_inj)
  have isPhase (a b : StopSettlementPhase) : wirePhase a = wirePhase b ↔ a = b :=
    wirePhase_inj
  have toFailed (a : StopSettlementPhase) :
      wirePhase a = phaseFailed ↔ a = .failed := isPhase a .failed
  have atRequest (a : StopSettlementPhase) :
      wirePhase a = phaseStopRequested ↔ a = .stopRequested := isPhase a .stopRequested
  have atExit (a : StopSettlementPhase) :
      wirePhase a = phaseExitObserved ↔ a = .exitObserved := isPhase a .exitObserved
  have atRelease (a : StopSettlementPhase) :
      wirePhase a = phasePortReleased ↔ a = .portReleased := isPhase a .portReleased
  have resumes : wirePhase phase = wireOption wirePhase r.resumePhase ↔
      some phase = r.resumePhase :=
    wireOption_inj wirePhase_ne (fun _ _ => wirePhase_inj) (a := some phase)
  have succ (n : ℕ) : UInt64.ofNat n + 1 = UInt64.ofNat (n + 1) := (UInt64.ofNat_add n 1).symm
  have next : validStopSettlementReceipt parses (wire stamp { r with
        revision := r.revision + 1, phase := phase, failureClass := none, failureDetail := "" }) =
      RuntimeTracker.validStopSettlementReceipt { r with
        revision := r.revision + 1, phase := phase, failureClass := none, failureDetail := "" } :=
    wire_valid ⟨epoch, by simp only; omega, attempt⟩ stamps
  have noClass : wireOption wireClass none = "" := rfl
  simp only [wire, noClass] at next
  simp only [nextStopSettlementReceipt, RuntimeTracker.nextStopSettlementReceipt, wire, isPhase,
    classSame, toFailed, atRequest, atExit, atRelease, validClass_wireOption, resumes, succ, ne_eq,
    next, Option.isSome_eq_false_iff, Option.isNone_iff_eq_none]
  split_ifs <;> simp [wire, wireOption, wirePhase]

end

def startStamp : String := "2026-01-02T03:04:05Z"

def parsesStart (text : String) : Bool := text = startStamp

theorem wire_next_exitObserved :
    let r : StopSettlementReceipt := ⟨"batch", "memory", 1, 4711, some 1767323045, 1, 0, .stop, 9123,
      1, 1, .stopRequested, none, "", none, "batch"⟩
    let stamp (time : ℤ) : String := if time = 1767323045 then startStamp else ""
    let observed := RuntimeTracker.nextStopSettlementReceipt r .exitObserved none ""
    observed.isSome = true ∧
      nextStopSettlementReceipt parsesStart (wire stamp r) phaseExitObserved "" "" =
        observed.map (wire stamp) :=
  ⟨by decide, wire_next (by decide) (by decide) (by decide) (by decide) .exitObserved none ""⟩

def requested : StopSettlementReceiptV1 where
  version := 1
  batchID := "batch"
  taskName := "memory"
  epoch := 1
  pid := 4711
  startedAt := startStamp
  pidGeneration := 1
  batchIndex := 0
  mode := "stop"
  port := 9123
  revision := 1
  attempt := 1
  phase := phaseStopRequested
  failureClass := ""
  failureDetail := ""
  resumePhase := ""
  operationID := "batch"

theorem next_receipt_valid_failed :
    ∃ next, nextStopSettlementReceipt parsesStart requested phaseFailed "termination_failed"
        " access denied " = some next ∧
      validStopSettlementReceipt parsesStart next = true ∧
      sameStopSettlementToken next requested = true ∧
      (next = requested ∨ next.revision.toNat = requested.revision.toNat + 1) := by
  refine ⟨_, rfl, ?_⟩
  exact (next_receipt_valid parsesStart requested _ phaseFailed "termination_failed"
    " access denied " (by decide +kernel) rfl).mpr
    (.inr ⟨by decide, fun _ => by decide +kernel, fun other => absurd rfl other⟩)

/-- A failure without a text is written down as a receipt that hydration refuses. -/
theorem blank_failure_invalid : validStopSettlementReceipt parsesStart requested = true ∧
      ∃ next, nextStopSettlementReceipt parsesStart requested phaseFailed "termination_failed"
          "" = some next ∧
        validStopSettlementReceipt parsesStart next = false :=
  ⟨by decide +kernel, _, rfl, by decide +kernel⟩

end McpLocalHub.Supervisor.ReceiptTransitions
