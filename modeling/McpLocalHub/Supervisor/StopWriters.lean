/- Module: Supervisor/StopWriters
   source: internal/api/stop_intent_subblock.go, internal/api/supervisor_intent.go
   digest: The writers of the stop sub-block, and the compensation of one write. -/

import McpLocalHub.Foundation.Runs
import McpLocalHub.Supervisor.CollapseConvergence

set_option autoImplicit false

/-!
A writer holds the lock of the file from the read to the write, so it is a function of the file. The
path resolves, and reading and writing succeed. The audit log is left out.

Below the model, a task is one slot: the stop and the watermark that readers see. `turn` says what a
writer does to a slot, in terms of the stop it decides on, and `mutate_seen` that the code does that
to the slot of its task and drops, in every other slot, a watermark beside a stop.
-/

namespace McpLocalHub.Supervisor.StopWriters

open Foundation.Runs Foundation.Maps IntentCollapse CollapseConvergence
open Intents (DaemonIntent IntentReason clockSkewFutureTolerance)

def identityFieldByteCap : ℕ := 1024

inductive StopIntentError
  | entryOversize | rollbackConflict

structure StopIntentTaskSnapshot where
  stop : Option DaemonIntent
  watermark : Option DaemonIntent
  appliedStop : Option DaemonIntent
  appliedWatermark : Option DaemonIntent
  deriving DecidableEq

/-- The results of a writer: the stop before and after, whether it changed, and the file as it is
left. -/
structure Mutation where
  before : Option DaemonIntent := none
  after : Option DaemonIntent := none
  changed : Bool := false
  prearmed : Option StopIntentTaskSnapshot := none
  err : Option StopIntentError := none
  file : Option SupervisorIntentFile

def stopEntriesEqual (a b : Option DaemonIntent) : Bool := decide (a = b)

def persistenceChanged (file : Option SupervisorIntentFile) (candidate : SupervisorIntentFile) :
    Bool :=
  let rawStops := file.getD {}
  !sameEntries rawStops.stops candidate.stops ||
    !sameEntries rawStops.legacyStopWatermarks candidate.legacyStopWatermarks

def departed (taskName : String) (before after : Option DaemonIntent) (watermarks : StopMap) :
    StopMap :=
  match before, after with
  | some prior, none => watermarks.insert taskName prior
  | _, _ => watermarks

def mutateStopSubBlockWithPrearm (taskName : String) (mutate : StopMap → StopMap)
    (file : Option SupervisorIntentFile) : Mutation :=
  let intent := readSupervisorIntentForMerge file
  let before := intent.stops.lookup taskName
  let priorWatermark := intent.legacyStopWatermarks.lookup taskName
  let stops := mutate intent.stops
  let after := stops.lookup taskName
  let watermarks := departed taskName before after intent.legacyStopWatermarks
  let candidate := normalizeAbsentOnlyStopWatermarks
    { intent with stops := stops, legacyStopWatermarks := watermarks }
  if persistenceChanged file candidate then
    { before := before
      after := after
      changed := !stopEntriesEqual before after
      prearmed := some
        { stop := before
          watermark := priorWatermark
          appliedStop := candidate.stops.lookup taskName
          appliedWatermark := candidate.legacyStopWatermarks.lookup taskName }
      file := some (marshalNextSupervisorIntent candidate) }
  else { before := before, after := after, file := file }

def placed (taskName : String) (value : Option DaemonIntent) (rows : StopMap) : StopMap :=
  match value with
  | none => rows.erase taskName
  | some record => rows.insert taskName record

def restoreStopIntentTaskSnapshot (taskName : String) (snapshot : StopIntentTaskSnapshot)
    (file : Option SupervisorIntentFile) : Mutation :=
  let intent := readSupervisorIntentForMerge file
  let before := intent.stops.lookup taskName
  let currentWatermark := intent.legacyStopWatermarks.lookup taskName
  if !stopEntriesEqual before snapshot.appliedStop ||
      !stopEntriesEqual currentWatermark snapshot.appliedWatermark then
    { before := before, after := before, err := some .rollbackConflict, file := file }
  else
    let stops := placed taskName snapshot.stop intent.stops
    let watermarks := placed taskName snapshot.watermark intent.legacyStopWatermarks
    let after := stops.lookup taskName
    let candidate := normalizeAbsentOnlyStopWatermarks
      { intent with stops := stops, legacyStopWatermarks := watermarks }
    if persistenceChanged file candidate then
      { before := before
        after := after
        changed := !stopEntriesEqual before after
        file := some (marshalNextSupervisorIntent candidate) }
    else { before := before, after := after, file := file }

def withIdentityCaps (taskName who : String) (file : Option SupervisorIntentFile)
    (body : String → Mutation) : Mutation :=
  if identityFieldByteCap < who.utf8ByteSize then { err := some .entryOversize, file := file }
  else
    let taskName := canonicalIntentTaskKey taskName
    if identityFieldByteCap < taskName.utf8ByteSize then
      { err := some .entryOversize, file := file }
    else body taskName

def stamped (intent : DaemonIntent) (stamp : Int) : DaemonIntent :=
  if intent.updatedAt = 0 then { intent with updatedAt := stamp } else intent

def setOrDrop (taskName : String) (intent : DaemonIntent) (now : Int) (stops : StopMap) : StopMap :=
  if intent.isActiveStop now then stops.insert taskName intent else stops.erase taskName

def writeStopIntent (taskName : String) (intent : DaemonIntent) (who : String) (stamp now : Int)
    (file : Option SupervisorIntentFile) : Mutation :=
  withIdentityCaps taskName who file (fun taskName =>
    mutateStopSubBlockWithPrearm taskName (setOrDrop taskName (stamped intent stamp) now) file)

/-- A stop from the future is a suspect of clock skew whatever its own reason is. -/
def activeReason (prior : DaemonIntent) (now : Int) : Option IntentReason :=
  if now < prior.updatedAt - clockSkewFutureTolerance then none else some prior.reason

def refusesIdle (now : Int) (prior : DaemonIntent) : Bool :=
  prior.isActiveStop now && decide (activeReason prior now ≠ some .idle)

def writeStopIntentIdleGuarded (taskName : String) (intent : DaemonIntent) (who : String)
    (stamp now : Int) (file : Option SupervisorIntentFile) : Mutation :=
  withIdentityCaps taskName who file (fun taskName =>
    mutateStopSubBlockWithPrearm taskName (fun stops =>
      if (stops.lookup taskName).any (refusesIdle now) then stops
      else setOrDrop taskName (stamped intent stamp) now stops) file)

def clearStopIntent (taskName who : String) (file : Option SupervisorIntentFile) : Mutation :=
  withIdentityCaps taskName who file (fun taskName =>
    mutateStopSubBlockWithPrearm taskName (fun stops => stops.erase taskName) file)

def clearStopIntentIfReason (taskName : String) (wantReason : IntentReason) (who : String)
    (file : Option SupervisorIntentFile) : Bool × Mutation :=
  let cleared := withIdentityCaps taskName who file (fun taskName =>
    mutateStopSubBlockWithPrearm taskName (fun stops =>
      if (stops.lookup taskName).any (fun prior => decide (prior.reason = wantReason)) then
        stops.erase taskName
      else stops) file)
  (cleared.err.isNone && cleared.before.all (fun prior => decide (prior.reason = wantReason)), cleared)

inductive StopOp
  | write (taskName : String) (intent : DaemonIntent) (who : String) (stamp now : Int)
  | writeIdleGuarded (taskName : String) (intent : DaemonIntent) (who : String) (stamp now : Int)
  | clear (taskName who : String)
  | clearIfReason (taskName : String) (wantReason : IntentReason) (who : String)

def StopOp.apply : StopOp → Option SupervisorIntentFile → Mutation
  | .write taskName intent who stamp now, file => writeStopIntent taskName intent who stamp now file
  | .writeIdleGuarded taskName intent who stamp now, file =>
    writeStopIntentIdleGuarded taskName intent who stamp now file
  | .clear taskName who, file => clearStopIntent taskName who file
  | .clearIfReason taskName wantReason who, file =>
    (clearStopIntentIfReason taskName wantReason who file).2

abbrev Slot := Option DaemonIntent × Option DaemonIntent

def seenIn (file : Option SupervisorIntentFile) (key : String) : Slot :=
  ((readSupervisorIntentForMerge file).stops.lookup key,
    (readSupervisorIntentForMerge file).legacyStopWatermarks.lookup key)

def absentOnly (slot : Slot) : Slot := (slot.1, if slot.1.isNone then slot.2 else none)

/-- A stop takes the watermark away, and a stop that goes becomes the watermark. -/
def turn (decided : Option DaemonIntent → Option DaemonIntent) (slot : Slot) : Slot :=
  match decided slot.1 with
  | some stop => (some stop, none)
  | none => (none, slot.1.or slot.2)

theorem absentOnly_of_single {slot : Slot} (single : slot.1 = none ∨ slot.2 = none) :
    absentOnly slot = slot := by
  obtain ⟨stop, mark⟩ := slot
  cases stop with
  | none => rfl
  | some record =>
    have gone : mark = none := single.resolve_left (Option.some_ne_none record)
    rw [gone]
    rfl

theorem absentOnly_single (slot : Slot) :
    (absentOnly slot).1 = none ∨ (absentOnly slot).2 = none := by
  obtain ⟨stop, mark⟩ := slot
  cases stop with
  | none => exact .inl rfl
  | some record => exact .inr rfl

theorem turn_single (decided : Option DaemonIntent → Option DaemonIntent) (slot : Slot) :
    (turn decided slot).1 = none ∨ (turn decided slot).2 = none := by
  unfold turn
  cases decided slot.1 with
  | none => exact .inl rfl
  | some stop => exact .inr rfl

variable {file : Option SupervisorIntentFile} {taskName : String}
  {snapshot : StopIntentTaskSnapshot}

theorem seenIn_of_canonical (stops : Canonical (file.getD {}).stops)
    (watermarks : Canonical (file.getD {}).legacyStopWatermarks) (key : String) :
    seenIn file key =
      ((file.getD {}).stops.lookup key, (file.getD {}).legacyStopWatermarks.lookup key) := by
  cases file with
  | none => rfl
  | some raw =>
    exact Prod.ext (normalize_of_canonical stops key) (normalize_of_canonical watermarks key)

variable {f : SupervisorIntentFile} {now : Int} {prior : DaemonIntent}

theorem candidate_seen (stops : Canonical f.stops)
    (watermarks : Canonical f.legacyStopWatermarks) (key : String) :
    ((normalizeAbsentOnlyStopWatermarks f).stops.lookup key,
      (normalizeAbsentOnlyStopWatermarks f).legacyStopWatermarks.lookup key) =
      absentOnly (f.stops.lookup key, f.legacyStopWatermarks.lookup key) :=
  Prod.ext (normalizeAbsentOnly_lookup stops watermarks key).1
    (normalizeAbsentOnly_lookup stops watermarks key).2

/-- The last step of a writer: the normalised candidate is what readers see. -/
theorem commit_seen (file : Option SupervisorIntentFile)
    (stops : Canonical f.stops) (watermarks : Canonical f.legacyStopWatermarks) (key : String) :
    seenIn (if persistenceChanged file (normalizeAbsentOnlyStopWatermarks f) then
        some (marshalNextSupervisorIntent (normalizeAbsentOnlyStopWatermarks f)) else file) key =
      absentOnly (f.stops.lookup key, f.legacyStopWatermarks.lookup key) := by
  have stopsKept : Canonical (normalizeAbsentOnlyStopWatermarks f).stops :=
    stops.congr (fun k => (normalizeAbsentOnly_lookup stops watermarks k).1)
  have marksKept : Canonical (normalizeAbsentOnlyStopWatermarks f).legacyStopWatermarks :=
    (normalize_canonical f.legacyStopWatermarks).keep _
  rw [← candidate_seen stops watermarks key]
  cases moved : persistenceChanged file (normalizeAbsentOnlyStopWatermarks f) with
  | true =>
    obtain ⟨stopsBack, marksBack⟩ := read_written stopsKept marksKept
      (normalizeAbsentOnly_disjoint f) key
    exact Prod.ext stopsBack marksBack
  | false =>
    rw [if_neg Bool.false_ne_true]
    obtain ⟨sameStops, sameMarks⟩ := Bool.or_eq_false_iff.mp moved
    have stopsRaw := sameEntries_iff.mp (by simpa using sameStops)
    have marksRaw := sameEntries_iff.mp (by simpa using sameMarks)
    rw [seenIn_of_canonical (stopsKept.congr stopsRaw) (marksKept.congr marksRaw)]
    exact Prod.ext (stopsRaw key) (marksRaw key)

structure Decides (taskName : String) (mutate : StopMap → StopMap)
    (decided : Option DaemonIntent → Option DaemonIntent) : Prop where
  own : canonicalIntentTaskKey taskName = taskName
  here : ∀ stops, (mutate stops).lookup taskName = decided (stops.lookup taskName)
  elsewhere : ∀ stops key, key ≠ taskName → (mutate stops).lookup key = stops.lookup key

theorem canonical_of_elsewhere {rows other : StopMap} (canonical : Canonical rows)
    (own : canonicalIntentTaskKey taskName = taskName)
    (elsewhere : ∀ key, key ≠ taskName → other.lookup key = rows.lookup key) : Canonical other := by
  intro key record found
  by_cases named : key = taskName
  · rw [named]
    exact own
  · exact canonical key record ((elsewhere key named).symm.trans found)

section Core

variable {taskName : String} {mutate : StopMap → StopMap}
  {decided : Option DaemonIntent → Option DaemonIntent}

theorem departed_elsewhere (before after : Option DaemonIntent) (watermarks : StopMap)
    {key : String} (other : key ≠ taskName) :
    (departed taskName before after watermarks).lookup key = watermarks.lookup key := by
  cases before with
  | none => rfl
  | some prior =>
    cases after with
    | none => exact AList.lookup_insert_ne other
    | some stop => rfl

theorem departed_here (before after : Option DaemonIntent) (watermarks : StopMap) :
    absentOnly (after, (departed taskName before after watermarks).lookup taskName) =
      turn (fun _ => after) (before, watermarks.lookup taskName) := by
  cases after with
  | some stop => rfl
  | none =>
    cases before with
    | none => rfl
    | some prior => exact congrArg (Prod.mk none) (AList.lookup_insert watermarks)

def proposed (taskName : String) (mutate : StopMap → StopMap) (intent : SupervisorIntentFile) :
    SupervisorIntentFile :=
  { intent with
    stops := mutate intent.stops
    legacyStopWatermarks := departed taskName (intent.stops.lookup taskName)
      ((mutate intent.stops).lookup taskName) intent.legacyStopWatermarks }

section

variable (decides : Decides taskName mutate decided) (file : Option SupervisorIntentFile)

include decides

theorem proposed_canonical :
    Canonical (proposed taskName mutate (readSupervisorIntentForMerge file)).stops ∧
      Canonical (proposed taskName mutate (readSupervisorIntentForMerge file)).legacyStopWatermarks := by
  obtain ⟨readStops, readMarks⟩ := read_canonical file
  constructor
  · exact canonical_of_elsewhere readStops decides.own (decides.elsewhere _)
  · exact canonical_of_elsewhere readMarks decides.own
      (fun key other => departed_elsewhere _ _ _ other)

theorem proposed_seen (key : String) :
    absentOnly ((proposed taskName mutate (readSupervisorIntentForMerge file)).stops.lookup key,
      (proposed taskName mutate (readSupervisorIntentForMerge file)).legacyStopWatermarks.lookup key) =
      if key = taskName then turn decided (seenIn file key) else absentOnly (seenIn file key) := by
  unfold proposed
  split_ifs with named
  · subst named
    rw [departed_here, decides.here]
    rfl
  · rw [decides.elsewhere _ key named, departed_elsewhere _ _ _ named]
    rfl

theorem mutate_seen
    (key : String) : seenIn (mutateStopSubBlockWithPrearm taskName mutate file).file key =
      if key = taskName then turn decided (seenIn file key) else absentOnly (seenIn file key) := by
  obtain ⟨stops, marks⟩ := proposed_canonical decides file
  rw [← proposed_seen decides file key, ← commit_seen file stops marks key]
  exact congrArg (seenIn · key) (apply_ite Mutation.file _ _ _)

end

theorem mutate_prearmed (decides : Decides taskName mutate decided)
    {file : Option SupervisorIntentFile} {snapshot : StopIntentTaskSnapshot}
    (armed : (mutateStopSubBlockWithPrearm taskName mutate file).prearmed = some snapshot) :
    (snapshot.stop, snapshot.watermark) = seenIn file taskName ∧
      (snapshot.appliedStop, snapshot.appliedWatermark) =
        seenIn (mutateStopSubBlockWithPrearm taskName mutate file).file taskName := by
  obtain ⟨stops, marks⟩ := proposed_canonical decides file
  have applied := (candidate_seen stops marks taskName).trans (proposed_seen decides file taskName)
  rw [mutate_seen decides file taskName, ← applied]
  unfold mutateStopSubBlockWithPrearm at armed
  dsimp only at armed
  split_ifs at armed
  cases armed
  exact ⟨rfl, rfl⟩

end Core

theorem placed_here (taskName : String) (value : Option DaemonIntent) (rows : StopMap) :
    (placed taskName value rows).lookup taskName = value := by
  cases value with
  | none => exact AList.lookup_erase taskName rows
  | some record => exact AList.lookup_insert rows

theorem placed_elsewhere {key : String} (value : Option DaemonIntent) (rows : StopMap)
    (other : key ≠ taskName) : (placed taskName value rows).lookup key = rows.lookup key := by
  cases value with
  | none => exact AList.lookup_erase_ne other
  | some record => exact AList.lookup_insert_ne other

theorem applied_iff (taskName : String) (snapshot : StopIntentTaskSnapshot)
    (file : Option SupervisorIntentFile) :
    (!stopEntriesEqual ((readSupervisorIntentForMerge file).stops.lookup taskName)
          snapshot.appliedStop ||
        !stopEntriesEqual ((readSupervisorIntentForMerge file).legacyStopWatermarks.lookup taskName)
          snapshot.appliedWatermark) = true ↔
      seenIn file taskName ≠ (snapshot.appliedStop, snapshot.appliedWatermark) := by
  unfold stopEntriesEqual seenIn
  rw [ne_eq, Prod.ext_iff, Bool.or_eq_true, not_and_or]
  simp only [Bool.not_eq_true', decide_eq_false_iff_not]

theorem restore_seen (own : canonicalIntentTaskKey taskName = taskName)
    (applied : seenIn file taskName = (snapshot.appliedStop, snapshot.appliedWatermark)) :
    (restoreStopIntentTaskSnapshot taskName snapshot file).err = none ∧
      ∀ key, seenIn (restoreStopIntentTaskSnapshot taskName snapshot file).file key =
        absentOnly (if key = taskName then (snapshot.stop, snapshot.watermark)
          else seenIn file key) := by
  obtain ⟨readStops, readMarks⟩ := read_canonical file
  have stops := canonical_of_elsewhere readStops own
    (fun key other => placed_elsewhere snapshot.stop _ other)
  have marks := canonical_of_elsewhere readMarks own
    (fun key other => placed_elsewhere snapshot.watermark _ other)
  have agreed := fun differs => (applied_iff taskName snapshot file).mp differs applied
  unfold restoreStopIntentTaskSnapshot
  dsimp only
  rw [if_neg agreed]
  constructor
  · split_ifs <;> rfl
  · intro key
    have committed := commit_seen file
      (f := { readSupervisorIntentForMerge file with
        stops := placed taskName snapshot.stop (readSupervisorIntentForMerge file).stops
        legacyStopWatermarks := placed taskName snapshot.watermark
          (readSupervisorIntentForMerge file).legacyStopWatermarks }) stops marks key
    refine (congrArg (seenIn · key) (apply_ite Mutation.file _ _ _)).trans (committed.trans ?_)
    split_ifs with named
    · rw [named, placed_here, placed_here]
    · rw [placed_elsewhere _ _ named, placed_elsewhere _ _ named]
      rfl

theorem restore_conflict
    (moved : seenIn file taskName ≠ (snapshot.appliedStop, snapshot.appliedWatermark)) :
    (restoreStopIntentTaskSnapshot taskName snapshot file).err = some .rollbackConflict ∧
      (restoreStopIntentTaskSnapshot taskName snapshot file).file = file := by
  have differs := (applied_iff taskName snapshot file).mpr moved
  unfold restoreStopIntentTaskSnapshot
  rw [if_pos differs]
  exact ⟨rfl, rfl⟩

def StopOp.key : StopOp → String
  | .write taskName .. => canonicalIntentTaskKey taskName
  | .writeIdleGuarded taskName .. => canonicalIntentTaskKey taskName
  | .clear taskName _ => canonicalIntentTaskKey taskName
  | .clearIfReason taskName .. => canonicalIntentTaskKey taskName

def StopOp.who : StopOp → String
  | .write _ _ who .. => who
  | .writeIdleGuarded _ _ who .. => who
  | .clear _ who => who
  | .clearIfReason _ _ who => who

def StopOp.Fits (op : StopOp) : Prop :=
  op.who.utf8ByteSize ≤ identityFieldByteCap ∧ op.key.utf8ByteSize ≤ identityFieldByteCap
  deriving Decidable

def StopOp.decided : StopOp → Option DaemonIntent → Option DaemonIntent
  | .write _ intent _ stamp now, _ =>
    if (stamped intent stamp).isActiveStop now then some (stamped intent stamp) else none
  | .writeIdleGuarded _ intent _ stamp now, prior =>
    if prior.any (refusesIdle now) then prior
    else if (stamped intent stamp).isActiveStop now then some (stamped intent stamp) else none
  | .clear .., _ => none
  | .clearIfReason _ wantReason _, prior =>
    if prior.any (fun prior => decide (prior.reason = wantReason)) then none else prior

def StopOp.mutate (op : StopOp) (stops : StopMap) : StopMap :=
  match op with
  | .write _ intent _ stamp now => setOrDrop op.key (stamped intent stamp) now stops
  | .writeIdleGuarded _ intent _ stamp now =>
    if (stops.lookup op.key).any (refusesIdle now) then stops
    else setOrDrop op.key (stamped intent stamp) now stops
  | .clear .. => stops.erase op.key
  | .clearIfReason _ wantReason _ =>
    if (stops.lookup op.key).any (fun prior => decide (prior.reason = wantReason)) then
      stops.erase op.key
    else stops

theorem withIdentityCaps_eq (taskName who : String) (file : Option SupervisorIntentFile)
    (body : String → Mutation) :
    withIdentityCaps taskName who file body =
      if who.utf8ByteSize ≤ identityFieldByteCap ∧
          (canonicalIntentTaskKey taskName).utf8ByteSize ≤ identityFieldByteCap then
        body (canonicalIntentTaskKey taskName)
      else { err := some .entryOversize, file := file } := by
  unfold withIdentityCaps
  by_cases long : identityFieldByteCap < who.utf8ByteSize
  · rw [if_pos long, if_neg (fun fits => absurd fits.1 (not_le.mpr long))]
  · by_cases wide : identityFieldByteCap < (canonicalIntentTaskKey taskName).utf8ByteSize
    · rw [if_neg long, if_pos wide, if_neg (fun fits => absurd fits.2 (not_le.mpr wide))]
    · rw [if_neg long, if_neg wide, if_pos ⟨not_lt.mp long, not_lt.mp wide⟩]

theorem StopOp.apply_eq (op : StopOp) (file : Option SupervisorIntentFile) :
    op.apply file = if op.Fits then mutateStopSubBlockWithPrearm op.key op.mutate file
      else { err := some .entryOversize, file := file } := by
  cases op <;>
    simp only [StopOp.apply, writeStopIntent, writeStopIntentIdleGuarded, clearStopIntent,
      clearStopIntentIfReason, withIdentityCaps_eq] <;> rfl

theorem StopOp.mutate_cases (op : StopOp) (stops : StopMap) :
    op.mutate stops = placed op.key (op.decided (stops.lookup op.key)) stops ∨
      op.mutate stops = stops ∧ op.decided (stops.lookup op.key) = stops.lookup op.key := by
  have set (key : String) (intent : DaemonIntent) (now : Int) : setOrDrop key intent now stops =
      placed key (if intent.isActiveStop now then some intent else none) stops := by
    unfold setOrDrop
    split_ifs <;> rfl
  cases op with
  | write => exact .inl (set _ _ _)
  | clear => exact .inl rfl
  | writeIdleGuarded taskName _ _ _ now =>
    by_cases refused : (stops.lookup (canonicalIntentTaskKey taskName)).any (refusesIdle now) = true
    · exact .inr ⟨if_pos refused, if_pos refused⟩
    · exact .inl ((if_neg refused).trans ((set _ _ _).trans
        (congrArg (placed _ · stops) (if_neg refused).symm)))
  | clearIfReason taskName wantReason who =>
    by_cases named : (stops.lookup (canonicalIntentTaskKey taskName)).any
        (fun prior => decide (prior.reason = wantReason)) = true
    · have drops : (StopOp.clearIfReason taskName wantReason who).decided
          (stops.lookup (canonicalIntentTaskKey taskName)) = none := if_pos named
      exact .inl ((if_pos named).trans (congrArg (placed _ · stops) drops.symm))
    · exact .inr ⟨if_neg named, if_neg named⟩

theorem StopOp.decides (op : StopOp) : Decides op.key op.mutate op.decided := by
  refine ⟨by cases op <;> exact canonicalIntentTaskKey_idem _, fun stops => ?_, fun stops key other => ?_⟩
  · rcases op.mutate_cases stops with puts | ⟨keeps, same⟩
    · rw [puts, placed_here]
    · rw [keeps, same]
  · rcases op.mutate_cases stops with puts | ⟨keeps, -⟩
    · rw [puts, placed_elsewhere _ _ other]
    · rw [keeps]

theorem StopOp.apply_seen (op : StopOp) (file : Option SupervisorIntentFile) (key : String) :
    seenIn (op.apply file).file key = if op.Fits then
        if key = op.key then turn op.decided (seenIn file key) else absentOnly (seenIn file key)
      else seenIn file key := by
  rw [op.apply_eq]
  split_ifs with fits own
  · rw [mutate_seen op.decides, if_pos own]
  · rw [mutate_seen op.decides, if_neg own]
  · rfl

/-- The four writers, the compensation of any write, and a run of the collapse on any legacy file.
-/
inductive StopWriter
  | call (op : StopOp)
  | restore (taskName : String) (snapshot : StopIntentTaskSnapshot)
  | collapse (legacy : Option StopMap) (now : Int)

def step (file : Option SupervisorIntentFile) : StopWriter → Option (Option SupervisorIntentFile)
  | .call op => some (op.apply file).file
  | .restore taskName snapshot =>
    some (restoreStopIntentTaskSnapshot (canonicalIntentTaskKey taskName) snapshot file).file
  | .collapse legacy now =>
    some (runDaemonIntentCollapse false now ⟨file, legacy⟩).2.supervisorIntent

def Single (file : Option SupervisorIntentFile) : Prop :=
  ∀ key, (seenIn file key).1 = none ∨ (seenIn file key).2 = none

theorem mutate_single {mutate : StopMap → StopMap}
    {decided : Option DaemonIntent → Option DaemonIntent}
    (decides : Decides taskName mutate decided) (file : Option SupervisorIntentFile) :
    Single (mutateStopSubBlockWithPrearm taskName mutate file).file := by
  intro key
  rw [mutate_seen decides]
  split_ifs
  · exact turn_single decided _
  · exact absentOnly_single _

theorem restore_single (own : canonicalIntentTaskKey taskName = taskName)
    (snapshot : StopIntentTaskSnapshot) (single : Single file) :
    Single (restoreStopIntentTaskSnapshot taskName snapshot file).file := by
  by_cases applied : seenIn file taskName = (snapshot.appliedStop, snapshot.appliedWatermark)
  · intro key
    rw [(restore_seen own applied).2]
    exact absentOnly_single _
  · rw [(restore_conflict applied).2]
    exact single

theorem collapse_single (file : Option SupervisorIntentFile) (legacy : Option StopMap) (now : Int) :
    Single (runDaemonIntentCollapse false now ⟨file, legacy⟩).2.supervisorIntent := by
  intro key
  have merged := mergeLoop_single (readSupervisorIntentForMerge file) legacy now key
  have reads := run_seen now ⟨file, legacy⟩ key
  change (seenOn _ key).1 = none ∨ (seenOn _ key).2 = none
  rw [reads]
  exact merged

theorem step_single {before after : Option SupervisorIntentFile} {writer : StopWriter}
    (single : Single before) (moved : step before writer = some after) : Single after := by
  cases writer with
  | call op =>
    cases moved
    rw [op.apply_eq]
    split_ifs
    · exact mutate_single op.decides before
    · exact single
  | restore taskName snapshot =>
    cases moved
    exact restore_single (canonicalIntentTaskKey_idem taskName) snapshot single
  | collapse legacy now =>
    cases moved
    exact collapse_single before legacy now

theorem write_prearmed {who : String} {intent : DaemonIntent} {stamp : Int}
    (armed : (writeStopIntent taskName intent who stamp now file).prearmed = some snapshot) :
    (snapshot.stop, snapshot.watermark) = seenIn file (canonicalIntentTaskKey taskName) ∧
      (snapshot.appliedStop, snapshot.appliedWatermark) =
        seenIn (writeStopIntent taskName intent who stamp now file).file
          (canonicalIntentTaskKey taskName) ∧
      Single (writeStopIntent taskName intent who stamp now file).file := by
  have written := (StopOp.write taskName intent who stamp now).apply_eq file
  have decides := (StopOp.write taskName intent who stamp now).decides
  change writeStopIntent taskName intent who stamp now file = _ at written
  rw [written] at armed ⊢
  split_ifs at armed ⊢
  obtain ⟨found, left⟩ := mutate_prearmed decides armed
  exact ⟨found, left, mutate_single decides file⟩

theorem refusesIdle_of_active
    (active : prior.isActiveStop now = true) (operator : prior.reason ≠ .idle) :
    refusesIdle now prior = true := by
  have named : activeReason prior now ≠ some .idle := by
    unfold activeReason
    split_ifs
    · exact nofun
    · exact fun same => operator (Option.some.inj same)
  unfold refusesIdle
  rw [active, decide_eq_true named]
  rfl

theorem StopOp.apply_keeps (op : StopOp)
    (present : (seenIn file op.key).1 = some prior) (keeps : op.decided (some prior) = some prior) :
    (seenIn (op.apply file).file op.key).1 = some prior := by
  rw [op.apply_seen, if_pos rfl]
  split_ifs
  · unfold turn
    rw [present, keeps]
  · exact present

/-- After any sequence of other writers: where the slot of the task is still the one that the write
has applied, the compensation gives it back the slot from before, without a watermark beside a stop,
and no other slot moves; otherwise the file stays and a conflict is reported. An active stop that is
not idle survives the guarded writer and a clear for another reason. -/
theorem compensation_exact {taskName who : String} {intent : DaemonIntent} {stamp now : Int}
    {file current : Option SupervisorIntentFile} {snapshot : StopIntentTaskSnapshot}
    {writers : List StopWriter}
    (armed : (writeStopIntent taskName intent who stamp now file).prearmed = some snapshot)
    (between : Run step always (writeStopIntent taskName intent who stamp now file).file writers
      current) :
    (seenIn current (canonicalIntentTaskKey taskName) =
        seenIn (writeStopIntent taskName intent who stamp now file).file
          (canonicalIntentTaskKey taskName) →
      (restoreStopIntentTaskSnapshot (canonicalIntentTaskKey taskName) snapshot current).err = none ∧
        seenIn
            (restoreStopIntentTaskSnapshot (canonicalIntentTaskKey taskName) snapshot current).file
            (canonicalIntentTaskKey taskName) =
          absentOnly (seenIn file (canonicalIntentTaskKey taskName)) ∧
        ∀ other, other ≠ canonicalIntentTaskKey taskName → seenIn
              (restoreStopIntentTaskSnapshot (canonicalIntentTaskKey taskName) snapshot current).file
              other =
            seenIn current other) ∧
    (seenIn current (canonicalIntentTaskKey taskName) ≠
        seenIn (writeStopIntent taskName intent who stamp now file).file
          (canonicalIntentTaskKey taskName) →
      (restoreStopIntentTaskSnapshot (canonicalIntentTaskKey taskName) snapshot current).err =
          some .rollbackConflict ∧
        (restoreStopIntentTaskSnapshot (canonicalIntentTaskKey taskName) snapshot current).file =
          current) ∧
    (∀ (found : Option SupervisorIntentFile) (guarded : String) (idle : DaemonIntent)
        (sweeper : String) (stampIdle nowIdle : Int) (prior : DaemonIntent),
      (seenIn found (canonicalIntentTaskKey guarded)).1 = some prior →
      prior.isActiveStop nowIdle = true → prior.reason ≠ .idle →
        (seenIn (writeStopIntentIdleGuarded guarded idle sweeper stampIdle nowIdle found).file
          (canonicalIntentTaskKey guarded)).1 = some prior) ∧
    (∀ (found : Option SupervisorIntentFile) (cleared : String) (wantReason : IntentReason)
        (waker : String) (prior : DaemonIntent),
      (seenIn found (canonicalIntentTaskKey cleared)).1 = some prior → prior.reason ≠ wantReason →
        (seenIn (clearStopIntentIfReason cleared wantReason waker found).2.file
          (canonicalIntentTaskKey cleared)).1 = some prior) := by
  obtain ⟨found, left, writtenSingle⟩ := write_prearmed armed
  have single : Single current :=
    between.invariant (fun _ _ _ held _ moved => step_single held moved) writtenSingle
  have own := canonicalIntentTaskKey_idem taskName
  refine ⟨?_, ?_, ?_, ?_⟩
  · intro same
    obtain ⟨done, reads⟩ := restore_seen own (same.trans left.symm)
    refine ⟨done, ?_, ?_⟩
    · rw [reads, if_pos rfl, found]
    · intro other apart
      rw [reads, if_neg apart]
      exact absentOnly_of_single (single other)
  · intro moved
    exact restore_conflict (fun same => moved (same.trans left))
  · intro found guarded idle sweeper stampIdle nowIdle prior present active operator
    refine (StopOp.writeIdleGuarded guarded idle sweeper stampIdle nowIdle).apply_keeps present ?_
    exact if_pos (refusesIdle_of_active active operator)
  · intro found cleared wantReason waker prior present differs
    refine (StopOp.clearIfReason cleared wantReason waker).apply_keeps present (if_neg ?_)
    exact fun named => differs (of_decide_eq_true named)

def memoryFile : SupervisorIntentFile where
  stops := AList.insert "\\memory" (stopAt .userStop 5) ∅
  legacyStopWatermarks := AList.insert "\\time" (stopAt .idle 4) ∅

def memorySnapshot : StopIntentTaskSnapshot where
  stop := some (stopAt .userStop 5)
  watermark := none
  appliedStop := none
  appliedWatermark := some (stopAt .userStop 5)

theorem compensation_exact_memory :
    ∃ current, Run step always
        (writeStopIntent "memory" ⟨.running, .none, 6⟩ "cli" 0 10 (some memoryFile)).file
        [.call (.write "time" (stopAt .userDisabled 7) "cli" 0 10)] current ∧
      (seenIn current "\\memory").1 = none ∧
      seenIn (restoreStopIntentTaskSnapshot "\\memory" memorySnapshot current).file "\\memory" =
        (some (stopAt .userStop 5), none) := by
  obtain ⟨current, ran, same, gone⟩ := end_of_exec step
    (writeStopIntent "memory" ⟨.running, .none, 6⟩ "cli" 0 10 (some memoryFile)).file
    [.call (.write "time" (stopAt .userDisabled 7) "cli" 0 10)]
    (fun current => seenIn current "\\memory" =
      seenIn (writeStopIntent "memory" ⟨.running, .none, 6⟩ "cli" 0 10 (some memoryFile)).file
        "\\memory" ∧ (seenIn current "\\memory").1 = none) (by decide +kernel)
  have armed : (writeStopIntent "memory" ⟨.running, .none, 6⟩ "cli" 0 10 (some memoryFile)).prearmed =
      some memorySnapshot := by decide +kernel
  have restored := ((compensation_exact armed (run_of_exec ran)).1 same).2.1
  exact ⟨current, run_of_exec ran, gone, restored.trans (by decide +kernel)⟩

def doubledFile : SupervisorIntentFile where
  stops := AList.insert "\\memory" (stopAt .userStop 5) ∅
  legacyStopWatermarks := AList.insert "\\memory" (stopAt .idle 4) ∅

/-- The compensation finds the slot that the write has applied, and does not bring back the
watermark. -/
theorem doubled_watermark_lost : (seenIn (some doubledFile) "\\memory").2 = some (stopAt .idle 4) ∧
      ∃ snapshot,
        (writeStopIntent "memory" (stopAt .userDisabled 7) "cli" 0 10 (some doubledFile)).prearmed =
          some snapshot ∧
        (restoreStopIntentTaskSnapshot "\\memory" snapshot
          (writeStopIntent "memory" (stopAt .userDisabled 7) "cli" 0 10 (some doubledFile)).file).err =
          none ∧
        (seenIn (restoreStopIntentTaskSnapshot "\\memory" snapshot
          (writeStopIntent "memory" (stopAt .userDisabled 7) "cli" 0 10 (some doubledFile)).file).file
          "\\memory").2 = none := by
  refine ⟨by decide +kernel, ⟨some (stopAt .userStop 5), some (stopAt .idle 4),
    some (stopAt .userDisabled 7), none⟩, ?_⟩
  decide +kernel

end McpLocalHub.Supervisor.StopWriters
