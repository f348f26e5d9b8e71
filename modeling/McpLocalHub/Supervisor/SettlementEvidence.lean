/- Module: Supervisor/SettlementEvidence
   source: internal/cli/supervisor_runtime_tracker.go
   digest: A durable receipt changes and leaves only by its own calls, and the mirror is the
   file. -/

import McpLocalHub.Supervisor.SettlementRules

set_option autoImplicit false

namespace McpLocalHub.Supervisor.SettlementEvidence

open Foundation.Maps Foundation.Runs Intents RuntimeTracker StopSettlements SettlementRules
open StopBatch (StopBatchCommand)

def installed (mirror : Settlements) (holder : Option Holder) : Settlements :=
  match holder.map Holder.stage with
  | some (.batchWritten receipts) => addReceipts receipts mirror
  | some (.advanceWritten expected next) => mirror.insert expected.taskName next
  | some (.removeWritten expected) => mirror.erase expected.taskName
  | _ => mirror

def StageFits (t : Tracker) (file fileBefore : SupervisorStateFile) : Stage → Prop
  | .batch plan =>
    t.stopSettlementIntegrityErr = none ∧ fileBefore = file ∧
      ∀ pair ∈ plan.targets, canonicalSupervisorTaskName pair.1.taskName = pair.1.taskName
  | .batchWritten receipts =>
    t.stopSettlementIntegrityErr = none ∧
      ∀ receipt ∈ receipts, t.stopSettlements.lookup receipt.taskName = none
  | .advance expected next =>
    holdsRevision t.stopSettlements expected = true ∧
      ∃ phase failureClass failureDetail,
        nextStopSettlementReceipt expected phase failureClass failureDetail = some next
  | .advanceWritten expected _ => holdsRevision t.stopSettlements expected = true
  | .remove expected =>
    holdsRevision t.stopSettlements expected = true ∧ expected.phase = .portReleased
  | .removeWritten expected => holdsRevision t.stopSettlements expected = true
  | .persist snapshot =>
    snapshot.stopSettlements = t.stopSettlements ∧
      snapshot.stopSettlementIntegrityErr = t.stopSettlementIntegrityErr

/-- A refused batch left the file as it was, or the error is set. -/
def RefusalKept (returned : Returned) : Prop :=
  ∀ refusal, returned.outcome = .batch (.error refusal) →
    returned.fileAfter = returned.fileBefore ∨ returned.integrityErr ≠ none

structure Evidence (s : System) : Prop where
  keys : CanonicalKeys s.file
  mirrors : Mirrors s.tracker.stopSettlementIntegrityErr
    (installed s.tracker.stopSettlements s.holder) s.file.stopSettlements
  fits : ∀ holder, s.holder = some holder →
    StageFits s.tracker s.file holder.fileBefore holder.stage
  refusals : ∀ returned ∈ s.returned, RefusalKept returned

variable {s t : System} {action : Action} {holder : Holder} {file : SupervisorStateFile}

section Return

variable {fileBefore : SupervisorStateFile} {outcome : Outcome}

theorem Evidence.finish (sound : Evidence s) {tracker : Tracker}
    (mirrors : Mirrors tracker.stopSettlementIntegrityErr tracker.stopSettlements
      s.file.stopSettlements)
    (kept : ∀ refusal, outcome = .batch (.error refusal) →
      s.file = fileBefore ∨ tracker.stopSettlementIntegrityErr ≠ none) :
    Evidence ({ s with tracker := tracker }.give fileBefore outcome) where
  keys := sound.keys
  mirrors := mirrors
  fits := fun _ held => nomatch held
  refusals := List.forall_mem_append.mpr ⟨sound.refusals, List.forall_mem_singleton.mpr kept⟩

theorem Evidence.give (sound : Evidence s)
    (unwritten : installed s.tracker.stopSettlements s.holder = s.tracker.stopSettlements)
    (kept : ∀ refusal, outcome = .batch (.error refusal) → s.file = fileBefore) :
    Evidence (s.give fileBefore outcome) :=
  sound.finish (unwritten ▸ sound.mirrors) (fun refusal failed => .inl (kept refusal failed))

end Return

variable {stage : Stage} {stateFileOK : Bool} {task : String} {receipt : StopSettlementReceipt}

theorem Evidence.hold (sound : Evidence s) (free : s.holder = none)
    (unwritten : installed s.tracker.stopSettlements (some ⟨stage, s.file⟩) =
      s.tracker.stopSettlements)
    (fits : StageFits s.tracker s.file s.file stage) : Evidence (s.hold stage) where
  keys := sound.keys
  mirrors := by
    have before := sound.mirrors
    rw [free] at before
    change Mirrors _ (installed s.tracker.stopSettlements (some ⟨stage, s.file⟩)) _
    rw [unwritten]
    exact before
  fits := by
    intro holder held
    cases held
    exact fits
  refusals := sound.refusals

theorem startCall_evidence (sound : Evidence s)
    (free : s.holder = none) (moved : startCall s action = some t) : Evidence t := by
  have unwritten : installed s.tracker.stopSettlements s.holder = s.tracker.stopSettlements := by
    rw [free]
    rfl
  unfold startCall at moved
  split at moved
  · split at moved
    · cases moved
      exact sound.give unwritten (fun _ _ => rfl)
    · next plan valid =>
        cases moved
        obtain ⟨unset, canonical⟩ := validateBatch_spec valid
        exact sound.hold free rfl ⟨unset, rfl, canonical⟩
  · split at moved
    · cases moved
      exact sound.give unwritten (fun _ _ => rfl)
    · next next valid =>
        obtain ⟨held, following⟩ := validateAdvance_spec valid
        split_ifs at moved
        · cases moved
          exact sound.give unwritten (fun _ _ => rfl)
        · cases moved
          exact sound.hold free rfl ⟨held, _, _, _, following⟩
  · split at moved
    · cases moved
      exact sound.give unwritten (fun _ _ => rfl)
    · next valid =>
        cases moved
        exact sound.hold free rfl (validateRemove_spec valid)
  · cases moved
    exact sound.hold free rfl ⟨rfl, rfl⟩
  · cases moved

theorem Evidence.goOn (sound : Evidence s) (keys : CanonicalKeys file)
    (mirrors : Mirrors s.tracker.stopSettlementIntegrityErr
      (installed s.tracker.stopSettlements (some { holder with stage := stage }))
      file.stopSettlements)
    (fits : StageFits s.tracker file holder.fileBefore stage) :
    Evidence ({ s with file := file }.goOn holder stage) where
  keys := keys
  mirrors := mirrors
  fits := by
    intro current held
    cases held
    exact fits
  refusals := sound.refusals

theorem canonicalKeys_of_rows {written : SupervisorStateFile} (keys : CanonicalKeys file)
    (origin : ∀ task receipt, written.stopSettlements.lookup task = some receipt →
      canonicalSupervisorTaskName task = task ∨
        ∃ earlier, file.stopSettlements.lookup task = some earlier) : CanonicalKeys written := by
  intro task receipt hit
  rcases origin task receipt hit with canonical | ⟨earlier, durable⟩
  · exact canonical
  · exact keys task earlier durable

theorem installed_of_unwritten (mirror : Settlements)
    (unwritten : Stage.written holder.stage = false) : installed mirror (some holder) = mirror := by
  obtain ⟨stage, fileBefore⟩ := holder
  cases stage <;> first | rfl | cases unwritten

theorem persist_rows (sound : Evidence s) {snapshot : Tracker} (held : s.holder = some holder)
    (stage : holder.stage = .persist snapshot)
    (rows : file.stopSettlements = s.file.stopSettlements ∨
      snapshot.stopSettlementIntegrityErr = none ∧ file.stopSettlements = snapshot.stopSettlements)
    (task : String) : file.stopSettlements.lookup task = s.file.stopSettlements.lookup task := by
  have fits := sound.fits holder held
  rw [stage] at fits
  obtain ⟨sameRows, sameErr⟩ := fits
  have mirrors := sound.mirrors
  rw [held, installed_of_unwritten _ (by rw [stage]; rfl)] at mirrors
  rcases rows with same | ⟨unset, taken⟩
  · rw [same]
  · rw [taken, sameRows]
    exact mirrors.2 (sameErr ▸ unset) task

theorem mutateStage_evidence (sound : Evidence s) (held : s.holder = some holder)
    (moved : mutateStage s holder stateFileOK = some t) : Evidence t := by
  have fits := sound.fits holder held
  have mirrors := sound.mirrors
  cases mutateStage_mutated moved with
  | refused unwritten batch =>
    refine sound.give ?_ ?_
    · rw [held]
      exact installed_of_unwritten _ unwritten
    · intro refusal failed
      obtain ⟨plan, stage⟩ := batch refusal failed
      rw [stage] at fits
      exact fits.2.1.symm
  | @batch plan receipts file stage ok grown named fresh =>
    rw [stage] at fits
    obtain ⟨unset, -, canonical⟩ := fits
    rw [held, installed_of_unwritten _ (by rw [stage]; rfl)] at mirrors
    have own : ∀ receipt ∈ receipts,
        canonicalSupervisorTaskName receipt.taskName = receipt.taskName := by
      intro receipt listed
      have task := List.mem_map_of_mem (f := StopSettlementReceipt.taskName) listed
      rw [named] at task
      obtain ⟨pair, planned, same⟩ := List.mem_map.mp task
      rw [← same]
      exact canonical pair planned
    refine sound.goOn (canonicalKeys_of_rows sound.keys ?_) ?_ ⟨unset, ?_⟩
    · intro task receipt hit
      rw [grown] at hit
      rcases lookup_addReceipts_cases hit with ⟨listed, rfl⟩ | earlier
      · exact .inl (own receipt listed)
      · exact .inr ⟨receipt, earlier⟩
    · rw [grown]
      exact mirrors.addReceipts receipts
    · intro receipt listed
      exact (mirrors.2 unset receipt.taskName).trans (fresh receipt listed)
  | @advance expected next file stage ok grown present =>
    rw [stage] at fits
    rw [held, installed_of_unwritten _ (by rw [stage]; rfl)] at mirrors
    refine sound.goOn (canonicalKeys_of_rows sound.keys ?_) ?_ fits.1
    · intro task receipt hit
      rw [grown] at hit
      rcases lookup_insert_cases hit with ⟨rfl, -⟩ | ⟨-, earlier⟩
      · exact .inr ⟨expected, present⟩
      · exact .inr ⟨receipt, earlier⟩
    · rw [grown]
      exact mirrors.insert expected.taskName next
  | @remove expected file stage ok shrunk present =>
    rw [stage] at fits
    rw [held, installed_of_unwritten _ (by rw [stage]; rfl)] at mirrors
    refine sound.goOn (canonicalKeys_of_rows sound.keys ?_) ?_ fits.1
    · intro task receipt hit
      rw [shrunk] at hit
      exact .inr ⟨receipt, (lookup_erase_cases hit).2⟩
    · rw [shrunk]
      exact mirrors.erase expected.taskName
  | @persist snapshot file stage rows =>
    have same := persist_rows sound held stage rows
    have unwritten : installed s.tracker.stopSettlements s.holder = s.tracker.stopSettlements := by
      rw [held]
      exact installed_of_unwritten _ (by rw [stage]; rfl)
    have rewritten : Evidence { s with file := file } := by
      refine ⟨?_, ?_, ?_, sound.refusals⟩
      · intro task receipt hit
        exact sound.keys task receipt (same task ▸ hit)
      · constructor
        · intro task receipt hit
          exact (same task).trans (sound.mirrors.1 task receipt hit)
        · intro unset task
          exact (sound.mirrors.2 unset task).trans (same task).symm
      · intro current still
        obtain rfl : holder = current := Option.some.inj (held.symm.trans still)
        rw [stage] at fits ⊢
        exact fits
    exact rewritten.give unwritten nofun

theorem installAdvance_of_held {tracker : Tracker} {expected : StopSettlementReceipt}
    (held : holdsRevision tracker.stopSettlements expected = true) (next : StopSettlementReceipt) :
    installAdvance tracker expected next = (.ok next, { tracker with
      stopSettlements := tracker.stopSettlements.insert expected.taskName next }) :=
  if_neg (by rw [held]; decide)

theorem installRemove_of_held {tracker : Tracker} {expected : StopSettlementReceipt}
    (held : holdsRevision tracker.stopSettlements expected = true) :
    installRemove tracker expected = (.ok (), { tracker with
      stopSettlements := tracker.stopSettlements.erase expected.taskName }) :=
  if_neg (by rw [held]; decide)

theorem installStage_evidence (sound : Evidence s)
    (held : s.holder = some holder) (moved : installStage s holder = some t) : Evidence t := by
  obtain ⟨stage, fileBefore⟩ := holder
  have fits : StageFits s.tracker s.file fileBefore stage := sound.fits _ held
  have mirrors := sound.mirrors
  rw [held] at mirrors
  unfold installStage at moved
  dsimp only at moved
  cases stage with
  | batchWritten receipts =>
    obtain ⟨unset, fresh⟩ := fits
    cases moved
    unfold installBatch
    split
    · next err refusal raced =>
        refine sound.finish ⟨?_, fun impossible => nomatch impossible⟩
          (fun _ _ => .inr (fun impossible => nomatch impossible))
        intro task receipt hit
        refine mirrors.1 task receipt ?_
        refine (lookup_addReceipts_of_absent ?_).trans hit
        intro other listed same
        have absent := fresh other listed
        rw [same, hit] at absent
        cases absent
    · exact sound.finish mirrors nofun
  | advanceWritten expected next =>
    cases moved
    rw [installAdvance_of_held fits]
    exact sound.finish mirrors nofun
  | removeWritten expected =>
    cases moved
    rw [installRemove_of_held fits]
    exact sound.finish mirrors nofun
  | batch plan | advance expected next | remove expected | persist snapshot => cases moved

theorem restart_evidence (sound : Evidence s) (stale : List String) :
    Evidence { s with
      tracker := loadDaemonRuntimeTracker (clearStale stale s.file)
      file := clearStale stale s.file
      holder := none } where
  keys := sound.keys
  mirrors := by
    have keys : CanonicalKeys (clearStale stale s.file) := sound.keys
    exact load_mirrors keys
  fits := fun _ held => nomatch held
  refusals := sound.refusals

theorem runtime_evidence (sound : Evidence s) (entries : Map String RuntimeEntry) :
    Evidence { s with tracker := { s.tracker with entries := entries } } where
  keys := sound.keys
  mirrors := sound.mirrors
  fits := by
    intro holder held
    obtain ⟨stage, fileBefore⟩ := holder
    have before : StageFits s.tracker s.file fileBefore stage := sound.fits _ held
    cases stage <;> exact before
  refusals := sound.refusals

theorem step_call (sound : Evidence s)
    (moved : (match s.holder with
      | some _ => none
      | none => startCall s action) = some t) : Evidence t := by
  split at moved
  · cases moved
  · next free => exact startCall_evidence sound free moved

theorem step_evidence (sound : Evidence s) (moved : step s action = some t) : Evidence t := by
  cases action with
  | runtime taskName entry =>
    cases moved
    exact runtime_evidence sound _
  | restart stale =>
    cases moved
    exact restart_evidence sound stale
  | mutate stateFileOK =>
    obtain ⟨holder, held, mutated⟩ := Option.bind_eq_some_iff.mp moved
    exact mutateStage_evidence sound held mutated
  | install =>
    obtain ⟨holder, held, ended⟩ := Option.bind_eq_some_iff.mp moved
    exact installStage_evidence sound held ended
  | beginStopSettlementBatch command ports
  | advanceStopSettlement expected phase failureClass failureDetail
  | removeStopSettlement expected | persistTo => exact step_call sound moved

theorem loaded_evidence (loaded : Loaded s) : Evidence s := by
  obtain ⟨keys, tracker, free, nothing⟩ := loaded
  refine ⟨keys, ?_, ?_, ?_⟩
  · rw [free, tracker]
    exact load_mirrors keys
  · intro holder held
    rw [free] at held
    cases held
  · intro returned listed
    rw [nothing] at listed
    cases listed

theorem reachable_evidence (reached : Reachable Loaded step always s) : Evidence s :=
  reached.invariant (fun _ => loaded_evidence) (fun _ _ _ sound _ => step_evidence sound)

/-- What can become of a durable receipt in one step. -/
inductive RowFate (s : System) (action : Action) (after : Settlements) (task : String)
    (receipt : StopSettlementReceipt) : Prop
  | stays (found : after.lookup task = some receipt)
  | removed (call : s.holder.map Holder.stage = some (.remove receipt))
      (written : action = .mutate true) (named : receipt.taskName = task)
      (released : receipt.phase = .portReleased) (gone : after.lookup task = none)
  | advanced (next : StopSettlementReceipt)
      (call : s.holder.map Holder.stage = some (.advance receipt next))
      (written : action = .mutate true) (named : receipt.taskName = task)
      (follows : ∃ phase failureClass failureDetail,
        nextStopSettlementReceipt receipt phase failureClass failureDetail = some next)
      (found : after.lookup task = some next)

theorem mutateStage_fate (sound : Evidence s)
    (held : s.holder = some holder) (moved : mutateStage s holder stateFileOK = some t)
    (durable : s.file.stopSettlements.lookup task = some receipt) :
    RowFate s (.mutate stateFileOK) t.file.stopSettlements task receipt := by
  have fits := sound.fits holder held
  have call : s.holder.map Holder.stage = some holder.stage := by rw [held]; rfl
  cases mutateStage_mutated moved with
  | refused unwritten batch => exact .stays durable
  | @batch plan receipts file stage ok grown named fresh =>
    have others : ∀ added ∈ receipts, added.taskName ≠ task := by
      intro added listed same
      have absent := fresh added listed
      rw [same, durable] at absent
      cases absent
    refine .stays ?_
    change file.stopSettlements.lookup task = some receipt
    rw [grown, lookup_addReceipts_of_absent others]
    exact durable
  | @advance expected next file stage ok grown present =>
    rw [stage] at fits call
    by_cases same : task = expected.taskName
    · rw [same, present] at durable
      obtain rfl : expected = receipt := Option.some.inj durable
      refine .advanced next call (by rw [ok]) same.symm fits.2 ?_
      change file.stopSettlements.lookup task = some next
      rw [grown, same, AList.lookup_insert]
    · refine .stays ?_
      change file.stopSettlements.lookup task = some receipt
      rw [grown, AList.lookup_insert_ne same]
      exact durable
  | @remove expected file stage ok shrunk present =>
    rw [stage] at fits call
    by_cases same : task = expected.taskName
    · rw [same, present] at durable
      obtain rfl : expected = receipt := Option.some.inj durable
      refine .removed call (by rw [ok]) same.symm fits.2 ?_
      change file.stopSettlements.lookup task = none
      rw [shrunk, same, AList.lookup_erase]
    · refine .stays ?_
      change file.stopSettlements.lookup task = some receipt
      rw [shrunk, AList.lookup_erase_ne same]
      exact durable
  | persist stage rows => exact .stays ((persist_rows sound held stage rows task).trans durable)

theorem step_fate (sound : Evidence s) (moved : step s action = some t)
    (durable : s.file.stopSettlements.lookup task = some receipt) :
    RowFate s action t.file.stopSettlements task receipt := by
  cases action with
  | mutate stateFileOK =>
    obtain ⟨holder, held, mutated⟩ := Option.bind_eq_some_iff.mp moved
    exact mutateStage_fate sound held mutated durable
  | install =>
    obtain ⟨holder, held, ended⟩ := Option.bind_eq_some_iff.mp moved
    exact .stays ((installStage_file ended).symm ▸ durable)
  | runtime taskName entry | restart stale =>
    cases moved
    exact .stays durable
  | beginStopSettlementBatch command ports
  | advanceStopSettlement expected phase failureClass failureDetail
  | removeStopSettlement expected | persistTo => exact .stays ((call_file moved).symm ▸ durable)

/-- Through calls, failing writes, changes of the runtime and restarts in any order: without the
integrity error the mirror is the durable map, or becomes it in the call in progress; a refused
batch has not touched the file or has set the error; what was written is accepted; and a durable
receipt stays until its own removal or transition is written. -/
theorem stop_evidence_kept {s : System} (reached : Reachable Loaded step always s) :
    (s.tracker.stopSettlementIntegrityErr = none →
      (∀ holder, s.holder = some holder → Stage.written holder.stage = false) →
      ∀ task, s.tracker.stopSettlements.lookup task = s.file.stopSettlements.lookup task) ∧
    (s.tracker.stopSettlementIntegrityErr = none →
      ∀ task, (installed s.tracker.stopSettlements s.holder).lookup task =
        s.file.stopSettlements.lookup task) ∧
    (∀ returned ∈ s.returned, RefusalKept returned) ∧
    (∀ holder expected next, s.holder = some holder →
      (holder.stage = .advanceWritten expected next →
        (installAdvance s.tracker expected next).1 = .ok next) ∧
      (holder.stage = .removeWritten expected →
        (installRemove s.tracker expected).1 = .ok ())) ∧
    ∀ action t, step s action = some t →
      ∀ task receipt, s.file.stopSettlements.lookup task = some receipt →
        RowFate s action t.file.stopSettlements task receipt := by
  have sound := reachable_evidence reached
  refine ⟨?_, sound.mirrors.2, sound.refusals, ?_,
    fun _ _ moved _ _ durable => step_fate sound moved durable⟩
  · intro unset unwritten task
    have mirrored := sound.mirrors.2 unset task
    cases free : s.holder with
    | none =>
      rw [free] at mirrored
      exact mirrored
    | some holder =>
      rw [free, installed_of_unwritten _ (unwritten holder free)] at mirrored
      exact mirrored
  · intro holder expected next held
    have fits := sound.fits holder held
    constructor
    · intro written
      rw [written] at fits
      rw [installAdvance_of_held fits]
    · intro written
      rw [written] at fits
      rw [installRemove_of_held fits]

def memoryCommand : StopBatchCommand where
  protocolVersion := 1
  batchID := "b1"
  targets := [⟨"\\memory", 9101⟩]
  intentGeneration := 1
  supervisorIntent := none
  unifiedStops := none

def memoryEntry : RuntimeEntry := ⟨.running, 7, some 1, 1⟩

def memoryReceipt : StopSettlementReceipt := beginStopSettlement "b1" "\\memory" 1 0 9101 memoryEntry

def memoryCalls : List Action :=
  [.runtime "\\memory" (some memoryEntry),
    .beginStopSettlementBatch memoryCommand (AList.insert "\\memory" 9101 ∅), .mutate true, .install,
    .persistTo, .mutate true,
    .advanceStopSettlement memoryReceipt .exitObserved none "", .mutate true, .restart []]

theorem stop_evidence_kept_restarted :
    ∃ s receipt, Reachable Loaded step always s ∧
      s.tracker.stopSettlementIntegrityErr = none ∧
      nextStopSettlementReceipt memoryReceipt .exitObserved none "" = some receipt ∧
      s.file.stopSettlements.lookup "\\memory" = some receipt ∧
      s.tracker.stopSettlements.lookup "\\memory" = some receipt := by
  have loaded : Loaded { tracker := loadDaemonRuntimeTracker {}, file := {} } :=
    ⟨nofun, rfl, rfl, rfl⟩
  obtain ⟨s, reached, unset, free, durable⟩ := exists_reachable step _ memoryCalls
    (P := fun s => s.tracker.stopSettlementIntegrityErr = none ∧ s.holder.isNone = true ∧
      s.file.stopSettlements.lookup "\\memory" =
        nextStopSettlementReceipt memoryReceipt .exitObserved none "") loaded (by decide +kernel)
  have follows : ∃ receipt,
      nextStopSettlementReceipt memoryReceipt .exitObserved none "" = some receipt :=
    Option.isSome_iff_exists.mp (by decide +kernel)
  obtain ⟨receipt, next⟩ := follows
  rw [next] at durable
  have mirrored := (stop_evidence_kept reached).1 unset
    (fun holder held => by rw [Option.isNone_iff_eq_none.mp free] at held; cases held) "\\memory"
  exact ⟨s, receipt, reached, unset, next, durable, mirrored.trans durable⟩

end McpLocalHub.Supervisor.SettlementEvidence
