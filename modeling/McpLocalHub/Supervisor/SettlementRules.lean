/- Module: Supervisor/SettlementRules
   source: internal/cli/supervisor_runtime_tracker.go
   digest: What each section of a stop-settlement call does to the receipts and their mirror. -/

import McpLocalHub.Supervisor.StopSettlements

set_option autoImplicit false

namespace McpLocalHub.Supervisor.SettlementRules

open Foundation.Maps Intents RuntimeTracker StopSettlements AList List
open StopBatch (StopBatchTarget StopBatchCommand)

def Mirrors (err : Option IntegrityError) (mirror disk : Settlements) : Prop :=
  (∀ task receipt, mirror.lookup task = some receipt → disk.lookup task = some receipt) ∧
    (err = none → ∀ task, mirror.lookup task = disk.lookup task)

variable {rows mirror disk : Settlements} {expected : StopSettlementReceipt}
  {err : Option IntegrityError} {receipts : List StopSettlementReceipt} {file : SupervisorStateFile}
  {s : System} {t : Tracker}

theorem holdsRevision_iff :
    holdsRevision rows expected = true ↔ rows.lookup expected.taskName = some expected := by
  unfold holdsRevision sameStopSettlementRevision
  cases found : rows.lookup expected.taskName with
  | none => simp
  | some current => simp

theorem Mirrors.insert
    (mirrors : Mirrors err mirror disk) (task : String) (receipt : StopSettlementReceipt) :
    Mirrors err (mirror.insert task receipt) (disk.insert task receipt) := by
  constructor
  · intro key found hit
    rcases lookup_insert_cases hit with ⟨rfl, rfl⟩ | ⟨other, earlier⟩
    · exact lookup_insert _
    · rw [lookup_insert_ne other]
      exact mirrors.1 key found earlier
  · intro unset key
    by_cases same : key = task
    · rw [same, lookup_insert, lookup_insert]
    · rw [lookup_insert_ne same, lookup_insert_ne same]
      exact mirrors.2 unset key

theorem Mirrors.erase (mirrors : Mirrors err mirror disk) (task : String) :
    Mirrors err (mirror.erase task) (disk.erase task) := by
  constructor
  · intro key found hit
    obtain ⟨other, earlier⟩ := lookup_erase_cases hit
    rw [lookup_erase_ne other]
    exact mirrors.1 key found earlier
  · intro unset key
    by_cases same : key = task
    · rw [same, lookup_erase, lookup_erase]
    · rw [lookup_erase_ne same, lookup_erase_ne same]
      exact mirrors.2 unset key

theorem Mirrors.addReceipts
    (mirrors : Mirrors err mirror disk) (receipts : List StopSettlementReceipt) :
    Mirrors err (addReceipts receipts mirror) (addReceipts receipts disk) := by
  induction receipts generalizing mirror disk with
  | nil => exact mirrors
  | cons receipt rest ih => exact ih (mirrors.insert receipt.taskName receipt)

variable {task : String} {index : ℕ} {plan : BatchPlan} {next : StopSettlementReceipt}
  {stateFileOK : Bool} {holder : Holder} {action : Action} {ports : Map String ℕ}

theorem lookup_addReceipts_cases {found : StopSettlementReceipt}
    (hit : (addReceipts receipts rows).lookup task = some found) :
    found ∈ receipts ∧ found.taskName = task ∨ rows.lookup task = some found := by
  induction receipts generalizing rows with
  | nil => exact .inr hit
  | cons receipt rest ih =>
    rcases ih hit with ⟨listed, named⟩ | earlier
    · exact .inl ⟨.tail _ listed, named⟩
    · rcases lookup_insert_cases earlier with ⟨named, rfl⟩ | ⟨-, older⟩
      · exact .inl ⟨.head _, named.symm⟩
      · exact .inr older

theorem lookup_addReceipts_of_absent (absent : ∀ receipt ∈ receipts, receipt.taskName ≠ task) :
    (addReceipts receipts rows).lookup task = rows.lookup task := by
  induction receipts generalizing rows with
  | nil => rfl
  | cons receipt rest ih =>
    have other : task ≠ receipt.taskName := (absent receipt (.head _)).symm
    have later : (addReceipts (receipt :: rest) rows).lookup task =
        (rows.insert receipt.taskName receipt).lookup task :=
      ih (fun r listed => absent r (.tail _ listed))
    exact later.trans (lookup_insert_ne other)

theorem advanceMetadata_rows {written : SupervisorStateFile}
    (done : advanceStopSettlementMapMetadata file = .ok written) :
    written.stopSettlements = file.stopSettlements := by
  unfold advanceStopSettlementMapMetadata at done
  split_ifs at done
  cases done
  rfl

theorem stageReceipts_spec {batchID : String} {targets : List (StopBatchTarget × RuntimeEntry)}
    {epoch : ℕ} {staged : Settlements}
    (done : stageReceipts batchID epoch index targets rows = .ok (receipts, staged)) :
    staged = addReceipts receipts rows ∧
      receipts.map StopSettlementReceipt.taskName = targets.map (fun pair => pair.1.taskName) ∧
      ∀ receipt ∈ receipts, rows.lookup receipt.taskName = none := by
  induction targets generalizing epoch index rows receipts with
  | nil =>
    cases done
    exact ⟨rfl, rfl, forall_mem_nil _⟩
  | cons pair rest ih =>
    obtain ⟨target, entry⟩ := pair
    unfold stageReceipts at done
    split_ifs at done with present
    dsimp only at done
    split at done
    · cases done
    · next later final tailDone =>
        cases done
        obtain ⟨grown, named, fresh⟩ := ih tailDone
        have absent : rows.lookup target.taskName = none := by
          simpa using present
        refine ⟨grown, congrArg (target.taskName :: ·) named, ?_⟩
        intro receipt listed
        rcases mem_cons.mp listed with rfl | listed
        · exact absent
        · have unlisted := fresh receipt listed
          by_cases same : receipt.taskName = target.taskName
          · rw [same, lookup_insert] at unlisted
            cases unlisted
          · rwa [lookup_insert_ne same] at unlisted

theorem mutateBatch_spec {written : SupervisorStateFile}
    (done : mutateBatch plan file = .ok (receipts, written)) :
    written.stopSettlements = addReceipts receipts file.stopSettlements ∧
      receipts.map StopSettlementReceipt.taskName = plan.targets.map (fun pair => pair.1.taskName) ∧
      ∀ receipt ∈ receipts, file.stopSettlements.lookup receipt.taskName = none := by
  unfold mutateBatch at done
  dsimp only at done
  split_ifs at done
  split at done
  · cases done
  · next found staged stagedDone =>
      split at done
      · cases done
      · next final metadata =>
          cases done
          obtain ⟨grown, named, fresh⟩ := stageReceipts_spec stagedDone
          exact ⟨(advanceMetadata_rows metadata).trans grown, named, fresh⟩

theorem mutateAdvance_spec
    {written : SupervisorStateFile} (done : mutateAdvance expected next file = .ok written) :
    written.stopSettlements = file.stopSettlements.insert expected.taskName next ∧
      file.stopSettlements.lookup expected.taskName = some expected := by
  unfold mutateAdvance at done
  split_ifs at done with stale
  exact ⟨advanceMetadata_rows done, holdsRevision_iff.mp (Bool.not_eq_false _ ▸ stale)⟩

theorem mutateRemove_spec {written : SupervisorStateFile}
    (done : mutateRemove expected file = .ok written) :
    written.stopSettlements = file.stopSettlements.erase expected.taskName ∧
      file.stopSettlements.lookup expected.taskName = some expected := by
  unfold mutateRemove at done
  split_ifs at done with stale
  exact ⟨advanceMetadata_rows done, holdsRevision_iff.mp (Bool.not_eq_false _ ▸ stale)⟩

theorem mutatePersist_spec {snapshot : Tracker} {written : SupervisorStateFile}
    (done : mutatePersist snapshot file = .ok written) :
    written.stopSettlements = file.stopSettlements ∨
      snapshot.stopSettlementIntegrityErr = none ∧
        written.stopSettlements = snapshot.stopSettlements := by
  unfold mutatePersist at done
  split_ifs at done with fenced
  · cases done
    exact .inl rfl
  · have unset : snapshot.stopSettlementIntegrityErr = none := by
      simpa using fenced
    exact .inr ⟨unset, advanceMetadata_rows done⟩

theorem attempt_ok {α : Type} {result : Except Refusal α} {value : α}
    (done : attempt stateFileOK result = .ok value) : stateFileOK = true ∧ result = .ok value := by
  unfold attempt at done
  split_ifs at done with ok
  exact ⟨ok, done⟩

def Stage.written : Stage → Bool
  | .batchWritten _ | .advanceWritten _ _ | .removeWritten _ => true
  | .batch _ | .advance _ _ | .remove _ | .persist _ => false

/-- What the section can do. A refused mutation is the end of the call, with the file as it was. -/
inductive Mutated (s : System) (holder : Holder) (stateFileOK : Bool) : System → Prop
  | refused {outcome : Outcome} (unwritten : Stage.written holder.stage = false)
      (batch : ∀ refusal, outcome = .batch (.error refusal) → ∃ plan, holder.stage = .batch plan) :
      Mutated s holder stateFileOK (s.give holder.fileBefore outcome)
  | batch {plan : BatchPlan} {receipts : List StopSettlementReceipt} {file : SupervisorStateFile}
      (stage : holder.stage = .batch plan) (ok : stateFileOK = true)
      (grown : file.stopSettlements = addReceipts receipts s.file.stopSettlements)
      (named : receipts.map StopSettlementReceipt.taskName =
        plan.targets.map (fun pair => pair.1.taskName))
      (fresh : ∀ receipt ∈ receipts, s.file.stopSettlements.lookup receipt.taskName = none) :
      Mutated s holder stateFileOK ({ s with file := file }.goOn holder (.batchWritten receipts))
  | advance {expected next : StopSettlementReceipt} {file : SupervisorStateFile}
      (stage : holder.stage = .advance expected next) (ok : stateFileOK = true)
      (grown : file.stopSettlements = s.file.stopSettlements.insert expected.taskName next)
      (present : s.file.stopSettlements.lookup expected.taskName = some expected) :
      Mutated s holder stateFileOK
        ({ s with file := file }.goOn holder (.advanceWritten expected next))
  | remove {expected : StopSettlementReceipt} {file : SupervisorStateFile}
      (stage : holder.stage = .remove expected) (ok : stateFileOK = true)
      (shrunk : file.stopSettlements = s.file.stopSettlements.erase expected.taskName)
      (present : s.file.stopSettlements.lookup expected.taskName = some expected) :
      Mutated s holder stateFileOK ({ s with file := file }.goOn holder (.removeWritten expected))
  | persist {snapshot : Tracker} {file : SupervisorStateFile}
      (stage : holder.stage = .persist snapshot)
      (rows : file.stopSettlements = s.file.stopSettlements ∨
        snapshot.stopSettlementIntegrityErr = none ∧
          file.stopSettlements = snapshot.stopSettlements) :
      Mutated s holder stateFileOK
        ({ s with file := file }.give holder.fileBefore (.persist (.ok ())))

theorem mutateStage_mutated {t : System}
    (moved : mutateStage s holder stateFileOK = some t) : Mutated s holder stateFileOK t := by
  obtain ⟨stage, fileBefore⟩ := holder
  unfold mutateStage at moved
  cases stage with
  | batch plan =>
    dsimp only at moved
    split at moved
    · cases moved
      exact .refused rfl (fun _ _ => ⟨plan, rfl⟩)
    · next receipts file attempted =>
        cases moved
        obtain ⟨ok, mutated⟩ := attempt_ok attempted
        obtain ⟨grown, named, fresh⟩ := mutateBatch_spec mutated
        exact .batch rfl ok grown named fresh
  | advance expected next =>
    dsimp only [System.write] at moved
    split at moved
    · cases moved
      exact .refused rfl nofun
    · next file attempted =>
        cases moved
        obtain ⟨ok, mutated⟩ := attempt_ok attempted
        obtain ⟨grown, present⟩ := mutateAdvance_spec mutated
        exact .advance rfl ok grown present
  | remove expected =>
    dsimp only [System.write] at moved
    split at moved
    · cases moved
      exact .refused rfl nofun
    · next file attempted =>
        cases moved
        obtain ⟨ok, mutated⟩ := attempt_ok attempted
        obtain ⟨shrunk, present⟩ := mutateRemove_spec mutated
        exact .remove rfl ok shrunk present
  | persist snapshot =>
    dsimp only [System.write] at moved
    split at moved
    · cases moved
      exact .refused rfl nofun
    · next file attempted =>
        cases moved
        exact .persist rfl (mutatePersist_spec (attempt_ok attempted).2)
  | batchWritten receipts | advanceWritten expected next | removeWritten expected => cases moved

theorem startCall_file {t : System} (moved : startCall s action = some t) : t.file = s.file := by
  unfold startCall at moved
  split at moved
  · split at moved <;> cases moved <;> rfl
  · split at moved
    · cases moved
      rfl
    · split_ifs at moved <;> cases moved <;> rfl
  · split at moved <;> cases moved <;> rfl
  · cases moved
    rfl
  · cases moved

theorem installStage_file {t : System}
    (moved : installStage s holder = some t) : t.file = s.file := by
  unfold installStage at moved
  split at moved <;> cases moved <;> rfl

theorem call_file {t : System}
    (moved : (match s.holder with
      | some _ => none
      | none => startCall s action) = some t) : t.file = s.file := by
  split at moved
  · cases moved
  · exact startCall_file moved

theorem validateTargets_canonical {seen : List String}
    {targets : List StopBatchTarget} {validated : List (StopBatchTarget × RuntimeEntry)}
    (done : validateTargets t ports index seen targets = .ok validated) :
    ∀ pair ∈ validated, canonicalSupervisorTaskName pair.1.taskName = pair.1.taskName := by
  induction targets generalizing index seen validated with
  | nil =>
    cases done
    exact nofun
  | cons target rest ih =>
    unfold validateTargets at done
    dsimp only at done
    split at done
    · cases done
    · next valid =>
        have own := not_ne_iff.mp (not_or.mp valid).1
        split at done
        · cases done
        · split at done
          · cases done
          · split at done
            · cases done
            · split_ifs at done
              split at done
              · cases done
              · next later tailDone =>
                  cases done
                  intro pair listed
                  rcases mem_cons.mp listed with rfl | listed
                  · exact own.symm
                  · exact ih tailDone pair listed

theorem validateBatch_spec {command : StopBatchCommand}
    (done : validateBatch t command ports = .ok plan) :
    t.stopSettlementIntegrityErr = none ∧
      ∀ pair ∈ plan.targets, canonicalSupervisorTaskName pair.1.taskName = pair.1.taskName := by
  unfold validateBatch at done
  split_ifs at done
  split at done
  · cases done
  · next unset =>
      split at done
      · cases done
      · next targets validated =>
          split_ifs at done
          cases done
          exact ⟨unset, validateTargets_canonical validated⟩

theorem validateAdvance_spec {phase : StopSettlementPhase}
    {failureClass : Option StopSettlementFailureClass} {failureDetail : String}
    (done : validateAdvance t expected phase failureClass failureDetail = .ok next) :
    holdsRevision t.stopSettlements expected = true ∧
      nextStopSettlementReceipt expected phase failureClass failureDetail = some next := by
  unfold validateAdvance at done
  split_ifs at done with _ stale
  split at done
  · cases done
  · next receipt following =>
      cases done
      exact ⟨Bool.not_eq_false _ ▸ stale, following⟩

theorem validateRemove_spec (done : validateRemove t expected = .ok ()) :
    holdsRevision t.stopSettlements expected = true ∧ expected.phase = .portReleased := by
  unfold validateRemove at done
  split_ifs at done with unfit stale
  exact ⟨Bool.not_eq_false _ ▸ stale, not_ne_iff.mp (not_or.mp unfit).2⟩

theorem hydrateReceipt_err {row : (_ : String) × StopSettlementReceipt}
    (unset : (hydrateReceipt t row).stopSettlementIntegrityErr = none) :
    t.stopSettlementIntegrityErr = none ∧ interpretable row.1 row.2 = true := by
  unfold hydrateReceipt at unset
  split_ifs at unset with readable
  exact ⟨unset, readable⟩

/-- Of rows under canonical keys the interpretable ones are taken over; the error stays unset only
if these are all. -/
theorem hydrateReceipts_spec {rows : List ((_ : String) × StopSettlementReceipt)}
    (canonical : ∀ row ∈ rows, canonicalSupervisorTaskName row.1 = row.1)
    (distinct : rows.NodupKeys) (fresh : ∀ row ∈ rows, t.stopSettlements.lookup row.1 = none) :
    (∀ task receipt, (rows.foldl hydrateReceipt t).stopSettlements.lookup task = some receipt →
      t.stopSettlements.lookup task = some receipt ∨ ⟨task, receipt⟩ ∈ rows) ∧
    ((rows.foldl hydrateReceipt t).stopSettlementIntegrityErr = none →
      t.stopSettlementIntegrityErr = none ∧
        (∀ row ∈ rows, (rows.foldl hydrateReceipt t).stopSettlements.lookup row.1 = some row.2) ∧
        ∀ task, (∀ row ∈ rows, row.1 ≠ task) →
          (rows.foldl hydrateReceipt t).stopSettlements.lookup task =
            t.stopSettlements.lookup task) := by
  induction rows generalizing t with
  | nil =>
    exact ⟨fun _ _ hit => .inl hit, fun unset => ⟨unset, forall_mem_nil _, fun _ _ => rfl⟩⟩
  | cons row rest ih =>
    have tails := nodupKeys_cons.mp distinct
    have own : canonicalSupervisorTaskName row.1 = row.1 := canonical row (.head _)
    have others : ∀ later ∈ rest, later.1 ≠ row.1 := by
      intro later listed same
      exact tails.1 (same ▸ mem_keys_of_mem listed)
    have hydrated : (hydrateReceipt t row).stopSettlements =
        if interpretable row.1 row.2 then t.stopSettlements.insert row.1 row.2
        else t.stopSettlements := by
      unfold hydrateReceipt
      split_ifs
      · rw [own]
      · rfl
    have unlisted : ∀ later ∈ rest,
        (hydrateReceipt t row).stopSettlements.lookup later.1 = none := by
      intro later listed
      rw [hydrated]
      split_ifs
      · rw [lookup_insert_ne (others later listed)]
        exact fresh later (.tail _ listed)
      · exact fresh later (.tail _ listed)
    obtain ⟨origin, complete⟩ := ih (fun later listed => canonical later (.tail _ listed))
      tails.2 unlisted
    constructor
    · intro task receipt hit
      rcases origin task receipt hit with earlier | listed
      · rw [hydrated] at earlier
        split_ifs at earlier
        · rcases lookup_insert_cases earlier with ⟨rfl, rfl⟩ | ⟨-, older⟩
          · exact .inr (.head _)
          · exact .inl older
        · exact .inl earlier
      · exact .inr (.tail _ listed)
    · intro unset
      obtain ⟨unsetHere, found, elsewhere⟩ := complete unset
      obtain ⟨before, readable⟩ := hydrateReceipt_err unsetHere
      rw [if_pos readable] at hydrated
      refine ⟨before, ?_, ?_⟩
      · intro later listed
        rcases mem_cons.mp listed with rfl | listed
        · rw [foldl_cons, elsewhere later.1 others, hydrated, lookup_insert]
        · exact found later listed
      · intro task absent
        rw [foldl_cons, elsewhere task (fun later listed => absent later (.tail _ listed)),
          hydrated, lookup_insert_ne (absent row (.head _)).symm]

theorem load_mirrors (keys : CanonicalKeys file) :
    Mirrors (loadDaemonRuntimeTracker file).stopSettlementIntegrityErr
      (loadDaemonRuntimeTracker file).stopSettlements file.stopSettlements := by
  have canonical : ∀ row ∈ file.stopSettlements.entries,
      canonicalSupervisorTaskName row.1 = row.1 := by
    intro row listed
    exact keys row.1 row.2 (mem_lookup_iff.mpr listed)
  obtain ⟨origin, complete⟩ := hydrateReceipts_spec canonical file.stopSettlements.nodupKeys
    (t := { stopSettlementIntegrityErr := mapIntegrity file
            stopSettlementEpoch := max 0 file.stopSettlementEpoch })
    (fun _ _ => rfl)
  constructor
  · intro task receipt hit
    rcases origin task receipt hit with none | listed
    · cases none
    · exact mem_lookup_iff.mpr listed
  · intro unset task
    obtain ⟨-, found, elsewhere⟩ := complete unset
    cases durable : file.stopSettlements.lookup task with
    | some receipt => exact found ⟨task, receipt⟩ (mem_lookup_iff.mp durable)
    | none =>
      refine elsewhere task ?_
      intro row listed same
      have hit : file.stopSettlements.lookup row.1 = some row.2 := mem_lookup_iff.mpr listed
      rw [same, durable] at hit
      cases hit

end McpLocalHub.Supervisor.SettlementRules
