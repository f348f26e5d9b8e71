/- Module: Supervisor/CollapseConvergence
   source: internal/api/intent_collapse.go
   digest: A run of the collapse loses no stop, and when it leaves nothing to do. -/

import McpLocalHub.Supervisor.IntentCollapse

set_option autoImplicit false

namespace McpLocalHub.Supervisor.CollapseConvergence

open Foundation.Maps IntentCollapse
open Intents (DaemonIntent IntentReason)

def mergeDecision (now : Int) (found : Option DaemonIntent × Option DaemonIntent)
    (task : (_ : String) × DaemonIntent) : Option DaemonIntent × Option DaemonIntent :=
  if task.2.isActiveStop now then
    match found.1 with
    | none => if found.2 = some task.2 then found else (some task.2, none)
    | some prior => if prior.updatedAt < task.2.updatedAt then (some task.2, none) else (some prior, none)
  else found

def seen (acc : Merge) (key : String) : Option DaemonIntent × Option DaemonIntent :=
  (acc.merged.lookup key, acc.mergedWatermarks.lookup key)

theorem any_recordsEqual {found : Option DaemonIntent} {di : DaemonIntent} :
    found.any (fun record => daemonIntentRecordsEqual record di) = true ↔ found = some di := by
  cases found with
  | none => simp
  | some record => simp [daemonIntentRecordsEqual]

theorem mergeTask_here (now : Int) (acc : Merge) (task : (_ : String) × DaemonIntent) :
    seen (mergeTask now acc task) (canonicalIntentTaskKey task.1) =
      mergeDecision now (seen acc (canonicalIntentTaskKey task.1)) task := by
  unfold mergeTask mergeDecision seen
  by_cases active : task.2.isActiveStop now = true
  · rw [if_pos active, if_pos active]
    cases stopped : acc.merged.lookup (canonicalIntentTaskKey task.1) with
    | none =>
      by_cases marked : acc.mergedWatermarks.lookup (canonicalIntentTaskKey task.1) = some task.2
      · rw [if_pos (any_recordsEqual.mpr marked), if_pos marked, stopped]
      · rw [if_neg (fun any => marked (any_recordsEqual.mp any)), if_neg marked]
        rw [AList.lookup_insert, AList.lookup_erase]
    | some prior =>
      dsimp only
      by_cases newer : prior.updatedAt < task.2.updatedAt
      · have differs : daemonIntentRecordsEqual prior task.2 = false := by
          refine decide_eq_false ?_
          rintro rfl
          exact lt_irrefl _ newer
        rw [if_pos ⟨differs, newer⟩, if_pos newer]
        rw [AList.lookup_insert, AList.lookup_erase]
      · rw [if_neg (fun both => newer both.2), if_neg newer]
        rw [stopped, AList.lookup_erase]
  · rw [if_neg active, if_neg active]

theorem mergeTask_elsewhere (now : Int) (acc : Merge) (task : (_ : String) × DaemonIntent)
    (key : String) (other : key ≠ canonicalIntentTaskKey task.1) :
    seen (mergeTask now acc task) key = seen acc key := by
  unfold mergeTask seen
  dsimp only
  split
  · split
    · split
      · rfl
      · rw [AList.lookup_insert_ne other, AList.lookup_erase_ne other]
    · split
      · rw [AList.lookup_insert_ne other, AList.lookup_erase_ne other]
      · rw [AList.lookup_erase_ne other]
  · rfl

theorem mergeTask_canonical (now : Int) {acc : Merge} (task : (_ : String) × DaemonIntent)
    (held : Canonical acc.merged ∧ Canonical acc.mergedWatermarks) :
    Canonical (mergeTask now acc task).merged ∧ Canonical (mergeTask now acc task).mergedWatermarks := by
  obtain ⟨stops, marks⟩ := held
  unfold mergeTask
  dsimp only
  split
  · split
    · split
      · exact ⟨stops, marks⟩
      · exact ⟨stops.insert task.1 task.2, marks.erase _⟩
    · split
      · exact ⟨stops.insert task.1 task.2, marks.erase _⟩
      · exact ⟨stops, marks.erase _⟩
  · exact ⟨stops, marks⟩

theorem mergeDecision_spec (now : Int) (found : Option DaemonIntent × Option DaemonIntent)
    (task : (_ : String) × DaemonIntent) (single : found.1 = none ∨ found.2 = none) :
    ((mergeDecision now found task).1 = none ∨ (mergeDecision now found task).2 = none) ∧
      (∀ prior, found.1 = some prior → ∃ record, (mergeDecision now found task).1 = some record ∧
        (record = prior ∨ prior.updatedAt < record.updatedAt)) ∧
      (task.2.isActiveStop now = true →
        (∃ record, (mergeDecision now found task).1 = some record ∧
          (record = task.2 ∨ task.2.updatedAt < record.updatedAt ∨
            found.1 = some record ∧ record.updatedAt = task.2.updatedAt)) ∨
        (mergeDecision now found task).2 = some task.2) := by
  obtain ⟨stop, mark⟩ := found
  unfold mergeDecision
  by_cases active : task.2.isActiveStop now = true
  · rw [if_pos active]
    cases stop with
    | none =>
      by_cases marked : mark = some task.2
      · rw [if_pos marked]
        exact ⟨.inl rfl, nofun, fun _ => .inr marked⟩
      · rw [if_neg marked]
        exact ⟨.inr rfl, nofun, fun _ => .inl ⟨task.2, rfl, .inl rfl⟩⟩
    | some prior =>
      dsimp only
      by_cases newer : prior.updatedAt < task.2.updatedAt
      · rw [if_pos newer]
        refine ⟨.inr rfl, ?_, fun _ => .inl ⟨task.2, rfl, .inl rfl⟩⟩
        intro earlier present
        cases present
        exact ⟨task.2, rfl, .inr newer⟩
      · rw [if_neg newer]
        refine ⟨.inr rfl, fun earlier present => ⟨prior, rfl, .inl (Option.some.inj present)⟩, ?_⟩
        intro _
        rcases lt_or_eq_of_le (not_lt.mp newer) with later | tied
        · exact .inl ⟨prior, rfl, .inr (.inl later)⟩
        · exact .inl ⟨prior, rfl, .inr (.inr ⟨rfl, tied.symm⟩)⟩
  · rw [if_neg active]
    exact ⟨single, fun prior present => ⟨prior, present, .inl rfl⟩, fun stopped => absurd stopped active⟩

theorem mergeTask_single (now : Int) {acc : Merge} (task : (_ : String) × DaemonIntent)
    (held : Disjoint acc.merged acc.mergedWatermarks) :
    Disjoint (mergeTask now acc task).merged (mergeTask now acc task).mergedWatermarks := by
  intro key
  by_cases own : key = canonicalIntentTaskKey task.1
  · subst own
    have single : (mergeDecision now (seen acc (canonicalIntentTaskKey task.1)) task).1 = none ∨
        (mergeDecision now (seen acc (canonicalIntentTaskKey task.1)) task).2 = none :=
      (mergeDecision_spec now (seen acc (canonicalIntentTaskKey task.1)) task (held _)).1
    rw [← mergeTask_here] at single
    exact single
  · have same := mergeTask_elsewhere now acc task key own
    have single : (seen acc key).1 = none ∨ (seen acc key).2 = none := held key
    rw [← same] at single
    exact single

/-- The tasks of the legacy file are distinct under their canonical names. -/
def DistinctTasks (legacy : Option StopMap) : Prop :=
  ((legacyTasks legacy).map (fun task => canonicalIntentTaskKey task.1)).Nodup

section Merge

variable {intent : SupervisorIntentFile} {legacy : Option StopMap} (now : Int)

def seenBefore (intent : SupervisorIntentFile) (key : String) :
    Option DaemonIntent × Option DaemonIntent :=
  (intent.stops.lookup key,
    if (intent.stops.lookup key).isNone then intent.legacyStopWatermarks.lookup key else none)

theorem mergeLoop_spec (stops : Canonical intent.stops)
    (watermarks : Canonical intent.legacyStopWatermarks) (distinct : DistinctTasks legacy) :
    (∀ task ∈ legacyTasks legacy,
      seen (mergeLoop intent legacy now) (canonicalIntentTaskKey task.1) =
        mergeDecision now (seenBefore intent (canonicalIntentTaskKey task.1)) task) ∧
      ∀ key, (∀ task ∈ legacyTasks legacy, canonicalIntentTaskKey task.1 ≠ key) →
        seen (mergeLoop intent legacy now) key = seenBefore intent key := by
  have start (key : String) :
      seen ⟨(normalizeAbsentOnlyStopWatermarks intent).stops,
        (normalizeAbsentOnlyStopWatermarks intent).legacyStopWatermarks, []⟩ key =
        seenBefore intent key := by
    obtain ⟨sameStops, sameMarks⟩ := normalizeAbsentOnly_lookup stops watermarks key
    exact Prod.ext sameStops sameMarks
  obtain ⟨listed, unlisted⟩ := foldl_pointwise (mergeTask_here now) (mergeTask_elsewhere now)
    distinct ⟨(normalizeAbsentOnlyStopWatermarks intent).stops,
      (normalizeAbsentOnlyStopWatermarks intent).legacyStopWatermarks, []⟩
  constructor
  · intro task member
    rw [← start]
    exact listed task member
  · intro key absent
    rw [← start]
    exact unlisted key absent

theorem mergeLoop_canonical (intent : SupervisorIntentFile) (legacy : Option StopMap) (now : Int) :
    Canonical (mergeLoop intent legacy now).merged ∧
      Canonical (mergeLoop intent legacy now).mergedWatermarks :=
  List.foldlRecOn (motive := fun acc : Merge => Canonical acc.merged ∧ Canonical acc.mergedWatermarks)
    _ _ ⟨normalize_canonical intent.stops, (normalize_canonical intent.legacyStopWatermarks).keep _⟩
    (fun _ held task _ => mergeTask_canonical now task held)

theorem seenBefore_single (intent : SupervisorIntentFile) (key : String) :
    (seenBefore intent key).1 = none ∨ (seenBefore intent key).2 = none := by
  unfold seenBefore
  cases intent.stops.lookup key with
  | none => exact .inl rfl
  | some record => exact .inr rfl

theorem mergeLoop_single (intent : SupervisorIntentFile) (legacy : Option StopMap) (now : Int) :
    Disjoint (mergeLoop intent legacy now).merged (mergeLoop intent legacy now).mergedWatermarks :=
  List.foldlRecOn (motive := fun acc : Merge => Disjoint acc.merged acc.mergedWatermarks)
    _ _ (normalizeAbsentOnly_disjoint intent)
    (fun _ held task _ => mergeTask_single now task held)

end Merge

/-- What a run leaves in the supervisor intent is the merge, as readers see it; the deletion comes
after it. -/
theorem run_cases (now : Int) (disk : Disk) :
    ∃ result file,
      runDaemonIntentCollapse false now disk =
        finishCollapse result ⟨file, disk.daemonIntent⟩ disk.daemonIntent now ∧
      ∀ key,
        ((readSupervisorIntentForMerge file).stops.lookup key,
          (readSupervisorIntentForMerge file).legacyStopWatermarks.lookup key) =
          seen (mergeLoop (readSupervisorIntentForMerge disk.supervisorIntent) disk.daemonIntent now)
            key := by
  let intent := readSupervisorIntentForMerge disk.supervisorIntent
  let loop := mergeLoop intent disk.daemonIntent now
  obtain ⟨stops, watermarks⟩ := mergeLoop_canonical intent disk.daemonIntent now
  have single := mergeLoop_single intent disk.daemonIntent now
  by_cases unchanged : (mergeDaemonIntentStops intent disk.daemonIntent now).changed = false
  · refine ⟨_, disk.supervisorIntent, if_pos unchanged, ?_⟩
    obtain ⟨sameStops, sameMarks⟩ := Bool.or_eq_false_iff.mp unchanged
    intro key
    exact Prod.ext (sameEntries_iff.mp (by simpa using sameStops) key)
      (sameEntries_iff.mp (by simpa using sameMarks) key)
  · refine ⟨_, some _, (if_neg unchanged).trans ((if_neg unchanged).trans (if_neg unchanged)), ?_⟩
    intro key
    obtain ⟨stopsBack, marksBack⟩ := read_written
      (f := { intent with stops := loop.merged, legacyStopWatermarks := loop.mergedWatermarks })
      stops watermarks single key
    exact Prod.ext stopsBack marksBack

theorem finish_intent (result : CollapseResult) (disk : Disk) (legacy : Option StopMap)
    (now : Int) :
    (finishCollapse result disk legacy now).2.supervisorIntent = disk.supervisorIntent := by
  unfold finishCollapse deleteLegacyDaemonIntentIfMerged
  dsimp only
  split
  · rfl
  · split_ifs <;> rfl

def seenOn (disk : Disk) (key : String) : Option DaemonIntent × Option DaemonIntent :=
  ((stopsOf disk).lookup key, (watermarksOf disk).lookup key)

theorem run_seen (now : Int) (disk : Disk) (key : String) :
    seenOn (runDaemonIntentCollapse false now disk).2 key =
      seen (mergeLoop (readSupervisorIntentForMerge disk.supervisorIntent) disk.daemonIntent now)
        key := by
  obtain ⟨result, file, ran, reads⟩ := run_cases now disk
  rw [← reads key]
  unfold seenOn stopsOf watermarksOf
  rw [ran, finish_intent]

/-- No active legacy stop has the time of a different stop that the supervisor intent has for the
task. -/
def NoTie (disk : Disk) (now : Int) : Prop :=
  ∀ task ∈ legacyTasks disk.daemonIntent, task.2.isActiveStop now = true →
    ∀ prior, (stopsOf disk).lookup (canonicalIntentTaskKey task.1) = some prior →
      prior.updatedAt = task.2.updatedAt → prior = task.2

theorem accountedFor_iff {current : SupervisorIntentFile} {now : Int}
    {task : (_ : String) × DaemonIntent} : accountedFor current now task = true ↔
      (task.2.isActiveStop now = true →
        (∃ record, current.stops.lookup (canonicalIntentTaskKey task.1) = some record ∧
          (record = task.2 ∨ task.2.updatedAt < record.updatedAt)) ∨
        current.legacyStopWatermarks.lookup (canonicalIntentTaskKey task.1) = some task.2) := by
  unfold accountedFor
  rw [Bool.or_eq_true, Bool.or_eq_true, any_recordsEqual, Option.any_eq_true]
  simp [daemonIntentRecordMergedOrSuperseded, daemonIntentRecordsEqual, imp_iff_not_or, or_assoc]

theorem run_gone_iff {disk : Disk} {now : Int} (distinct : DistinctTasks disk.daemonIntent) :
    (runDaemonIntentCollapse false now disk).2.daemonIntent = none ↔
      ∀ task ∈ legacyTasks disk.daemonIntent, task.2.isActiveStop now = true →
        (∃ record, (mergeDecision now (seenBefore (readSupervisorIntentForMerge
            disk.supervisorIntent) (canonicalIntentTaskKey task.1)) task).1 = some record ∧
          (record = task.2 ∨ task.2.updatedAt < record.updatedAt)) ∨
        (mergeDecision now (seenBefore (readSupervisorIntentForMerge disk.supervisorIntent)
          (canonicalIntentTaskKey task.1)) task).2 = some task.2 := by
  obtain ⟨result, file, ran, reads⟩ := run_cases now disk
  obtain ⟨readStops, readMarks⟩ := read_canonical disk.supervisorIntent
  obtain ⟨listed, -⟩ := mergeLoop_spec now readStops readMarks distinct
  have gate : (runDaemonIntentCollapse false now disk).2.daemonIntent = none ↔
      ∀ task ∈ legacyTasks disk.daemonIntent,
        accountedFor (readSupervisorIntentForMerge file) now task = true := by
    rw [ran, ← List.all_eq_true]
    unfold finishCollapse deleteLegacyDaemonIntentIfMerged
    cases legacy : disk.daemonIntent with
    | none => simp [legacyTasks]
    | some tasks =>
      dsimp only
      split_ifs with covered
      · exact iff_of_true rfl covered
      · exact iff_of_false nofun covered
  rw [gate]
  refine forall₂_congr (fun task member => ?_)
  rw [accountedFor_iff, ← listed task member, ← reads (canonicalIntentTaskKey task.1)]

theorem run_deletes_iff {disk : Disk} {now : Int} (distinct : DistinctTasks disk.daemonIntent) :
    (runDaemonIntentCollapse false now disk).2.daemonIntent = none ↔ NoTie disk now := by
  rw [run_gone_iff distinct]
  refine forall₃_congr (fun task _ active => ?_)
  constructor
  · intro covered prior found tied
    have kept : mergeDecision now (seenBefore (readSupervisorIntentForMerge disk.supervisorIntent)
        (canonicalIntentTaskKey task.1)) task = (some prior, none) := by
      have before : (seenBefore (readSupervisorIntentForMerge disk.supervisorIntent)
        (canonicalIntentTaskKey task.1)).1 = some prior := found
      unfold mergeDecision
      rw [if_pos active, before]
      exact if_neg (fun newer => absurd tied (ne_of_lt newer))
    rw [kept] at covered
    obtain ⟨record, same, equal | later⟩ | marked := covered
    · exact (Option.some.inj same).trans equal
    · rw [← Option.some.inj same, tied] at later
      exact absurd later (lt_irrefl _)
    · cases marked
  · intro noTie
    have decided := (mergeDecision_spec now _ task (seenBefore_single
      (readSupervisorIntentForMerge disk.supervisorIntent) (canonicalIntentTaskKey task.1))).2.2 active
    rcases decided with ⟨record, found, same | later | ⟨prior, tied⟩⟩ | marked
    · exact .inl ⟨record, found, .inl same⟩
    · exact .inl ⟨record, found, .inr later⟩
    · exact .inl ⟨record, found, .inl (noTie record prior tied)⟩
    · exact .inr marked

theorem run_idle {disk : Disk} (now : Int) (gone : disk.daemonIntent = none)
    (disjoint : Disjoint (stopsOf disk) (watermarksOf disk)) :
    (runDaemonIntentCollapse false now disk).2 = disk := by
  let intent := readSupervisorIntentForMerge disk.supervisorIntent
  obtain ⟨readStops, readMarks⟩ := read_canonical disk.supervisorIntent
  have same (key : String) := normalizeAbsentOnly_lookup readStops readMarks key
  have unchanged : (mergeDaemonIntentStops intent disk.daemonIntent now).changed = false := by
    rw [gone]
    have stopsSame : sameEntries intent.stops (mergeLoop intent none now).merged = true :=
      sameEntries_iff.mpr (fun key => (same key).1.symm)
    have marksSame : sameEntries intent.legacyStopWatermarks
        (mergeLoop intent none now).mergedWatermarks = true := by
      refine sameEntries_iff.mpr (fun key => Eq.trans ?_ (same key).2.symm)
      rcases disjoint key with noStop | noMark
      · exact (if_pos (Option.isNone_iff_eq_none.mpr noStop)).symm
      · exact noMark.trans ((congrArg (ite _ · _) noMark).trans (ite_self _)).symm
    exact Bool.or_eq_false_iff.mpr ⟨Bool.not_eq_eq_eq_not.mpr stopsSame,
      Bool.not_eq_eq_eq_not.mpr marksSame⟩
  have ran : runDaemonIntentCollapse false now disk =
      finishCollapse (mergeDaemonIntentStops intent disk.daemonIntent now) disk disk.daemonIntent now :=
    if_pos unchanged
  rw [ran]
  unfold finishCollapse deleteLegacyDaemonIntentIfMerged
  rw [gone]

/-- One run, on any intent and any legacy file whose tasks are distinct. Every active legacy stop is
covered by a stop at least as recent, or its watermark is that record; every stop is kept or
replaced by a later one; no task has both. The legacy file is gone exactly when no active legacy
stop ties with a different stop, and then no later run changes anything. -/
theorem collapse_loses_no_stop {disk : Disk} (now : Int)
    (distinct : DistinctTasks disk.daemonIntent) :
    (∀ task ∈ legacyTasks disk.daemonIntent, task.2.isActiveStop now = true →
      (∃ record,
        (stopsOf (runDaemonIntentCollapse false now disk).2).lookup (canonicalIntentTaskKey task.1) =
          some record ∧ task.2.updatedAt ≤ record.updatedAt) ∨
      (watermarksOf (runDaemonIntentCollapse false now disk).2).lookup
        (canonicalIntentTaskKey task.1) = some task.2) ∧
    (∀ key prior, (stopsOf disk).lookup key = some prior →
      ∃ record, (stopsOf (runDaemonIntentCollapse false now disk).2).lookup key = some record ∧
        (record = prior ∨ prior.updatedAt < record.updatedAt)) ∧
    Disjoint (stopsOf (runDaemonIntentCollapse false now disk).2)
      (watermarksOf (runDaemonIntentCollapse false now disk).2) ∧
    ((runDaemonIntentCollapse false now disk).2.daemonIntent = none ↔ NoTie disk now) ∧
    (NoTie disk now →
      ∀ later, (runDaemonIntentCollapse false later (runDaemonIntentCollapse false now disk).2).2 =
        (runDaemonIntentCollapse false now disk).2) := by
  obtain ⟨readStops, readMarks⟩ := read_canonical disk.supervisorIntent
  obtain ⟨listed, unlisted⟩ := mergeLoop_spec now readStops readMarks distinct
  have reads := run_seen now disk
  have decided (task) (member : task ∈ legacyTasks disk.daemonIntent) :=
    mergeDecision_spec now _ task (seenBefore_single
      (readSupervisorIntentForMerge disk.supervisorIntent) (canonicalIntentTaskKey task.1))
  have here (task) (member : task ∈ legacyTasks disk.daemonIntent) :=
    (reads (canonicalIntentTaskKey task.1)).trans (listed task member)
  have disjoint : Disjoint (stopsOf (runDaemonIntentCollapse false now disk).2)
      (watermarksOf (runDaemonIntentCollapse false now disk).2) := by
    intro key
    have single := mergeLoop_single (readSupervisorIntentForMerge disk.supervisorIntent)
      disk.daemonIntent now key
    change (seenOn _ key).1 = none ∨ (seenOn _ key).2 = none
    rw [reads key]
    exact single
  refine ⟨?_, ?_, disjoint, run_deletes_iff distinct,
    fun noTie later => run_idle later ((run_deletes_iff distinct).mpr noTie) disjoint⟩
  · intro task member active
    have covered := (decided task member).2.2 active
    rw [← here task member] at covered
    rcases covered with ⟨record, found, rfl | later | ⟨-, tied⟩⟩ | marked
    · exact .inl ⟨_, found, le_refl _⟩
    · exact .inl ⟨record, found, le_of_lt later⟩
    · exact .inl ⟨record, found, le_of_eq tied.symm⟩
    · exact .inr marked
  · intro key prior present
    by_cases named : ∃ task ∈ legacyTasks disk.daemonIntent, canonicalIntentTaskKey task.1 = key
    · obtain ⟨task, member, rfl⟩ := named
      obtain ⟨record, found, kept⟩ := (decided task member).2.1 prior present
      rw [← here task member] at found
      exact ⟨record, found, kept⟩
    · have kept := (reads key).trans (unlisted key (fun task member same => named ⟨task, member, same⟩))
      have found : (seenOn (runDaemonIntentCollapse false now disk).2 key).1 = some prior := by
        rw [kept]
        exact present
      exact ⟨prior, found, .inl rfl⟩

def stopAt (reason : IntentReason) (updatedAt : Int) : DaemonIntent := ⟨.stopped, reason, updatedAt⟩

def mixedDisk : Disk where
  supervisorIntent := some
    { stops := (AList.insert "updated" (stopAt .userStop 5) ∅).insert "\\covered" (stopAt .idle 9)
      legacyStopWatermarks := AList.insert "\\known" (stopAt .userStop 7) ∅ }
  daemonIntent := some
    ((((AList.insert "added" (stopAt .userStop 6) ∅).insert "\\updated" (stopAt .idle 8)).insert
      "known" (stopAt .userStop 7)).insert "covered" (stopAt .userDisabled 4))

theorem collapse_loses_no_stop_mixed : DistinctTasks mixedDisk.daemonIntent ∧ NoTie mixedDisk 10 ∧
      (stopsOf (runDaemonIntentCollapse false 10 mixedDisk).2).lookup "\\updated" =
        some (stopAt .idle 8) ∧
      (runDaemonIntentCollapse false 10 mixedDisk).2.daemonIntent = none := by
  have distinct : DistinctTasks mixedDisk.daemonIntent := by
    unfold DistinctTasks
    decide +kernel
  have noTie : NoTie mixedDisk 10 := by
    have untied : (legacyTasks mixedDisk.daemonIntent).all (fun task =>
        ((stopsOf mixedDisk).lookup (canonicalIntentTaskKey task.1)).all
          (fun prior => decide (prior.updatedAt ≠ task.2.updatedAt))) = true := by
      decide +kernel
    intro task member _ prior found tied
    have apart := List.all_eq_true.mp untied task member
    rw [found] at apart
    exact absurd tied (of_decide_eq_true apart)
  exact ⟨distinct, noTie, by decide +kernel, (collapse_loses_no_stop 10 distinct).2.2.2.1.mpr noTie⟩

def tiedDisk : Disk where
  supervisorIntent := some { stops := AList.insert "\\memory" (stopAt .userStop 5) ∅ }
  daemonIntent := some (AList.insert "\\memory" (stopAt .userDisabled 5) ∅)

/-- The merge keeps the stop that it has, and the gate takes only the same record or a later one:
the legacy file stays. -/
theorem tied_stop_keeps_legacy_file : DistinctTasks tiedDisk.daemonIntent ∧
      (runDaemonIntentCollapse false 10 tiedDisk).1.changed = false ∧
      (runDaemonIntentCollapse false 10 tiedDisk).2.daemonIntent ≠ none ∧
      (runDaemonIntentCollapse false 10 (runDaemonIntentCollapse false 10 tiedDisk).2).2.daemonIntent ≠
        none := by
  unfold DistinctTasks
  decide +kernel

end McpLocalHub.Supervisor.CollapseConvergence
