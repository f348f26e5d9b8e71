/- Module: Supervisor/StopResurrection
   source: internal/api/intent_collapse.go, internal/api/stop_intent_subblock.go
   digest: A watermark holds back the legacy record that was cleared, and no other. -/

import McpLocalHub.Supervisor.StopWriters

set_option autoImplicit false

namespace McpLocalHub.Supervisor.StopResurrection

open Foundation.Runs Foundation.Maps IntentCollapse CollapseConvergence
open Intents (DaemonIntent)
open StopWriters (StopOp Slot seenIn absentOnly turn)

/-- A call of a writer, or a run of the collapse whose deletion of the legacy file fails. -/
inductive Move
  | call (op : StopOp)
  | collapse (now : Int)

/-- The file, and whether a run of the collapse has taken the legacy record into account and the
stop was cleared since. -/
structure History where
  file : Option SupervisorIntentFile
  accounted : Bool := false
  cleared : Bool := false

section System

variable (legacy : StopMap) (task : String)

def recordsOf : List DaemonIntent :=
  (legacy.entries.filter (fun entry => decide (canonicalIntentTaskKey entry.1 = task))).map (·.2)

def takesIntoAccount (now : Int) (after : Option SupervisorIntentFile) : Bool :=
  (recordsOf legacy task).any (fun record => record.isActiveStop now &&
    (seenIn after task).1.any (fun got => daemonIntentRecordMergedOrSuperseded got record))

def collapsed (now : Int) (file : Option SupervisorIntentFile) : Option SupervisorIntentFile :=
  (runDaemonIntentCollapse false now ⟨file, some legacy⟩).2.supervisorIntent

def step (h : History) : Move → Option History
  | .call op =>
    let after := (op.apply h.file).file
    some { h with
      file := after
      cleared :=
        if (seenIn after task).1.isSome then false
        else if (seenIn h.file task).1.isSome then h.accounted
        else h.cleared }
  | .collapse now =>
    let after := collapsed legacy now h.file
    some { h with
      file := after
      accounted := h.accounted || takesIntoAccount legacy task now after }

def Initial (h : History) : Prop := h.accounted = false ∧ h.cleared = false

def NotResurrected (h : History) : Prop := h.cleared = true → (seenIn h.file task).1 = none
  deriving Decidable

def Drops (op : StopOp) (stop : DaemonIntent) : Prop :=
  op.Fits ∧ op.key = task ∧ op.decided (some stop) = none
  deriving Decidable

/-- A stop that is dropped after the legacy record was taken into account is that record. -/
def DropsLegacyRecord (h : History) : Move → Prop
  | .call op => h.accounted = true → ∀ stop ∈ (seenIn h.file task).1, Drops task op stop →
      ∀ record ∈ recordsOf legacy task, record = stop
  | .collapse _ => True

end System

section Watermark

variable {legacy : StopMap} {task : String}

def Marked (legacy : StopMap) (task : String) (slot : Slot) : Prop :=
  ∃ mark, slot = (none, some mark) ∧ ∀ record ∈ recordsOf legacy task, record = mark

theorem Marked.absentOnly {slot : Slot} (marked : Marked legacy task slot) :
    Marked legacy task (absentOnly slot) := by
  obtain ⟨mark, rfl, only⟩ := marked
  exact ⟨mark, rfl, only⟩

variable {entry : (_ : String) × DaemonIntent} {file : Option SupervisorIntentFile}

theorem mem_recordsOf (listed : entry ∈ legacy.entries)
    (named : canonicalIntentTaskKey entry.1 = task) : entry.2 ∈ recordsOf legacy task :=
  List.mem_map.mpr ⟨entry, List.mem_filter.mpr ⟨listed, decide_eq_true named⟩, rfl⟩

theorem mergeDecision_marked (now : Int) (entry : (_ : String) × DaemonIntent) :
    mergeDecision now (none, some entry.2) entry = (none, some entry.2) := by
  by_cases active : entry.2.isActiveStop now = true
  · exact (if_pos active).trans (if_pos rfl)
  · exact if_neg active

theorem mergeTask_marked (now : Int) {acc : Merge}
    (listed : entry ∈ legacy.entries) (marked : Marked legacy task (seen acc task)) :
    Marked legacy task (seen (mergeTask now acc entry) task) := by
  by_cases named : task = canonicalIntentTaskKey entry.1
  · obtain ⟨mark, slot, only⟩ := marked
    have same : entry.2 = mark := only _ (mem_recordsOf listed named.symm)
    refine ⟨mark, ?_, only⟩
    subst named
    rw [mergeTask_here, slot, ← same]
    exact mergeDecision_marked now entry
  · rw [mergeTask_elsewhere now acc entry task named]
    exact marked

theorem collapsed_marked (now : Int) (marked : Marked legacy task (seenIn file task)) :
    Marked legacy task (seenIn (collapsed legacy now file) task) := by
  obtain ⟨readStops, readMarks⟩ := read_canonical file
  have start : Marked legacy task
      (seen ⟨(normalizeAbsentOnlyStopWatermarks (readSupervisorIntentForMerge file)).stops,
        (normalizeAbsentOnlyStopWatermarks
          (readSupervisorIntentForMerge file)).legacyStopWatermarks, []⟩ task) := by
    have normal := StopWriters.candidate_seen readStops readMarks task
    rw [seen, normal]
    exact marked.absentOnly
  have looped : Marked legacy task
      (seen (mergeLoop (readSupervisorIntentForMerge file) (some legacy) now) task) :=
    List.foldlRecOn (motive := fun acc : Merge => Marked legacy task (seen acc task)) _ _ start
      (fun _ held _ listed => mergeTask_marked now listed held)
  have reads := run_seen now ⟨file, some legacy⟩ task
  rw [← reads] at looped
  exact looped

/-- A call that leaves the task without a stop keeps a marked slot, or marks it. -/
theorem apply_marked {op : StopOp}
    (gone : (seenIn (op.apply file).file task).1 = none)
    (held : (seenIn file task).1 = none → Marked legacy task (seenIn file task))
    (dropped : ∀ stop ∈ (seenIn file task).1, Drops task op stop →
      ∀ record ∈ recordsOf legacy task, record = stop) :
    Marked legacy task (seenIn (op.apply file).file task) := by
  rw [op.apply_seen] at gone ⊢
  split_ifs at gone ⊢ with fits own
  · cases stopped : (seenIn file task).1 with
    | none =>
      obtain ⟨mark, slot, only⟩ := held stopped
      unfold turn at gone ⊢
      cases decided : op.decided (seenIn file task).1 with
      | some stop =>
        rw [decided] at gone
        exact absurd gone (Option.some_ne_none stop)
      | none =>
        rw [slot]
        exact ⟨mark, rfl, only⟩
    | some stop =>
      unfold turn at gone ⊢
      rw [stopped] at gone ⊢
      cases decided : op.decided (some stop) with
      | some other =>
        rw [decided] at gone
        exact absurd gone (Option.some_ne_none other)
      | none => exact ⟨stop, rfl, dropped stop stopped ⟨fits, own.symm, decided⟩⟩
  · exact (held gone).absentOnly
  · exact held gone

def Sound (legacy : StopMap) (task : String) (h : History) : Prop :=
  h.cleared = true → Marked legacy task (seenIn h.file task)

theorem step_sound {h after : History} {move : Move} (sound : Sound legacy task h)
    (met : DropsLegacyRecord legacy task h move) (moved : step legacy task h move = some after) :
    Sound legacy task after := by
  cases move with
  | call op =>
    cases moved
    intro cleared
    split_ifs at cleared with present stopped
    · refine apply_marked (by simpa using present) (fun absent => ?_) (met cleared)
      rw [absent] at stopped
      exact absurd stopped Bool.false_ne_true
    · refine apply_marked (by simpa using present) (fun _ => sound cleared) (fun stop found => ?_)
      rw [Option.mem_def.mp found] at stopped
      exact absurd rfl stopped
  | collapse now =>
    cases moved
    intro cleared
    exact collapsed_marked now (sound cleared)

end Watermark

/-- In every history in which a stop that is dropped after the legacy record was taken into account
is that record, a cleared stop stays away until a stop is written. -/
theorem cleared_stop_stays_cleared (legacy : StopMap) (task : String) {h : History}
    (reached : Reachable Initial (step legacy task) (DropsLegacyRecord legacy task) h) :
    NotResurrected task h := by
  have sound : Sound legacy task h :=
    reached.invariant
      (fun start fresh cleared => absurd (fresh.2.symm.trans cleared) Bool.false_ne_true)
      (fun _ _ _ held met moved => step_sound held met moved)
  intro cleared
  obtain ⟨mark, slot, -⟩ := sound cleared
  rw [slot]

def memoryLegacy : StopMap := AList.insert "memory" (stopAt .userDisabled 5) ∅

instance (legacy : StopMap) (task : String) (h : History) (move : Move) :
    Decidable (DropsLegacyRecord legacy task h move) := by
  unfold DropsLegacyRecord
  split <;> infer_instance

theorem cleared_stop_stays_cleared_memory :
    ∃ h, Reachable Initial (step memoryLegacy "\\memory") (DropsLegacyRecord memoryLegacy "\\memory") h ∧
      h.cleared = true ∧ (seenIn h.file "\\memory").1 = none := by
  refine (exists_reachable_under (step memoryLegacy "\\memory") ⟨none, false, false⟩
    [.collapse 10, .call (.clear "memory" "cli"), .collapse 11] ⟨rfl, rfl⟩ ?_).imp
    (fun h found => ⟨found.1, found.2,
      cleared_stop_stays_cleared memoryLegacy "\\memory" found.1 found.2⟩)
  decide +kernel

/-- A later stop supersedes the legacy one. When it is cleared, the next run adds the legacy stop
again. -/
theorem superseded_stop_resurrected :
    ∃ h, Reachable Initial (step memoryLegacy "\\memory") always h ∧
      ¬ NotResurrected "\\memory" h := by
  exact exists_reachable (step memoryLegacy "\\memory") ⟨none, false, false⟩
    [.call (.write "memory" (stopAt .chronicFailure 7) "cli" 0 10), .collapse 10,
      .call (.clear "memory" "cli"), .collapse 11] ⟨rfl, rfl⟩ (by decide +kernel)

end McpLocalHub.Supervisor.StopResurrection
