/- Module: Supervisor/TrackerHistory
   source: internal/cli/supervisor_runtime_tracker.go
   digest: Histories of the runtime tracker: an exit under a superseded generation is refused. -/

import McpLocalHub.Supervisor.Intents
import McpLocalHub.Supervisor.RuntimeTracker

set_option autoImplicit false

/-!
The tracker keeps one entry for each canonical task name. The marks below are written as the source
writes them, with every field they touch except the readiness evidence, which all of them drop.
-/

namespace McpLocalHub.Supervisor.TrackerHistory

open Intents RuntimeTracker

structure TrackedEntry where
  state : Option RuntimeState := none
  currentPID : Nat := 0
  startedAt : Option Int := none
  pidGeneration : Nat := 0
  restartCount : Nat := 0
  lastError : String := ""
  orphanPID : Nat := 0
  jobProtection : Option Bool := none
  spawnHoldReason : String := ""
  spawnHoldPath : String := ""

def bumpedRestarts (e : TrackedEntry) : Nat :=
  if 0 < e.pidGeneration then e.restartCount + 1 else e.restartCount

def spawnedEntry (startedAt : Int) (e : TrackedEntry) : TrackedEntry :=
  { e with
    restartCount := bumpedRestarts e
    state := some .running
    startedAt := some startedAt
    pidGeneration := e.pidGeneration + 1
    lastError := ""
    orphanPID := 0 }

def exitedEntry (e : TrackedEntry) : TrackedEntry :=
  { e with
    state := some .idle
    startedAt := none
    lastError := ""
    orphanPID := 0
    jobProtection := none
    spawnHoldReason := ""
    spawnHoldPath := "" }

def backoffEntry (e : TrackedEntry) : TrackedEntry :=
  { e with
    state := some .backoff
    startedAt := none
    orphanPID := 0
    jobProtection := none }

def quarantinedEntry (e : TrackedEntry) : TrackedEntry :=
  { e with
    state := some .quarantine
    startedAt := none
    orphanPID := 0
    jobProtection := none
    spawnHoldReason := ""
    spawnHoldPath := "" }

def spawnFailedEntry (error : String) (orphanPID : Nat) (e : TrackedEntry) : TrackedEntry :=
  { e with
    restartCount := bumpedRestarts e
    state := some .backoff
    startedAt := none
    lastError := error
    orphanPID := orphanPID
    jobProtection := none
    spawnHoldReason := ""
    spawnHoldPath := "" }

structure Tracker where
  entries : String → Option TrackedEntry
  ownershipGeneration : Nat := 0

namespace Tracker

def entry (t : Tracker) (name : String) : TrackedEntry :=
  (t.entries (canonicalSupervisorTaskName name)).getD {}

def put (t : Tracker) (name : String) (next : TrackedEntry) : Tracker :=
  { t with entries := Function.update t.entries (canonicalSupervisorTaskName name) (some next) }

def setCurrentPIDLocked (t : Tracker) (e : TrackedEntry) (pid : Nat) : Tracker × TrackedEntry :=
  (if e.currentPID = pid then t else { t with ownershipGeneration := t.ownershipGeneration + 1 },
    { e with currentPID := pid })

def markPID (t : Tracker) (name : String) (pid : Nat) (change : TrackedEntry → TrackedEntry) :
    Tracker :=
  let (counted, e) := t.setCurrentPIDLocked (t.entry name) pid
  counted.put name (change e)

def mark (t : Tracker) (name : String) (change : TrackedEntry → TrackedEntry) : Tracker :=
  t.put name (change (t.entry name))

def markSpawned (t : Tracker) (name : String) (pid : Nat) (startedAt : Int) : Tracker × Nat :=
  let spawned := t.markPID name pid (spawnedEntry startedAt)
  (spawned, (spawned.entry name).pidGeneration)

def markExited (t : Tracker) (name : String) : Tracker := t.markPID name 0 exitedEntry

def markExitedIfCurrent (t : Tracker) (name : String) (pidGeneration : Nat) : Tracker × Bool :=
  if pidGeneration < (t.entry name).pidGeneration then (t, false)
  else (t.markPID name 0 exitedEntry, true)

def markBackoff (t : Tracker) (name : String) : Tracker := t.markPID name 0 backoffEntry

def markQuarantined (t : Tracker) (name : String) : Tracker := t.markPID name 0 quarantinedEntry

def markSpawnFailed (t : Tracker) (name : String) (error : String) : Tracker :=
  t.markPID name 0 (spawnFailedEntry error 0)

def markSpawnFailedPreservePID (t : Tracker) (name : String) (error : String) (orphanPID : Nat) :
    Tracker :=
  t.markPID name 0 (spawnFailedEntry error orphanPID)

def markJobProtection (t : Tracker) (name : String) (isProtected : Option Bool) : Tracker :=
  t.mark name (fun e => { e with jobProtection := isProtected })

def markSpawnHold (t : Tracker) (name reasonID path : String) : Tracker :=
  t.mark name (fun e => { e with spawnHoldReason := reasonID, spawnHoldPath := path })

def clearSpawnHold (t : Tracker) (name : String) : Tracker × Bool :=
  let e := t.entry name
  if e.spawnHoldReason = "" ∧ e.spawnHoldPath = "" then (t, false)
  else (t.put name { e with spawnHoldReason := "", spawnHoldPath := "" }, true)

def remove (t : Tracker) (name : String) : Tracker where
  entries := Function.update t.entries (canonicalSupervisorTaskName name) none
  ownershipGeneration :=
    if (t.entry name).currentPID = 0 then t.ownershipGeneration else t.ownershipGeneration + 1

end Tracker

inductive TrackerOp
  | spawned (name : String) (pid : Nat) (startedAt : Int)
  | exited (name : String)
  | exitedIfCurrent (name : String) (pidGeneration : Nat)
  | backoff (name : String)
  | quarantined (name : String)
  | spawnFailed (name error : String)
  | spawnFailedPreservePID (name error : String) (orphanPID : Nat)
  | jobProtection (name : String) (isProtected : Option Bool)
  | spawnHold (name reasonID path : String)
  | clearSpawnHold (name : String)
  | remove (name : String)

def apply (t : Tracker) (op : TrackerOp) : Tracker :=
  match op with
  | .spawned name pid startedAt => (t.markSpawned name pid startedAt).1
  | .exited name => t.markExited name
  | .exitedIfCurrent name pidGeneration => (t.markExitedIfCurrent name pidGeneration).1
  | .backoff name => t.markBackoff name
  | .quarantined name => t.markQuarantined name
  | .spawnFailed name error => t.markSpawnFailed name error
  | .spawnFailedPreservePID name error orphanPID =>
    t.markSpawnFailedPreservePID name error orphanPID
  | .jobProtection name isProtected => t.markJobProtection name isProtected
  | .spawnHold name reasonID path => t.markSpawnHold name reasonID path
  | .clearSpawnHold name => (t.clearSpawnHold name).1
  | .remove name => t.remove name

def replay (t : Tracker) (history : List TrackerOp) : Tracker := history.foldl apply t

def TrackerOp.spawns (task : String) : TrackerOp → Bool
  | .spawned name _ _ => decide (canonicalSupervisorTaskName name = canonicalSupervisorTaskName task)
  | _ => false

def TrackerOp.removes (task : String) : TrackerOp → Bool
  | .remove name => decide (canonicalSupervisorTaskName name = canonicalSupervisorTaskName task)
  | _ => false

variable (t : Tracker) (name task : String)

theorem entry_put (next : TrackedEntry) :
    (t.put name next).entry task =
      if canonicalSupervisorTaskName name = canonicalSupervisorTaskName task then next
      else t.entry task := by
  simp only [Tracker.entry, Tracker.put, Function.update_apply, eq_comm]
  split_ifs <;> rfl

theorem entry_markPID (pid : Nat) (change : TrackedEntry → TrackedEntry) :
    (t.markPID name pid change).entry task =
      if canonicalSupervisorTaskName name = canonicalSupervisorTaskName task then
        change { t.entry name with currentPID := pid }
      else t.entry task := by
  have kept : (t.setCurrentPIDLocked (t.entry name) pid).1.entry task = t.entry task := by
    unfold Tracker.setCurrentPIDLocked
    split_ifs <;> rfl
  rw [Tracker.markPID, entry_put, kept]
  rfl

theorem entry_remove :
    (t.remove name).entry task =
      if canonicalSupervisorTaskName name = canonicalSupervisorTaskName task then {}
      else t.entry task := by
  simp only [Tracker.entry, Tracker.remove, Function.update_apply, eq_comm]
  split_ifs <;> rfl

theorem entry_congr {name task : String}
    (same : canonicalSupervisorTaskName name = canonicalSupervisorTaskName task) :
    t.entry name = t.entry task := by
  simp only [Tracker.entry, same]

theorem generation_mark (change : TrackedEntry → TrackedEntry)
    (keeps : ∀ e, (change e).pidGeneration = e.pidGeneration) :
    ((t.mark name change).entry task).pidGeneration = (t.entry task).pidGeneration := by
  rw [Tracker.mark, entry_put]
  split_ifs with same
  · rw [keeps, entry_congr t same]
  · rfl

theorem generation_markPID (pid : Nat) (change : TrackedEntry → TrackedEntry)
    (keeps : ∀ e, (change e).pidGeneration = e.pidGeneration) :
    ((t.markPID name pid change).entry task).pidGeneration = (t.entry task).pidGeneration := by
  rw [entry_markPID]
  split_ifs with same
  · rw [keeps, entry_congr t same]
  · rfl

theorem generation_spawned (pid : Nat) (startedAt : Int) :
    (((t.markSpawned name pid startedAt).1.entry task).pidGeneration : Nat) =
      (t.entry task).pidGeneration +
        if (TrackerOp.spawned name pid startedAt).spawns task = true then 1 else 0 := by
  simp only [Tracker.markSpawned, entry_markPID, TrackerOp.spawns, decide_eq_true_eq]
  split_ifs with same
  · rw [entry_congr t same]
    rfl
  · rfl

/-- Every operation but a removal raises the generation of a task exactly when it spawns it. -/
theorem generation_apply (t : Tracker) (op : TrackerOp) (task : String)
    (kept : op.removes task = false) :
    ((apply t op).entry task).pidGeneration =
      (t.entry task).pidGeneration + if op.spawns task = true then 1 else 0 := by
  cases op with
  | spawned name pid startedAt => exact generation_spawned t name task pid startedAt
  | exitedIfCurrent name pidGeneration =>
    simp only [apply, Tracker.markExitedIfCurrent]
    split_ifs with stale spawns
    · cases spawns
    · rfl
    · rename_i spawns
      cases spawns
    · exact generation_markPID t name task 0 exitedEntry (fun _ => rfl)
  | clearSpawnHold name =>
    simp only [apply, Tracker.clearSpawnHold]
    split_ifs with clear spawns
    · cases spawns
    · rfl
    · rename_i spawns
      cases spawns
    · exact generation_mark t name task
        (fun e => { e with spawnHoldReason := "", spawnHoldPath := "" }) (fun _ => rfl)
  | remove name =>
    have other : ¬canonicalSupervisorTaskName name = canonicalSupervisorTaskName task :=
      of_decide_eq_false kept
    simp only [apply, entry_remove, if_neg other]
    rfl
  | jobProtection name isProtected =>
    exact generation_mark t name task (fun e => { e with jobProtection := isProtected }) (fun _ => rfl)
  | spawnHold name reasonID path =>
    exact generation_mark t name task
      (fun e => { e with spawnHoldReason := reasonID, spawnHoldPath := path }) (fun _ => rfl)
  | exited name | backoff name | quarantined name | spawnFailed name
  | spawnFailedPreservePID name =>
    exact generation_markPID t name task 0 _ (fun _ => rfl)

theorem generation_replay (history : List TrackerOp) (t : Tracker) (task : String)
    (kept : ∀ op ∈ history, op.removes task = false) :
    ((replay t history).entry task).pidGeneration =
      (t.entry task).pidGeneration + history.countP (TrackerOp.spawns task) := by
  induction history generalizing t with
  | nil => rfl
  | cons op rest ih =>
    have first := generation_apply t op task (kept op (.head rest))
    have later := ih (apply t op) (fun later listed => kept later (.tail op listed))
    rw [List.countP_cons]
    change ((replay (apply t op) rest).entry task).pidGeneration = _
    omega

/-- An exit under the generation of an earlier spawn is refused when the task was spawned again
since and not removed. -/
theorem superseded_exit_refused (t : Tracker) (task : String) (pid : Nat) (startedAt : Int)
    (history : List TrackerOp) (kept : ∀ op ∈ history, op.removes task = false)
    (superseded : ∃ op ∈ history, op.spawns task = true) :
    let spawned := t.markSpawned task pid startedAt
    let later := replay spawned.1 history
    later.markExitedIfCurrent task spawned.2 = (later, false) := by
  intro spawned later
  have counted : 0 < history.countP (TrackerOp.spawns task) := List.countP_pos_iff.mpr superseded
  have returned : (spawned.1.entry task).pidGeneration = spawned.2 := rfl
  have raised : (later.entry task).pidGeneration =
      (spawned.1.entry task).pidGeneration + history.countP (TrackerOp.spawns task) :=
    generation_replay history spawned.1 task kept
  have stale : spawned.2 < (later.entry task).pidGeneration := by omega
  rw [Tracker.markExitedIfCurrent, if_pos stale]

def emptyTracker : Tracker := ⟨fun _ => none, 0⟩

theorem superseded_exit_refused_respawned : let spawned := emptyTracker.markSpawned "memory" 4711 1
    let later := replay spawned.1 [.backoff "\\memory", .spawned "\\memory" 4712 2]
    later.markExitedIfCurrent "memory" spawned.2 = (later, false) :=
  superseded_exit_refused emptyTracker "memory" 4711 1
    [.backoff "\\memory", .spawned "\\memory" 4712 2] (by decide +kernel) (by decide +kernel)

/-- A removal starts the generations anew: the exit of the removed child clears its successor. -/
theorem removed_child_clears_successor : let spawned := emptyTracker.markSpawned "\\memory" 4711 1
    let later := replay spawned.1 [.remove "\\memory", .spawned "\\memory" 4712 2]
    (later.entry "\\memory").currentPID = 4712 ∧
      (later.markExitedIfCurrent "\\memory" spawned.2).2 = true ∧
      ((later.markExitedIfCurrent "\\memory" spawned.2).1.entry "\\memory").currentPID = 0 := by
  decide +kernel

end McpLocalHub.Supervisor.TrackerHistory
