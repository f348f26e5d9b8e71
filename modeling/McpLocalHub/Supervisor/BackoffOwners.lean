/- Module: Supervisor/BackoffOwners
   source: internal/cli/supervisor_controller.go
   digest: Which arm's timer ends a backoff: the queued event has no epoch. -/

import McpLocalHub.Supervisor.BackoffProgress

set_option autoImplicit false

namespace McpLocalHub.Supervisor.BackoffOwners

open Foundation.Runs StateMachine Intents RuntimeTracker Controller StopBatch Lifecycle Reap List
open ReapFrames TaskView BackoffTimers BackoffTurns BackoffWakeups BackoffProgress

abbrev Arm := String × ℕ

/-- The supervisor with a record of the timers past the check of their epoch, and of those whose
event waits. -/
structure Traced where
  timed : Timed
  checked : List Arm := []
  posted : List Arm := []

def passes (w : Timed) (task : String) (epoch : ℕ) : Bool :=
  decide ((w.row task).respawnArmGen = some epoch)

def checkedAfter (t : Traced) : TimedAction → List Arm
  | .checkArm task epoch =>
    if passes t.timed task epoch then (task, epoch) :: t.checked else t.checked
  | .postDue task epoch => t.checked.filter (· ≠ (task, epoch))
  | _ => t.checked

def postedAfter (t : Traced) : TimedAction → List Arm
  | .postDue task epoch => t.posted ++ [(task, epoch)]
  | .takeDue _ => t.posted.tail
  | _ => t.posted

def step (cfg : Config) (t : Traced) (action : TimedAction) : Option Traced :=
  (BackoffTimers.step cfg t.timed action).map
    (fun after => ⟨after, checkedAfter t action, postedAfter t action⟩)

def Untraced (t : Traced) : Prop := TimersIdle t.timed ∧ t.checked = [] ∧ t.posted = []

def mayArmTask (w : Timed) (task : String) : TimedAction → Bool
  | .reap (.loop (.selfTurn _)) => w.fleet.supervisor.selfCh.head?.any (fun ev =>
      canonicalSupervisorTaskName ev.taskName = task && mayArm ev.kind.smEvent)
  | .reap (.loop (.post ev name _ _)) => canonicalSupervisorTaskName name = task && mayArm ev
  | .reap (.loop (.deliverExit name _ _ _ _)) => canonicalSupervisorTaskName name = task
  | .takeDue _ => w.due.head?.any (fun name => canonicalSupervisorTaskName name = task)
  | .preSpawnRealloc name _ | .reallocApplied name _ _ => canonicalSupervisorTaskName name = task
  | _ => false

/-- No event that may arm a task is handled while a timer of it is past its check and its event is
not handled yet. -/
def KeepsOwners (t : Traced) (action : TimedAction) : Prop :=
  ∀ arm ∈ checkedAfter t action ++ postedAfter t action, mayArmTask t.timed arm.1 action = false
  deriving Decidable

structure Unarmed (row after : TaskRow) : Prop where
  epoch : after.respawnArmEpoch = row.respawnArmEpoch
  generation : after.respawnArmGen = row.respawnArmGen ∨ after.respawnArmGen = none

inductive Arming (may : Prop) (row after : TaskRow) : Prop
  | unarmed (same : Unarmed row after)
  | armed (entered : may) (latest : after.respawnArmGen = some after.respawnArmEpoch)

section Rows

variable {cfg : Config} {row middle after : TaskRow} {may : Prop}

theorem Unarmed.refl (row : TaskRow) : Unarmed row row := ⟨rfl, .inl rfl⟩

theorem Unarmed.trans (left : Unarmed row middle) (right : Unarmed middle after) :
    Unarmed row after := by
  refine ⟨right.epoch.trans left.epoch, ?_⟩
  rcases right.generation with same | none
  · rw [same]
    exact left.generation
  · exact .inr none

theorem Unarmed.of_arms (same : arms after = arms row ∨ arms after = (arms row).cleared) :
    Unarmed row after := by
  rcases same with same | cleared
  · exact ⟨congrArg Arms.epoch same, .inl (congrArg Arms.generation same)⟩
  · exact ⟨congrArg Arms.epoch cleared, .inr (congrArg Arms.generation cleared)⟩

theorem Arming.of_rearmed (entered : may) (rearmed : arms after = (arms row).rearmed) :
    Arming may row after := by
  refine .armed entered ?_
  have epoch : after.respawnArmEpoch = row.respawnArmEpoch + 1 := congrArg Arms.epoch rearmed
  rw [epoch]
  exact congrArg Arms.generation rearmed

theorem Unarmed.arming (same : Unarmed row middle) (arming : Arming may middle after) :
    Arming may row after := by
  cases arming with
  | unarmed later => exact .unarmed (same.trans later)
  | armed entered latest => exact .armed entered latest

theorem Arming.mono {may' : Prop} (arming : Arming may row after) (weaker : may → may') :
    Arming may' row after := by
  cases arming with
  | unarmed same => exact .unarmed same
  | armed entered latest => exact .armed (weaker entered) latest

theorem handleTaskEvent_arming (turn : Turn) (task : String) (kind : EventKind) (body : EventBody)
    (row : TaskRow) :
    Arming (mayArm kind.smEvent = true) row (handleTaskEvent cfg turn task kind body row).1 := by
  cases handleTaskEvent_turned cfg turn task kind body row with
  | outside _ same | kept _ _ same => exact .unarmed (.of_arms (.inl same))
  | armed described _ rearmed => exact .of_rearmed described.2 rearmed
  | deferred _ _ noted =>
    exact .unarmed ⟨congrArg Arms.epoch noted, .inl (congrArg Arms.generation noted)⟩

def LabelArms (v : View) (label : Label) : Prop :=
  ∃ handled ∈ turnEvent v label, mayArm handled.2.1.smEvent = true

theorem taskStep_arming {task : String} {v next : View} {label : Label}
    (moved : taskStep cfg task v label = some next) :
    Arming (LabelArms v label) v.row next.row := by
  cases taskStep_cases moved with
  | @selfTurn turn ev rest queue =>
    have heard : (turn, ev.kind, ev.body, v.row) ∈ turnEvent v (.selfTurn turn) := by
      simp [turnEvent, queue]
    exact (handleTaskEvent_arming turn task ev.kind ev.body v.row).mono
      (fun arms => ⟨_, heard, arms⟩)
  | @post ev body turn =>
    have heard : (turn, EventKind.sm ev, body, v.row) ∈ turnEvent v (.post ev body turn) := rfl
    exact (handleTaskEvent_arming turn task (.sm ev) body v.row).mono
      (fun arms => ⟨_, heard, arms⟩)
  | @exit gen exitCode cleanExit turn child children _ waited advanced =>
    have heard : (turn, EventKind.ownedChildWaitExit, exitBody child exitCode cleanExit,
        { v.row with children := children }) ∈
          turnEvent v (.deliverExit gen exitCode cleanExit turn) := by
      simp [turnEvent, waited, advanced]
    have delivered : Unarmed v.row { v.row with children := children } := ⟨rfl, .inl rfl⟩
    exact delivered.arming ((handleTaskEvent_arming turn task ..).mono
      (fun arms => ⟨_, heard, arms⟩))
  | @stop _ d turn _ receipt =>
    obtain ⟨-, kept⟩ := applyStopTarget_outside cfg turn task d { v.row with receipt := receipt }
    exact .unarmed (.of_arms (.inl kept))
  | paroled | child | aside => exact .unarmed ⟨rfl, .inl rfl⟩
  | hydrate =>
    unfold hydrateSMState
    split <;> exact .unarmed ⟨rfl, .inl rfl⟩

end Rows

section Reaps

variable {cfg : Config} {w : World} {key : String} {row : TaskRow}

theorem unarmed_setRow (own : Unarmed (w.rows key) row) (task : String) :
    Unarmed (w.rows task) ((w.setRow key row).rows task) := by
  rw [rows_setRow]
  split_ifs with same
  · rw [same]
    exact own
  · exact .refl _

theorem unarmed_store {result : TaskRow × List LoopEvent} (own : Unarmed (w.rows key) result.1)
    (task : String) : Unarmed (w.rows task) ((w.store key result).rows task) :=
  unarmed_setRow own task

theorem unarmed_clear (row : TaskRow) : Unarmed row (clearRemovedTaskRuntime row) :=
  ⟨rfl, .inr rfl⟩

theorem unarmed_armReapFollowup (row : TaskRow) : Unarmed row (armReapFollowup row) := by
  unfold armReapFollowup
  dsimp only
  split_ifs <;> exact ⟨rfl, .inl rfl⟩

theorem unarmed_confirm (answers : String → Answers) (w : World) (d : SupervisorDaemon)
    (task : String) : Unarmed (w.rows task) ((resolveConfirmedReap cfg answers w d).rows task) :=
  unarmed_store (.of_arms (settleReap_outside cfg (w.turn _ (answers _)) _ d (w.rows _)).2) task

theorem unarmed_resolvePending (next : List String) (now : Int)
    (acc : World × List SupervisorDaemon) (key task : String) :
    Unarmed (acc.1.rows task) ((resolvePending next now acc key).1.rows task) := by
  have cases := resolvePending_cases next now acc key
  generalize resolvePending next now acc key = after at cases
  cases cases with
  | skipped | collected => exact .refl _
  | back =>
    have same := (reappear_spec key (lookupStop acc.1.stops key) now (acc.1.rows key)).2.1
    exact unarmed_store ⟨congrArg Arms.epoch same, .inl (congrArg Arms.generation same)⟩ task
  | settled => exact unarmed_setRow (unarmed_clear _) task

theorem unarmed_markAbsent (next : List String) (captured : List (String × SupervisorDaemon))
    (w : Fleet) (key task : String) :
    Unarmed (w.row task) ((markAbsent next captured w key).row task) := by
  unfold markAbsent
  dsimp only
  split_ifs
  · exact .refl _
  · exact unarmed_setRow (unarmed_clear _) task
  · split
    · exact unarmed_setRow (unarmed_clear _) task
    next d _ =>
      have same := (markPendingReap_arms d (w.row key)).2
      have kept : Unarmed (w.row key) (markPendingReap d (w.row key)) :=
        ⟨congrArg Arms.epoch same, .inl (congrArg Arms.generation same)⟩
      exact unarmed_setRow kept task

theorem unarmed_foldl {σ α : Type} (rows : σ → String → TaskRow) (f : σ → α → σ)
    (kept : ∀ s a task, Unarmed (rows s task) (rows (f s a) task)) (items : List α) (s : σ)
    (task : String) : Unarmed (rows s task) (rows (items.foldl f s) task) :=
  List.foldlRecOn (motive := fun after => Unarmed (rows s task) (rows after task)) items f (.refl _)
    (fun _ held item _ => held.trans (kept _ item task))

theorem unarmed_snapshot (w : Fleet) (previous : List String) (updated : Option SupervisorIntentFile)
    (stops : Option (List (String × DaemonIntent))) (now : Int) (order : List String)
    (task : String) :
    Unarmed (w.row task) ((applyReapSnapshot w previous updated stops now order).1.row task) := by
  unfold applyReapSnapshot
  dsimp only
  generalize (previous ++ taskNames w.supervisor.intentCache).dedup = tasks
  generalize captureAbsent w.supervisor (taskNames updated) tasks = captured
  have shadows : Unarmed (w.row task) ((captured.foldl installShadow w.supervisor).rows task) := by
    refine unarmed_foldl World.rows installShadow (fun s entry task => ?_) captured w.supervisor task
    unfold installShadow
    split_ifs
    · refine unarmed_setRow ?_ task
      exact ⟨rfl, .inl rfl⟩
    · exact .refl _
  have resolved := unarmed_foldl (fun acc : World × List SupervisorDaemon => acc.1.rows)
    (resolvePending (taskNames updated) now) (unarmed_resolvePending _ now) order
    (swapCaches updated stops (captured.foldl installShadow w.supervisor), []) task
  have marked := unarmed_foldl Fleet.row (markAbsent (taskNames updated) captured)
    (unarmed_markAbsent _ captured) tasks { w with
      supervisor := (order.foldl (resolvePending (taskNames updated) now)
        (swapCaches updated stops (captured.foldl installShadow w.supervisor), [])).1 } task
  exact (shadows.trans resolved).trans marked

theorem unarmed_scan (w : Fleet) (previous : List String) (updated : Option SupervisorIntentFile)
    (stops : Option (List (String × DaemonIntent))) (now : Int) (order : List String)
    (answers : String → Answers) (task : String) : Unarmed (w.row task)
      ((handleReapScan cfg w previous updated stops now order answers).row task) :=
  (unarmed_snapshot w previous updated stops now order task).trans
    (unarmed_foldl World.rows (resolveConfirmedReap cfg answers) (unarmed_confirm answers) _ _ task)

theorem unarmed_followup (w : Fleet) (name : String) (generation : Nat)
    (fresh : Option (Option SupervisorIntentFile)) (now : Int) (order : List String)
    (answers : String → Answers) (task : String) : Unarmed (w.row task)
      ((handleReapFollowup cfg w name generation fresh now order answers).row task) := by
  unfold handleReapFollowup
  generalize canonicalSupervisorTaskName name = key
  dsimp only
  split_ifs
  · exact .refl _
  have fired : Unarmed (w.row task) ((w.setRow key (disarmReapFollowup (w.row key))).row task) := by
    refine unarmed_setRow ?_ task
    exact ⟨rfl, .inl rfl⟩
  generalize w.setRow key (disarmReapFollowup (w.row key)) = disarmed at fired
  refine fired.trans ?_
  split
  · exact .refl _
  · exact unarmed_setRow (unarmed_armReapFollowup _) task
  next d file _ =>
    unfold resolveFollowup
    dsimp only
    split_ifs
    · refine (unarmed_snapshot disarmed (taskNames disarmed.supervisor.intentCache) file
        (some (stopsAsDaemonIntentFile file)) now order task).trans ?_
      unfold confirmReapForTask
      split
      · exact .refl _
      · exact unarmed_confirm answers _ _ task
    · exact unarmed_setRow (unarmed_clear _) task
    · exact unarmed_confirm answers _ d task

end Reaps

section Actions

variable {cfg : Config} {w after : Timed}

theorem labelsOf_arming {action : Action} {task : String} {label : Label}
    (member : label ∈ labelsOf cfg w.fleet.supervisor action task)
    (arms : LabelArms (view task w.fleet.supervisor) label) :
    mayArmTask w task (.reap (.loop action)) = true := by
  obtain ⟨handled, found, arms⟩ := arms
  have silent (label : Label) (none : turnEvent (view task w.fleet.supervisor) label = none)
      (found : handled ∈ turnEvent (view task w.fleet.supervisor) label) : False := by
    rw [none] at found
    cases found
  cases action with
  | selfTurn answers =>
    simp only [labelsOf] at member
    split at member
    · cases member
    next ev rest queue =>
      split_ifs at member with own
      · obtain rfl := mem_singleton.mp member
        simp only [turnEvent, view, queue, pendingFor, filter_cons, own, decide_true, if_true,
          head?_cons, Option.map_some] at found
        cases found
        simp [mayArmTask, queue, own, arms]
      · cases member
  | post ev name body answers =>
    simp only [labelsOf] at member
    split_ifs at member with own
    · obtain rfl := mem_singleton.mp member
      cases found
      simp only [mayArmTask, own, decide_true, Bool.true_and]
      exact arms
    · cases member
  | deliverExit name =>
    simp only [labelsOf] at member
    split_ifs at member with own
    · exact decide_eq_true own
    · cases member
  | stopBatch command now write answers =>
    simp only [labelsOf, stopBatchLabels] at member
    split at member
    · split_ifs at member
      · rcases mem_cons.mp member with rfl | applied
        · exact (silent _ rfl found).elim
        · split at applied <;> exact (silent _ rfl (mem_singleton.mp applied ▸ found)).elim
      · cases member
    · cases member
  | refreshStops | setGraceful => cases member
  | paroleTick | stopRecovery | dwellTick | childDies | childWaited | settle | clearGate
  | hydrate =>
    simp only [labelsOf] at member
    split_ifs at member
    · exact (silent _ rfl (mem_singleton.mp member ▸ found)).elim
    · cases member

theorem loop_arming {action : Action} {supervisor : World} (task : String)
    (moved : Lifecycle.step cfg w.fleet.supervisor action = some supervisor) :
    Arming (mayArmTask w task (.reap (.loop action)) = true) (w.row task) (supervisor.rows task) := by
  have turns := step_view moved task
  rcases labelsOf_shape cfg w.fleet.supervisor action task with short | batched
  · have preserve (v : View) (label : Label) (next : View) :
        Arming (mayArmTask w task (.reap (.loop action)) = true) (w.row task) v.row →
        (Unarmed (w.row task) v.row ∧
          (LabelArms v label → mayArmTask w task (.reap (.loop action)) = true)) →
        taskStep cfg task v label = some next →
        Arming (mayArmTask w task (.reap (.loop action)) = true) (w.row task) next.row := by
      rintro _ ⟨same, arms⟩ stepped
      exact same.arming ((taskStep_arming stepped).mono arms)
    exact exec_invariant_of_short preserve short
      (fun label member => ⟨.refl _, labelsOf_arming member⟩) turns (.unarmed (.refl _))
  · have preserve (v : View) (label : Label) (next : View) :
        Unarmed (w.row task) v.row → label.ofBatch = true →
        taskStep cfg task v label = some next → Unarmed (w.row task) next.row := by
      intro same batch stepped
      cases taskStep_arming stepped with
      | unarmed later => exact same.trans later
      | armed entered =>
        obtain ⟨handled, found, -⟩ := entered
        rw [turnEvent_of_batch batch] at found
        cases found
    exact .unarmed (exec_invariant_of_met preserve (fun label member _ => batched label member)
      turns (.refl _))

theorem quarantineAfterRealloc_unarmed (now : Int) (row : TaskRow) :
    Unarmed row (quarantineAfterRealloc now row) := by
  unfold quarantineAfterRealloc recordQuarantineParoleEligible
  split <;> exact ⟨rfl, .inl rfl⟩

theorem setRow_arming {may : Prop} {key : String} {row : TaskRow} (task : String)
    (own : key = task → Arming may (w.row key) row) :
    Arming may (w.row task) ((w.setRow key row).row task) := by
  change Arming may _ ((w.fleet.supervisor.setRow key row).rows task)
  rw [rows_setRow]
  split_ifs with same
  · rw [same]
    exact own same.symm
  · exact .unarmed (.refl _)

theorem unarmed_moveCache (inputs : ScanInputs) (key : String) (newPort : Nat)
    (carried : Option SupervisorIntentFile) (stamps : Option (Int × Int)) (w : Fleet)
    (task : String) :
    Unarmed (w.row task) ((moveCache cfg inputs key newPort carried stamps w).row task) := by
  unfold moveCache patchCachedReallocatedPort
  split
  · exact unarmed_scan w _ _ _ _ _ _ task
  · split
    · exact .refl _
    · exact unarmed_scan w _ _ _ _ _ _ task

theorem realloc_arming (inputs : ScanInputs) (key task : String) (outcome : ReallocOutcome) :
    Arming (key = task) (w.row task) ((handleReallocApplied cfg inputs key outcome w).row task) := by
  unfold handleReallocApplied
  split
  next newPort carried stamps =>
    unfold applyReallocated
    dsimp only
    have stamped : Unarmed (w.row task) (((w.setRow key { w.row key with
        reallocations := (recordAndCountInWindow (w.row key).reallocations inputs.now
          cfg.failureWindow).1 }).setFailCount key 0).row task) := by
      refine unarmed_setRow ?_ task
      exact ⟨rfl, .inl rfl⟩
    generalize (w.setRow key { w.row key with
        reallocations := (recordAndCountInWindow (w.row key).reallocations inputs.now
          cfg.failureWindow).1 }).setFailCount key 0 = counted at stamped
    have moved : Unarmed (w.row task)
        ((moveCache cfg inputs key newPort carried stamps counted.fleet).row task) :=
      stamped.trans (unarmed_moveCache inputs key newPort carried stamps counted.fleet task)
    refine moved.arming (setRow_arming (w := { counted with
      fleet := moveCache cfg inputs key newPort carried stamps counted.fleet }) task (fun own => ?_))
    unfold rearmHeld
    split_ifs
    · exact .of_rearmed own rfl
    · exact .unarmed (.refl _)
  · split_ifs
    · exact setRow_arming task (fun _ => .unarmed (quarantineAfterRealloc_unarmed _ _))
    · exact .unarmed (.refl _)
  · unfold applyReallocFailed
    dsimp only
    split_ifs
    · exact setRow_arming task (fun _ => .unarmed (quarantineAfterRealloc_unarmed _ _))
    · exact setRow_arming task (fun own => .of_rearmed own rfl)
    · exact .unarmed (.refl _)

theorem step_arming {action : TimedAction} (moved : BackoffTimers.step cfg w action = some after)
    (task : String) : Arming (mayArmTask w task action = true) (w.row task) (after.row task) := by
  have unmoved {may : Prop} : Arming may (w.row task) (w.row task) := .unarmed (.refl _)
  cases action with
  | reap action =>
    simp only [BackoffTimers.step] at moved
    split_ifs at moved
    obtain ⟨fleet, stepped, rfl⟩ := Option.map_eq_some_iff.mp moved
    cases action with
    | loop action =>
      obtain ⟨supervisor, turned, rfl⟩ := Option.map_eq_some_iff.mp stepped
      exact loop_arming task turned
    | scan previous updated stops now order answers =>
      simp only [Reap.step] at stepped
      split_ifs at stepped
      cases stepped
      exact .unarmed (unarmed_scan w.fleet previous updated stops now order answers task)
    | followup name generation fresh now order answers =>
      simp only [Reap.step] at stepped
      split_ifs at stepped
      cases stepped
      exact .unarmed (unarmed_followup w.fleet name generation fresh now order answers task)
  | checkState | checkArm | postDue | forgetFailures =>
    simp only [BackoffTimers.step] at moved
    split_ifs at moved
    cases moved
    exact unmoved
  | takeDue answers =>
    simp only [BackoffTimers.step] at moved
    split at moved
    next head rest _ queue =>
      cases moved
      change Arming _ _ ((w.fleet.supervisor.store _ _).rows task)
      rw [rows_store]
      split_ifs with own
      · subst own
        refine (handleTaskEvent_arming _ _ _ _ _).mono (fun _ => ?_)
        simp [mayArmTask, queue]
      · exact unmoved
    · cases moved
  | preSpawnRealloc name now =>
    simp only [BackoffTimers.step] at moved
    split_ifs at moved
    cases moved
    refine setRow_arming task (fun own => ?_)
    unfold handlePreSpawnRealloc
    split_ifs
    · exact .unarmed (.refl _)
    · split
      · exact .unarmed (.refl _)
      · split_ifs
        · unfold dispatchDynamicPoolRealloc
          split_ifs
          · exact .unarmed (.refl _)
          · exact .of_rearmed (decide_eq_true own) rfl
        · exact .unarmed (.refl _)
  | reallocApplied name outcome inputs =>
    simp only [BackoffTimers.step] at moved
    split_ifs at moved
    cases moved
    exact (realloc_arming inputs _ task outcome).mono decide_eq_true

end Actions

/-- The arm is the task's latest. -/
def Owns (w : Timed) (arm : Arm) : Prop := (w.row arm.1).respawnArmEpoch = arm.2

structure Tracked (t : Traced) : Prop where
  checked : ∀ task epoch, t.timed.timers task epoch = .armChecked → (task, epoch) ∈ t.checked
  due : t.timed.due = t.posted.map Prod.fst
  latest : ∀ task n, (t.timed.row task).respawnArmGen = some n →
    n ≤ (t.timed.row task).respawnArmEpoch → Owns t.timed (task, n)
  owned : ∀ arm ∈ t.checked ++ t.posted, Owns t.timed arm

section Steps

variable {cfg : Config} {w after : Timed} {t : Traced} {task : String} {epoch : ℕ}

theorem setTimer_checked {phase : TimerPhase} {checked before : List Arm}
    (listed : ∀ task epoch, w.timers task epoch = .armChecked → (task, epoch) ∈ before)
    (kept : ∀ arm ∈ before, arm ≠ (task, epoch) → arm ∈ checked)
    (own : phase = .armChecked → (task, epoch) ∈ checked) (name : String) (n : ℕ)
    (past : (w.setTimer task epoch phase).timers name n = .armChecked) : (name, n) ∈ checked := by
  unfold Timed.setTimer at past
  dsimp only at past
  by_cases same : (name, n) = (task, epoch)
  · obtain ⟨rfl, rfl⟩ := Prod.mk.inj same
    rw [Function.update_self, Function.update_self] at past
    exact own past
  · refine kept _ (listed name n ?_) same
    by_cases named : name = task
    · subst named
      rw [Function.update_self, Function.update_of_ne (fun eq => same (congrArg _ eq))] at past
      exact past
    · rw [Function.update_of_ne named] at past
      exact past

theorem handleReallocApplied_timers (cfg : Config) (w : Timed) (task : String) (inputs : ScanInputs)
    (outcome : ReallocOutcome) :
    (handleReallocApplied cfg inputs task outcome w).timers = w.timers ∧
      (handleReallocApplied cfg inputs task outcome w).due = w.due := by
  unfold handleReallocApplied
  split
  · exact ⟨rfl, rfl⟩
  · split_ifs <;> exact ⟨rfl, rfl⟩
  · unfold applyReallocFailed
    dsimp only
    split_ifs <;> exact ⟨rfl, rfl⟩

theorem recorded_step (tracked : Tracked t) {action : TimedAction}
    (moved : BackoffTimers.step cfg t.timed action = some after) :
    (∀ task epoch, after.timers task epoch = .armChecked → (task, epoch) ∈ checkedAfter t action) ∧
      after.due = (postedAfter t action).map Prod.fst ∧
      ∀ arm ∈ checkedAfter t action ++ postedAfter t action, Owns t.timed arm := by
  cases action with
  | checkState key n =>
    simp only [BackoffTimers.step] at moved
    split_ifs at moved
    cases moved
    refine ⟨setTimer_checked tracked.checked (fun _ listed _ => listed) ?_, tracked.due, tracked.owned⟩
    unfold phaseAfterState
    split <;> rintro ⟨⟩
  | checkArm key n =>
    simp only [BackoffTimers.step] at moved
    split_ifs at moved with there
    cases moved
    by_cases passed : (t.timed.row key).respawnArmGen = some n
    · have owns := tracked.latest key n passed (of_decide_eq_true there).2.1
      rw [show checkedAfter t (.checkArm key n) = (key, n) :: t.checked from
        if_pos (decide_eq_true passed)]
      refine ⟨setTimer_checked tracked.checked (fun _ listed _ => .tail _ listed)
        (fun _ => .head _), tracked.due, ?_⟩
      exact forall_mem_cons.mpr ⟨owns, tracked.owned⟩
    · rw [show checkedAfter t (.checkArm key n) = t.checked from
        if_neg (by simpa [passes] using passed)]
      refine ⟨setTimer_checked tracked.checked (fun _ listed _ => listed) ?_, tracked.due,
        tracked.owned⟩
      rw [show phaseAfterArm (t.timed.row key) n = .finished from if_neg passed]
      rintro ⟨⟩
  | postDue key n =>
    simp only [BackoffTimers.step] at moved
    split_ifs at moved with there
    cases moved
    have listed := tracked.checked key n (of_decide_eq_true there).2.2
    obtain ⟨checked, posted⟩ := forall_mem_append.mp tracked.owned
    refine ⟨setTimer_checked tracked.checked ?_ (by rintro ⟨⟩), ?_, ?_⟩
    · exact fun arm member other => mem_filter.mpr ⟨member, decide_eq_true other⟩
    · simp [postedAfter, tracked.due]
    · refine forall_mem_append.mpr ⟨fun arm member => checked arm (mem_of_mem_filter member), ?_⟩
      exact forall_mem_append.mpr ⟨posted, forall_mem_singleton.mpr (checked _ listed)⟩
  | takeDue answers =>
    simp only [BackoffTimers.step] at moved
    split at moved
    next head rest _ queue =>
      cases moved
      obtain ⟨checked, posted⟩ := forall_mem_append.mp tracked.owned
      refine ⟨tracked.checked, ?_, forall_mem_append.mpr
        ⟨checked, fun arm member => posted arm (mem_of_mem_tail member)⟩⟩
      simp [postedAfter, map_tail, ← tracked.due, queue]
    · cases moved
  | reap action =>
    simp only [BackoffTimers.step] at moved
    split_ifs at moved
    obtain ⟨fleet, _, rfl⟩ := Option.map_eq_some_iff.mp moved
    exact ⟨tracked.checked, tracked.due, tracked.owned⟩
  | preSpawnRealloc | forgetFailures =>
    simp only [BackoffTimers.step] at moved
    split_ifs at moved
    cases moved
    exact ⟨tracked.checked, tracked.due, tracked.owned⟩
  | reallocApplied name outcome inputs =>
    simp only [BackoffTimers.step] at moved
    split_ifs at moved
    cases moved
    obtain ⟨timers, due⟩ := handleReallocApplied_timers cfg t.timed _ inputs outcome
    rw [timers, due]
    exact ⟨tracked.checked, tracked.due, tracked.owned⟩

theorem Tracked.step {next : Traced} (tracked : Tracked t) {action : TimedAction}
    (kept : KeepsOwners t action) (moved : step cfg t action = some next) : Tracked next := by
  obtain ⟨timed, stepped, rfl⟩ := Option.map_eq_some_iff.mp moved
  obtain ⟨checked, due, owned⟩ := recorded_step tracked stepped
  refine ⟨checked, due, ?_, ?_⟩
  · intro task n latest bound
    cases step_arming stepped task with
    | armed _ generation => exact Option.some.inj (generation.symm.trans latest)
    | unarmed same =>
      rcases same.generation with kept | none
      · exact same.epoch.trans (tracked.latest task n (kept.symm.trans latest) (same.epoch ▸ bound))
      · rw [none] at latest
        cases latest
  · intro arm listed
    cases step_arming stepped arm.1 with
    | unarmed same => exact same.epoch.trans (owned arm listed)
    | armed entered => exact absurd (entered.symm.trans (kept arm listed)) nofun

end Steps

/-- Where no event that may arm a task is handled between a timer's check and its event, every timer
event that the loop takes is of the task's latest arm. -/
theorem backoff_not_cut_short {cfg : Config} {t : Traced}
    (reached : Reachable Untraced (step cfg) KeepsOwners t) {task : String}
    (next : t.timed.due.head? = some task) :
    ∃ epoch, t.posted.head? = some (task, epoch) ∧ Owns t.timed (task, epoch) := by
  have tracked : Tracked t := by
    refine Reachable.invariant ?_ (fun _ _ _ holds kept moved => Tracked.step holds kept moved) reached
    rintro start ⟨idle, unchecked, unposted⟩
    refine ⟨?_, ?_, ?_, ?_⟩
    · rw [idle.noTimers]
      nofun
    · rw [idle.noneDue, unposted]
      rfl
    · intro task n _ bound
      rw [idle.unarmed] at bound
      exact (idle.unarmed task).trans (Nat.le_zero.mp bound).symm
    · rw [unchecked, unposted]
      nofun
  rw [tracked.due, List.head?_map] at next
  obtain ⟨⟨_, epoch⟩, head, rfl⟩ := Option.map_eq_some_iff.mp next
  exact ⟨epoch, head, tracked.owned _ (mem_append_right _ (mem_of_head? head))⟩

def notResolved : Answers := { obliging .preChild with pathHold := true }

def firstChecked : List TimedAction :=
  [onLoop (.post .start "\\memory" {} notResolved), .checkState "\\memory" 1, .checkArm "\\memory" 1]

theorem backoff_not_cut_short_first :
    ∃ t, Reachable Untraced (step wiredConfig) KeepsOwners t ∧
      t.timed.due.head? = some "\\memory" ∧
      ∃ epoch, t.posted.head? = some ("\\memory", epoch) ∧ Owns t.timed ("\\memory", epoch) := by
  refine (exists_reachable_under (step wiredConfig) { timed := bothIdle }
    (firstChecked ++ [.postDue "\\memory" 1]) ⟨bothIdle_idle, rfl, rfl⟩ ?_).imp
    (fun t found => ⟨found.1, found.2, backoff_not_cut_short found.1 found.2⟩)
  decide +kernel

/-- A manual restart behind the check arms the task again. The first timer's event then drives the
respawn. -/
theorem superseded_timer_respawns :
    ∃ t, Reachable Untraced (step wiredConfig) always t ∧
      t.timed.due.head? = some "\\memory" ∧ t.posted.head? = some ("\\memory", 1) ∧
      (t.timed.row "\\memory").smState = some .backoffWaiting ∧
      (t.timed.row "\\memory").respawnArmGen = some 2 ∧
      (step wiredConfig t (.takeDue (obliging (.started 4711 1)))).any (fun after =>
        decide ((after.timed.row "\\memory").smState = some .spawning ∧
          after.timed.timers "\\memory" 2 = .waiting)) = true := by
  exact exists_reachable _ { timed := bothIdle } (firstChecked ++
    [onLoop (.post .manualRestart "\\memory" {} notResolved), .postDue "\\memory" 1])
    ⟨bothIdle_idle, rfl, rfl⟩ (by decide +kernel)

end McpLocalHub.Supervisor.BackoffOwners
