/- Module: Supervisor/BackoffProgress
   source: internal/cli/supervisor_controller.go, internal/cli/supervise_stop_batch.go,
   internal/cli/supervise_realloc.go
   digest: A task in backoff always has something that wakes it. -/

import McpLocalHub.Supervisor.BackoffWakeups

set_option autoImplicit false

namespace McpLocalHub.Supervisor.BackoffProgress

open Foundation.Runs StateMachine Intents RuntimeTracker Controller StopBatch Lifecycle Reap List
open ReapFrames OrphanReap TaskView BackoffTimers BackoffTurns BackoffWakeups

private theorem labelsOf_reads {cfg : Config} {w : World} {action : Action} {task : String}
    {known : Prop} (seedless : unseeded (.loop action) = true)
    (reads : (∃ command now write answers, action = .stopBatch command now write answers) ∨
      ((lookupCanonical w.intentCache task).isSome = true ↔ known)) :
    ∀ label ∈ labelsOf cfg w action task, ReadsCache known label := by
  intro label member
  cases action with
  | stopBatch command now write answers =>
    simp only [labelsOf, stopBatchLabels] at member
    split at member
    · split_ifs at member
      · rcases mem_cons.mp member with rfl | applied
        · trivial
        · split at applied <;> (rw [mem_singleton.mp applied]; trivial)
      · cases member
    · cases member
  | selfTurn answers =>
    have cached := reads.resolve_left (by rintro ⟨_, _, _, _, ⟨⟩⟩)
    simp only [labelsOf] at member
    split at member
    · cases member
    · split_ifs at member
      · rw [mem_singleton.mp member]
        exact cached
      · cases member
  | post | deliverExit =>
    have cached := reads.resolve_left (by rintro ⟨_, _, _, _, ⟨⟩⟩)
    simp only [labelsOf] at member
    split_ifs at member
    · rw [mem_singleton.mp member]
      exact cached
    · cases member
  | refreshStops | setGraceful => cases member
  | hydrate => cases seedless
  | paroleTick | stopRecovery | dwellTick | childDies | childWaited | settle | clearGate =>
    simp only [labelsOf] at member
    split_ifs at member
    · rw [mem_singleton.mp member]
      trivial
    · cases member

theorem awakeIn_loop {cfg : Config} {w after : World} {action : Action} {task : String}
    {timers : ℕ → TimerPhase} {due : Prop} (awake : AwakeIn task timers due w)
    (moved : Lifecycle.step cfg w action = some after) (seedless : unseeded (.loop action) = true)
    (keeps : ∀ command now write answers file selected,
      action = .stopBatch command now write answers →
      admittedBatch cfg w command now = some (file, selected) → Waits (w.rows task) →
      (w.rows task).pendingReap = none →
      (lookupCanonical selected.intentCache task).isSome = true) :
    AwakeIn task timers due after := by
  have carried : AwakeView timers due ((lookupCanonical after.intentCache task).isSome = true)
        (view task w) ∧
      ∀ label ∈ labelsOf cfg w action task,
        ReadsCache ((lookupCanonical after.intentCache task).isSome = true) label := by
    rcases intentCache_step moved with
      same | ⟨command, now, write, answers, file, selected, batch, admitted, cache⟩
    · rw [same]
      exact ⟨awake, labelsOf_reads seedless (.inr Iff.rfl)⟩
    · refine ⟨?_, labelsOf_reads seedless (.inl ⟨command, now, write, answers, batch⟩)⟩
      rw [cache]
      exact { awake with
        routed := keeps command now write answers file selected batch admitted }
  exact exec_invariant_of_met (fun _ _ _ => taskStep_awake)
    (fun label member _ => carried.2 label member) (step_view moved task) carried.1

/-- A stop batch that replaces the cached file keeps a descriptor of every task in backoff outside a
reap window. -/
def keepsWaitingRows (cfg : Config) (w : Timed) : TimedAction → Bool
  | .reap (.loop (.stopBatch command now _ _)) =>
    match admittedBatch cfg w.fleet.supervisor command now with
    | none => true
    | some (_, selected) =>
      (taskNames w.fleet.supervisor.intentCache).all (fun task =>
        decide (task ∈ taskNames selected.intentCache) ||
          !decide ((w.row task).smState = some .backoffWaiting ∧ (w.row task).pendingReap = none))
  | _ => true

def KeepsWaitingRows (cfg : Config) (w : Timed) (action : TimedAction) : Prop :=
  keepsWaitingRows cfg w action = true
  deriving Decidable

def Wakeful (task : String) (w : Timed) : Prop :=
  AwakeIn task (w.timers task) (task ∈ w.due) w.fleet.supervisor

section System

variable {cfg : Config} {task : String} {w after : Timed}

theorem Wakeful.reap (plain : plainTaskName task = true) (wakeful : Wakeful task w)
    {action : ReapAction} (allowed : KeepsWaitingRows cfg w (.reap action))
    (seedless : unseeded action = true) {fleet : Fleet}
    (moved : Reap.step cfg w.fleet action = some fleet) :
    AwakeIn task (w.timers task) (task ∈ w.due) fleet.supervisor := by
  cases action with
  | loop action =>
    obtain ⟨supervisor, stepped, rfl⟩ := Option.map_eq_some_iff.mp moved
    refine awakeIn_loop wakeful stepped seedless ?_
    rintro command now write answers file selected rfl admitted held unmarked
    have known := wakeful.routed held unmarked
    have kept : (taskNames w.fleet.supervisor.intentCache).all (fun task =>
        decide (task ∈ taskNames selected.intentCache) ||
          !decide ((w.row task).smState = some .backoffWaiting ∧
            (w.row task).pendingReap = none)) = true := by
      simp only [KeepsWaitingRows, keepsWaitingRows, admitted] at allowed
      exact allowed
    have listed := all_eq_true.mp kept task ((mem_taskNames_iff plain).mpr known)
    rcases Bool.or_eq_true_iff.mp listed with present | spared
    · exact (mem_taskNames_iff plain).mp (of_decide_eq_true present)
    · have waits : (w.row task).smState = some .backoffWaiting ∧ (w.row task).pendingReap = none :=
        ⟨held, unmarked⟩
      simp [waits] at spared
  | scan previous updated stops now order answers =>
    simp only [Reap.step] at moved
    split_ifs at moved
    cases moved
    exact AwakeIn.scan previous updated stops now order plain wakeful cfg answers
  | followup name generation fresh now order answers =>
    simp only [Reap.step] at moved
    split_ifs at moved
    cases moved
    exact AwakeIn.followup plain wakeful cfg name generation fresh now order answers

private theorem awake_setTimer {timers : ℕ → TimerPhase} {queued queued' known : Prop}
    {row : TaskRow} (awake : Awake timers queued known row) {epoch : ℕ}
    (made : epoch ≤ row.respawnArmEpoch) {phase : TimerPhase} (grow : queued → queued')
    (ends : Waits row → epoch = row.respawnArmEpoch → phase = .finished → queued') :
    Awake (Function.update timers epoch phase) queued' known row := by
  refine { awake with fresh := ?_, wake := ?_ }
  · intro n above
    rw [Function.update_of_ne (by omega)]
    exact awake.fresh n above
  · intro held
    cases awake.wake held with
    | event there => exact .event (grow there)
    | deferred marked noted => exact .deferred marked noted
    | timer running =>
      by_cases latest : epoch = row.respawnArmEpoch
      · by_cases finished : phase = .finished
        · exact .event (ends held latest finished)
        · refine .timer ?_
          rw [← latest, Function.update_self]
          exact finished
      · refine .timer ?_
        rw [Function.update_of_ne (Ne.symm latest)]
        exact running

private theorem wakeful_setTimer (wakeful : Wakeful task w) {key : String} {epoch : ℕ}
    {before phase : TimerPhase} (there : w.timerIs key epoch before = true) {due : List String}
    (grow : task ∈ w.due → task ∈ due)
    (ends : key = task → Waits (w.row task) → epoch = (w.row task).respawnArmEpoch →
      phase = .finished → task ∈ due) :
    Wakeful task { w.setTimer key epoch phase with due := due } := by
  have more : Queued task (task ∈ w.due) w.fleet.supervisor →
      Queued task (task ∈ due) w.fleet.supervisor := Or.imp grow id
  have made := (of_decide_eq_true there).2.1
  unfold Wakeful AwakeIn Timed.setTimer
  dsimp only
  by_cases own : key = task
  · subst own
    rw [Function.update_self]
    exact awake_setTimer wakeful made more (fun held latest ended => .inl (ends rfl held latest ended))
  · rw [Function.update_of_ne (Ne.symm own)]
    exact Awake.mono wakeful more

private theorem wakeful_takeDue (plain : plainTaskName task = true) (wakeful : Wakeful task w)
    (answers : Answers) {head : String} {rest : List String} (queue : w.due = head :: rest) :
    AwakeIn task (w.timers task) (task ∈ rest)
      (handleEvent cfg w.fleet.supervisor ⟨.sm .timerDue, head, {}⟩ answers) := by
  unfold AwakeIn handleEvent
  rw [rows_store]
  split_ifs with own
  · rw [← own]
    have turned := handleTaskEvent_turned cfg (w.fleet.supervisor.turn task answers) task
      (.sm .timerDue) {} (w.fleet.supervisor.rows task)
    have reads : (w.fleet.supervisor.turn task answers).cached.isSome = true ↔
        (lookupCanonical w.fleet.supervisor.intentCache task).isSome = true := Iff.rfl
    obtain ⟨routed, described⟩ := wakeful.toSettled.described reads
    exact wakeful.toSettled.timerTurned turned rfl (routed ·.1) (fun held => ⟨described held, rfl⟩)
  · refine Awake.mono wakeful ?_
    intro queued
    refine Queued.post (queued.imp ?_ id) _ _
    intro listed
    rw [queue] at listed
    refine (mem_cons.mp listed).resolve_left ?_
    rintro rfl
    exact own (canonical_of_plain plain).symm

private theorem awake_rearm {timers : ℕ → TimerPhase} {queued known : Prop} {row after : TaskRow}
    (awake : Awake timers queued known row) (held : Waits row)
    (rearmed : arms after = (arms row).rearmed) : Awake timers queued known after :=
  awake.toSettled.armed (awake.routed held) rearmed

private theorem wakeful_preSpawnRealloc (wakeful : Wakeful task w) (key : String) (now : Int) :
    Wakeful task (w.setRow key (handlePreSpawnRealloc cfg now (w.cached key) (w.row key))) := by
  refine AwakeIn.setRow wakeful ?_
  rintro rfl
  unfold handlePreSpawnRealloc
  split_ifs with outside
  · exact wakeful
  · split
    · exact wakeful
    · split_ifs
      · unfold dispatchDynamicPoolRealloc
        split_ifs
        · exact wakeful
        · exact awake_rearm wakeful (not_not.mp outside) rfl
      · exact wakeful

private theorem awake_moveCache {timers : ℕ → TimerPhase} {due : Prop} {fleet : Fleet}
    (plain : plainTaskName task = true) (awake : AwakeIn task timers due fleet.supervisor)
    (inputs : ScanInputs) (key : String) (newPort : Nat) (carried : Option SupervisorIntentFile)
    (stamps : Option (Int × Int)) :
    AwakeIn task timers due (moveCache cfg inputs key newPort carried stamps fleet).supervisor := by
  have applied (file : SupervisorIntentFile) :
      AwakeIn task timers due (applyCarried cfg inputs file fleet).supervisor :=
    awake.scan _ _ _ _ _ plain cfg _
  unfold moveCache
  split
  · exact applied _
  · unfold patchCachedReallocatedPort
    split
    · exact awake
    · exact applied _

private theorem quarantineAfterRealloc_outside (now : Int) (row : TaskRow) :
    ¬Waits (quarantineAfterRealloc now row) ∧ arms (quarantineAfterRealloc now row) = arms row := by
  unfold quarantineAfterRealloc recordQuarantineParoleEligible
  split <;> exact ⟨nofun, rfl⟩

private theorem wakeful_reallocApplied (plain : plainTaskName task = true)
    (wakeful : Wakeful task w) (inputs : ScanInputs) (key : String) (outcome : ReallocOutcome) :
    Wakeful task (handleReallocApplied cfg inputs key outcome w) := by
  unfold handleReallocApplied
  split
  next newPort carried stamps =>
    unfold applyReallocated
    dsimp only
    have stamped : Wakeful task ((w.setRow key { w.row key with
        reallocations := (recordAndCountInWindow (w.row key).reallocations inputs.now
          cfg.failureWindow).1 }).setFailCount key 0) := by
      refine AwakeIn.setRow wakeful ?_
      rintro rfl
      exact Awake.of_same wakeful rfl rfl
    generalize (w.setRow key { w.row key with
        reallocations := (recordAndCountInWindow (w.row key).reallocations inputs.now
          cfg.failureWindow).1 }).setFailCount key 0 = counted at stamped
    have moved : AwakeIn task (counted.timers task) (task ∈ counted.due)
        (moveCache cfg inputs key newPort carried stamps counted.fleet).supervisor :=
      awake_moveCache plain stamped inputs key newPort carried stamps
    refine AwakeIn.setRow moved ?_
    rintro rfl
    unfold rearmHeld
    split_ifs with held
    · exact awake_rearm moved held.1 rfl
    · exact moved
  · split_ifs
    · refine AwakeIn.setRow wakeful ?_
      rintro rfl
      obtain ⟨out, same⟩ := quarantineAfterRealloc_outside inputs.now (w.row key)
      exact wakeful.toSettled.outside out same
    · exact wakeful
  · unfold applyReallocFailed
    dsimp only
    split_ifs with held escalates
    · refine AwakeIn.setRow wakeful ?_
      rintro rfl
      obtain ⟨out, same⟩ := quarantineAfterRealloc_outside inputs.now (w.row key)
      exact wakeful.toSettled.outside out same
    · refine AwakeIn.setRow wakeful ?_
      rintro rfl
      exact awake_rearm wakeful held.1 rfl
    · exact wakeful

theorem step_wakeful (plain : plainTaskName task = true) {action : TimedAction}
    (wakeful : Wakeful task w) (allowed : KeepsWaitingRows cfg w action)
    (moved : BackoffTimers.step cfg w action = some after) : Wakeful task after := by
  cases action with
  | reap action =>
    simp only [BackoffTimers.step] at moved
    split_ifs at moved with seedless
    obtain ⟨fleet, stepped, rfl⟩ := Option.map_eq_some_iff.mp moved
    exact Wakeful.reap plain wakeful allowed seedless stepped
  | checkState key epoch =>
    simp only [BackoffTimers.step] at moved
    split_ifs at moved with there
    cases moved
    refine wakeful_setTimer wakeful there id ?_
    rintro rfl held _ ended
    unfold phaseAfterState at ended
    rw [held] at ended
    cases ended
  | checkArm key epoch =>
    simp only [BackoffTimers.step] at moved
    split_ifs at moved with there
    cases moved
    refine wakeful_setTimer wakeful there id ?_
    rintro rfl held latest ended
    unfold phaseAfterArm at ended
    rw [if_pos (latest ▸ (wakeful.latest held).2)] at ended
    cases ended
  | postDue key epoch =>
    simp only [BackoffTimers.step] at moved
    split_ifs at moved with there
    cases moved
    refine wakeful_setTimer wakeful there (mem_append_left _) ?_
    rintro rfl _ _ _
    exact mem_append_right _ (mem_singleton.mpr rfl)
  | takeDue answers =>
    simp only [BackoffTimers.step] at moved
    split at moved
    next head rest _ queue =>
      cases moved
      exact wakeful_takeDue plain wakeful answers queue
    · cases moved
  | preSpawnRealloc name now =>
    simp only [BackoffTimers.step] at moved
    split_ifs at moved
    cases moved
    exact wakeful_preSpawnRealloc wakeful _ now
  | reallocApplied name outcome inputs =>
    simp only [BackoffTimers.step] at moved
    split_ifs at moved
    cases moved
    exact wakeful_reallocApplied plain wakeful inputs _ outcome
  | forgetFailures key =>
    simp only [BackoffTimers.step] at moved
    split_ifs at moved
    cases moved
    exact wakeful

theorem wakeful_of_idle (idle : TimersIdle w) (task : String) : Wakeful task w := by
  have booted := idle.started.1.2 task
  have out : ¬Waits (w.fleet.supervisor.rows task) := idle.noneHeld task
  refine ⟨⟨?_, ?_, fun held => absurd held out, fun held => absurd held out⟩,
    fun held => absurd held out⟩
  · intro n _
    rw [idle.noTimers]
  · rw [booted.noReap.1, booted.noReap.2]

end System

/-- The timer of its latest arm is under way, a timer event for it waits, or its reap window holds
one back. -/
def HasWakeup (w : Timed) (task : String) : Prop :=
  (0 < (w.row task).respawnArmEpoch ∧
      w.timers task (w.row task).respawnArmEpoch ≠ .finished) ∨
    task ∈ w.due ∨
    (∃ ev ∈ w.fleet.supervisor.selfCh,
      canonicalSupervisorTaskName ev.taskName = task ∧ ev.kind = .sm .timerDue) ∨
    (w.row task).pendingReap.isSome = true ∧ (w.row task).reapDeferredTimerDue = true
  deriving Decidable

/-- In every run whose stop batches keep the descriptors of the tasks in backoff, no task of a plain
name is in backoff with nothing to wake it. -/
theorem backoff_never_dead_end {cfg : Config} {w : Timed}
    (reached : Reachable TimersIdle (BackoffTimers.step cfg) (KeepsWaitingRows cfg) w)
    {task : String} (plain : plainTaskName task = true)
    (held : (w.row task).smState = some .backoffWaiting) :
    HasWakeup w task := by
  have wakeful : Wakeful task w :=
    Reachable.invariant (fun _ idle => wakeful_of_idle idle task)
      (fun _ _ _ holds allowed moved => step_wakeful plain holds allowed moved) reached
  cases wakeful.wake held with
  | timer running => exact .inl ⟨(wakeful.latest held).1, running⟩
  | event there =>
    rcases there with listed | ⟨ev, pending, timer⟩
    · exact .inr (.inl listed)
    · obtain ⟨queued, own⟩ := mem_filter.mp pending
      exact .inr (.inr (.inl ⟨ev, queued, of_decide_eq_true own, timer⟩))
  | deferred marked noted => exact .inr (.inr (.inr ⟨marked, noted⟩))

def bothIdle : Timed := { fleet := bothStarted }

theorem bothIdle_idle : TimersIdle bothIdle :=
  ⟨bothStarted_plain.1, rfl, rfl, fun _ => rfl, fun _ => nofun⟩

def onLoop (action : Action) : TimedAction := .reap (.loop action)

def memoryCrashes : List TimedAction :=
  [onLoop (.post .start "\\memory" {} (obliging (.started 4711 1))),
    onLoop (.selfTurn (obliging .preChild)),
    onLoop (.childDies "\\memory" 1),
    onLoop (.childWaited "\\memory" 1),
    onLoop (.deliverExit "\\memory" 1 1 false (obliging .preChild))]

theorem backoff_never_dead_end_crashed :
    ∃ w, Reachable TimersIdle (BackoffTimers.step wiredConfig) (KeepsWaitingRows wiredConfig) w ∧
      (w.row "\\memory").smState = some .backoffWaiting ∧ HasWakeup w "\\memory" := by
  refine (exists_reachable_under (BackoffTimers.step wiredConfig) bothIdle memoryCrashes bothIdle_idle
    ?_).imp (fun w found => ⟨found.1, found.2,
      backoff_never_dead_end found.1 (by decide +kernel) found.2⟩)
  decide +kernel

def stopFiles : StopBatchCommand where
  protocolVersion := 1
  batchID := "batch"
  targets := [⟨"\\files", 9102⟩]
  intentGeneration := 2
  supervisorIntent := some ⟨2, [filesDaemon], [("\\files", ⟨.stopped, .userStop, 0⟩)]⟩
  unifiedStops := some [("\\files", ⟨.stopped, .userStop, 0⟩)]

def memoryForgotten : List TimedAction :=
  [onLoop (.post .start "\\files" {} (obliging (.started 4712 1))),
    onLoop (.selfTurn (obliging .preChild))] ++ memoryCrashes ++
  [onLoop (.stopBatch stopFiles 0 .ok (fun _ => obliging .preChild)),
    .checkState "\\memory" 1, .checkArm "\\memory" 1, .postDue "\\memory" 1,
    .takeDue (obliging (.started 4713 2))]

theorem forgotten_descriptor_strands_backoff :
    ∃ w, Reachable TimersIdle (BackoffTimers.step wiredConfig) always w ∧
      plainTaskName "\\memory" = true ∧
      (w.row "\\memory").smState = some .backoffWaiting ∧ ¬HasWakeup w "\\memory" := by
  exact exists_reachable _ bothIdle memoryForgotten bothIdle_idle (by decide +kernel)

end McpLocalHub.Supervisor.BackoffProgress
