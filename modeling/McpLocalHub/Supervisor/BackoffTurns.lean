/- Module: Supervisor/BackoffTurns
   digest: What the turns of the loop do to a task in backoff. -/

import McpLocalHub.Supervisor.BackoffTimers

set_option autoImplicit false

namespace McpLocalHub.Supervisor.BackoffTurns

open Foundation.Runs StateMachine Intents RuntimeTracker Controller StopBatch Lifecycle Reap
open TaskView BackoffTimers

structure Arms where
  epoch : ℕ
  generation : Option ℕ
  deferred : Bool
  pending : Option SupervisorDaemon
  shadow : Option SupervisorDaemon

def arms (row : TaskRow) : Arms :=
  ⟨row.respawnArmEpoch, row.respawnArmGen, row.reapDeferredTimerDue, row.pendingReap,
    row.reapShadow⟩

def Arms.rearmed (a : Arms) : Arms := { a with epoch := a.epoch + 1, generation := some (a.epoch + 1) }

def Waits (row : TaskRow) : Prop := row.smState = some .backoffWaiting

theorem state_backoff_iff (row : TaskRow) : row.state = .backoffWaiting ↔ Waits row := by
  unfold TaskRow.state Waits
  cases row.smState with
  | none => exact ⟨nofun, nofun⟩
  | some state => exact ⟨congrArg some, Option.some.inj⟩

/-- The events that can take a task into the backoff, or start a spawn that a gate may hold there. -/
def mayArm : SMEvent → Bool
  | .healthOK | .requestGraceful | .quiesceComplete | .supervisorRestart => false
  | .start | .childExit | .timerDue | .intentUpdate | .manualRestart => true

theorem mayArm_of_enters {state : SMState} {ev : SMEvent} {ctx : SMContext}
    (matched : (transition state ev ctx).matched = true)
    (enters : (transition state ev ctx).newState = .backoffWaiting ∨
      createsProcess (transition state ev ctx).side = true) : mayArm ev = true := by
  have lands : (transition state ev ctx).newState = .backoffWaiting ∨
      ((transition state ev ctx).newState = .spawning ∧ state ≠ .spawning) :=
    enters.imp id (createsProcess_iff state ev ctx).mp
  cases ev with
  | start | childExit | timerDue | intentUpdate | manualRestart => rfl
  | healthOK | requestGraceful | quiesceComplete | supervisorRestart =>
    revert lands matched
    cases state
    all_goals
      simp only [transition, transitionIdle, transitionSpawning, transitionRunning,
        transitionExiting, transitionBackoffWaiting, transitionQuarantined]
      first | (split_ifs <;> simp) | simp

def Unmoved (row after : TaskRow) : Prop := arms after = arms row ∧ after.smState = row.smState

theorem not_waits {row after : TaskRow} {state : SMState} (same : after.smState = row.smState)
    (stored : row.smState = some state) (other : state ≠ .backoffWaiting) : ¬Waits after := by
  unfold Waits
  rw [same, stored]
  exact fun held => other (Option.some.inj held)

private theorem recordExactStopReceiptExit_unmoved (kind : EventKind) (body : EventBody)
    (persistOK : Bool) (row : TaskRow) :
    Unmoved row (recordExactStopReceiptExit kind body persistOK row) := by
  have advance (tuple : TerminationExpectedTuple) :
      Unmoved row (advanceExactStopReceiptExit persistOK tuple row) := by
    unfold advanceExactStopReceiptExit
    split
    · exact ⟨rfl, rfl⟩
    · split_ifs
      · split <;> exact ⟨rfl, rfl⟩
      · exact ⟨rfl, rfl⟩
  unfold recordExactStopReceiptExit
  split
  · exact ⟨rfl, rfl⟩
  · exact advance _
  · exact ⟨rfl, rfl⟩

private theorem recordQuarantineParoleEligible_unmoved (row : TaskRow) (now : Int) :
    Unmoved row (recordQuarantineParoleEligible row now) := by
  unfold recordQuarantineParoleEligible
  split <;> exact ⟨rfl, rfl⟩

private theorem runSpawn_unmoved (row : TaskRow) (outcome : SpawnOutcome) :
    Unmoved row (runSpawn row outcome) := by
  cases outcome with
  | unowned recorded => cases recorded <;> exact ⟨rfl, rfl⟩
  | _ => exact ⟨rfl, rfl⟩

section Handlers

variable (cfg : Config) (turn : Turn) (task : String) (d : SupervisorDaemon)

private theorem runTerminate_unmoved (row : TaskRow) (answer : TerminateAnswer)
    (expected : TerminationExpectedTuple) :
    Unmoved row (runTerminate cfg row answer expected).1 := by
  obtain ⟨children, entry, same⟩ := runTerminate_frame cfg row answer expected
  rw [same]
  exact ⟨rfl, rfl⟩

theorem arms_failReceipt (answers : Answers) (row : TaskRow) :
    arms (failReceipt answers row) = arms row := by
  unfold failReceipt
  split
  · rfl
  · split
    · split_ifs <;> rfl
    · rfl

/-- Behind a transition the task is out of the backoff under its old arms, or armed anew. -/
inductive Landed (may : Prop) (row after : TaskRow) : Prop
  | outside (out : ¬Waits after) (same : arms after = arms row)
  | armed (entered : may) (held : Waits after) (rearmed : arms after = (arms row).rearmed)

variable {may timer found : Prop} {row after middle : TaskRow}

private theorem createProcess_landed (row : TaskRow) (stored : row.smState = some .spawning)
    (entered : may) : Landed may row (createProcess cfg turn task d row).row := by
  unfold createProcess
  split_ifs
  · exact .outside (not_waits rfl stored nofun) rfl
  · exact .outside nofun rfl
  · exact .outside (not_waits rfl stored nofun) rfl
  · exact .armed entered rfl rfl
  · exact .armed entered rfl rfl
  · obtain ⟨same, state⟩ := runSpawn_unmoved { row with gateCleared := false } turn.answers.spawn
    revert same state
    dsimp only
    generalize runSpawn { row with gateCleared := false } turn.answers.spawn = spawned
    intro same state
    cases turn.answers.spawn with
    | jobProtectionRefused => exact .outside nofun same
    | _ => exact .outside (not_waits state stored nofun) same

theorem executeSideEffect_landed (side : SideEffect) (newState : SMState) (ev : SMEvent)
    (row : TaskRow) (stored : row.smState = some newState) :
    Landed (newState = .backoffWaiting ∨ createsProcess side = true) row
      (executeSideEffect cfg turn task d side newState ev row).row := by
  have still (other : newState ≠ .backoffWaiting) : ¬Waits row := not_waits rfl stored other
  unfold executeSideEffect
  cases newState with
  | spawning =>
    dsimp only
    split_ifs with creates
    · exact createProcess_landed cfg turn task d row stored (.inr creates)
    · exact .outside (still nofun) rfl
  | backoffWaiting =>
    unfold handleBackoffWaiting
    dsimp only
    split_ifs
    · obtain ⟨same, state⟩ := recordQuarantineParoleEligible_unmoved
        { row with
          failures := (recordAndCountInWindow row.failures turn.answers.now cfg.failureWindow).1
          smState := some .quarantined
          entry := some (markQuarantined row.entry) } turn.answers.now
      exact .outside (not_waits state rfl nofun) same
    · exact .armed (.inl rfl) stored rfl
  | quarantined =>
    dsimp only
    split_ifs
    · obtain ⟨same, state⟩ := recordQuarantineParoleEligible_unmoved row turn.answers.now
      exact .outside (not_waits state stored nofun) same
    · exact .outside (still nofun) rfl
  | exiting =>
    obtain ⟨same, state⟩ := runTerminate_unmoved cfg row turn.answers.terminate
      (terminationExpectedTupleForTask row.entry)
    exact .outside (not_waits state stored nofun) same
  | running | idle => exact .outside (still nofun) rfl

/-- How a turn leaves the backoff of its task, for a timer event or another one, and with or
without a descriptor. -/
inductive Turned (timer found : Prop) (row after : TaskRow) : Prop
  | outside (out : ¬Waits after) (same : arms after = arms row)
  | armed (described : found) (held : Waits after) (rearmed : arms after = (arms row).rearmed)
  | kept (before : Waits row) (idle : timer → ¬found) (same : arms after = arms row)
  | deferred (before : Waits row) (marked : row.pendingReap.isSome = true)
      (noted : arms after = { arms row with deferred := true })

theorem Turned.of_same (state : after.smState = row.smState) (same : arms after = arms row)
    (idle : Waits row → timer → ¬found) : Turned timer found row after := by
  by_cases before : Waits row
  · exact .kept before (idle before) same
  · refine .outside ?_ same
    unfold Waits
    rw [state]
    exact before

theorem Landed.turned (landed : Landed may middle after) (same : arms middle = arms row)
    (described : may → found) : Turned timer found row after := by
  cases landed with
  | outside out kept => exact .outside out (kept.trans same)
  | armed entered held rearmed =>
    exact .armed (described entered) held (rearmed.trans (congrArg Arms.rearmed same))

inductive Planned (timer found : Prop) (row : TaskRow) : TurnPlan → Prop
  | finished {after : TaskRow} (turned : Turned timer found row after) :
      Planned timer found row (.finished after)
  | moves {prepared : Prepared}
      (described : prepared.result.newState = .backoffWaiting ∨
        createsProcess prepared.result.side = true → found)
      (same : arms prepared.row = arms row) : Planned timer found row (.moves prepared)

theorem Planned.transfer {plan : TurnPlan}
    (planned : Planned timer found middle plan) (state : middle.smState = row.smState)
    (same : arms middle = arms row) : Planned timer found row plan := by
  have waits : Waits middle ↔ Waits row := by
    unfold Waits
    rw [state]
  cases planned with
  | moves described kept => exact .moves described (kept.trans same)
  | finished turned =>
    refine .finished ?_
    cases turned with
    | outside out kept => exact .outside out (kept.trans same)
    | armed described held rearmed =>
      exact .armed described held (rearmed.trans (congrArg Arms.rearmed same))
    | kept before idle kept => exact .kept (waits.mp before) idle (kept.trans same)
    | deferred before marked noted =>
      have pending : middle.pendingReap = row.pendingReap := congrArg Arms.pending same
      exact .deferred (waits.mp before) (pending ▸ marked) (same ▸ noted)

private theorem planResolved_planned (ev : SMEvent) (body : EventBody) (row : TaskRow)
    (described : mayArm ev = true → found) :
    Planned (ev = .timerDue) found row (planResolved cfg turn d ev body row) := by
  unfold planResolved
  split_ifs with deferred clean
  · exact .finished (.deferred ((state_backoff_iff row).mp deferred.2.1) deferred.2.2 rfl)
  · exact .finished (.outside nofun rfl)
  · have reported : Unmoved row (clearReportedRuntime ev body row).1 ∧
        (ev = .timerDue → (clearReportedRuntime ev body row).2 = row.state) := by
      unfold clearReportedRuntime
      split_ifs with cleared running
      · refine ⟨⟨rfl, rfl⟩, ?_⟩
        rintro rfl
        cases cleared.1
      · exact ⟨⟨rfl, rfl⟩, fun _ => rfl⟩
      · exact ⟨⟨rfl, rfl⟩, fun _ => rfl⟩
    revert reported
    generalize clearReportedRuntime ev body row = pair
    obtain ⟨cleared, current⟩ := pair
    rintro ⟨⟨same, state⟩, started⟩
    dsimp only at same state started ⊢
    split_ifs with refused
    · have exited : ev = .childExit := by
        simp only [takesBindRefusedExit, Bool.and_eq_true, decide_eq_true_eq] at refused
        exact refused.1.1.2.1
      exact .finished (.armed (described (exited ▸ rfl)) rfl (congrArg Arms.rearmed same))
    · unfold planTransition
      dsimp only
      split_ifs with matched
      · exact .moves (fun enters => described (mayArm_of_enters matched enters)) same
      · refine .finished (.of_same state same ?_)
        rintro waits rfl _
        apply matched
        rw [started rfl, (state_backoff_iff row).mpr waits]
        simp only [transition, transitionBackoffWaiting]
        split_ifs <;> rfl

private theorem planTurn_planned (kind : EventKind) (body : EventBody) (row : TaskRow) :
    Planned (kind.smEvent = .timerDue)
      ((lookupDescriptorWithShadow turn row).isSome = true ∧ mayArm kind.smEvent = true) row
      (planTurn cfg turn kind body row) := by
  have unmoved := recordExactStopReceiptExit_unmoved kind body turn.answers.persistOK row
  unfold planTurn
  dsimp only
  generalize recordExactStopReceiptExit kind body turn.answers.persistOK row = recorded at *
  by_cases gate : kind.smEvent = .manualRestart ∧ body.requireRunningIntent = true ∧
      turn.intent.suppressesAutomaticStart turn.answers.now = true
  · rw [if_pos gate]
    refine .finished (.of_same unmoved.2 unmoved.1 ?_)
    intro _ timer
    rw [timer] at gate
    cases gate.1
  rw [if_neg gate]
  by_cases stale : isStaleExit kind.smEvent body recorded = true
  · rw [if_pos stale]
    refine .finished (.of_same unmoved.2 unmoved.1 ?_)
    intro _ timer
    rw [timer] at stale
    unfold isStaleExit at stale
    split at stale
    · cases (of_decide_eq_true stale).1
    · cases stale
  rw [if_neg stale]
  obtain ⟨same, state⟩ : Unmoved row (if kind.smEvent = .childExit then
      { recorded with reaperOutstanding := false } else recorded) := by
    split_ifs <;> exact unmoved
  generalize (if kind.smEvent = .childExit then
      { recorded with reaperOutstanding := false } else recorded) = heard at *
  have sameLookup : lookupDescriptorWithShadow turn heard = lookupDescriptorWithShadow turn row :=
    congrArg turn.cached.or (congrArg Arms.shadow same)
  rw [sameLookup]
  cases found : lookupDescriptorWithShadow turn row with
  | none => exact .finished (.of_same state same (fun _ _ described => absurd described.1 nofun))
  | some d =>
    exact (planResolved_planned cfg turn d kind.smEvent body heard (fun arms => ⟨rfl, arms⟩)).transfer
      state same

theorem handleTaskEvent_turned (kind : EventKind) (body : EventBody) (row : TaskRow) :
    Turned (kind.smEvent = .timerDue)
      ((lookupDescriptorWithShadow turn row).isSome = true ∧ mayArm kind.smEvent = true) row
      (handleTaskEvent cfg turn task kind body row).1 := by
  unfold handleTaskEvent
  have plan := planTurn_planned cfg turn kind body row
  generalize planTurn cfg turn kind body row = planned at plan
  cases plan with
  | finished turned => exact turned
  | @moves prepared described same =>
    exact (executeSideEffect_landed cfg turn task prepared.descriptor prepared.result.side
      prepared.result.newState kind.smEvent (storeTransition prepared) rfl).turned same described

theorem stop_transition (state : SMState) (ctx : SMContext)
    (stopped : ctx.intentDesired = .stopped) :
    (transition state .intentUpdate ctx).matched = true ∧
      (transition state .intentUpdate ctx).newState ≠ .backoffWaiting ∧
      createsProcess (transition state .intentUpdate ctx).side = false := by
  have lands : (transition state .intentUpdate ctx).matched = true ∧
      (transition state .intentUpdate ctx).newState ≠ .backoffWaiting ∧
      ((transition state .intentUpdate ctx).newState = .spawning → state = .spawning) := by
    cases state <;>
      simp [transition, transitionIdle, transitionSpawning, transitionRunning, transitionExiting,
        transitionBackoffWaiting, transitionQuarantined, stopped]
  refine ⟨lands.1, lands.2.1, Bool.eq_false_iff.mpr ?_⟩
  intro creates
  obtain ⟨spawning, other⟩ := (createsProcess_iff state .intentUpdate ctx).mp creates
  exact other (lands.2.2 spawning)

private theorem executeSideEffect_stop (state : SMState) (ctx : SMContext) (row : TaskRow)
    (stopped : ctx.intentDesired = .stopped)
    (stored : row.smState = some (transition state .intentUpdate ctx).newState) :
    let effect := executeSideEffect cfg turn task d (transition state .intentUpdate ctx).side
      (transition state .intentUpdate ctx).newState .intentUpdate row
    ¬Waits effect.row ∧ arms effect.row = arms row := by
  obtain ⟨_, other, uncreated⟩ := stop_transition state ctx stopped
  cases executeSideEffect_landed cfg turn task d (transition state .intentUpdate ctx).side
    (transition state .intentUpdate ctx).newState .intentUpdate row stored with
  | outside out same => exact ⟨out, same⟩
  | armed entered =>
    rcases entered with backoff | creates
    · exact absurd backoff other
    · exact absurd (uncreated.symm.trans creates) nofun

theorem applyStopTarget_outside (row : TaskRow) : ¬Waits (applyStopTarget cfg turn task d row).1 ∧
      arms (applyStopTarget cfg turn task d row).1 = arms row := by
  have applied : ¬Waits (applyAuthoritativeStopTransition cfg turn task d row).row ∧
      arms (applyAuthoritativeStopTransition cfg turn task d row).row = arms row := by
    obtain ⟨matched, other, _⟩ :=
      stop_transition row.state (stopContext cfg turn.answers.now row) rfl
    unfold applyAuthoritativeStopTransition
    dsimp only
    split_ifs with unmatched
    · exact absurd (matched.symm.trans unmatched) nofun
    · exact ⟨fun held => other (Option.some.inj held), rfl⟩
    · exact executeSideEffect_stop cfg turn task d row.state (stopContext cfg turn.answers.now row)
        (storeAuthoritativeStop row _) rfl rfl
  unfold applyStopTarget
  dsimp only
  split
  · exact applied
  · have state := (failReceipt_core turn.answers
      (applyAuthoritativeStopTransition cfg turn task d row).row).smState
    exact ⟨fun held => applied.1 (state.symm.trans held), (arms_failReceipt _ _).trans applied.2⟩

def Arms.cleared (a : Arms) : Arms := ⟨a.epoch, none, false, none, none⟩

private theorem classifyReap_outside {current newState : SMState} {effect : Effect}
    (out : ¬Waits effect.row) (other : newState = .exiting → current ≠ .backoffWaiting) :
    ¬Waits (classifyReap current newState effect).row ∧
      arms (classifyReap current newState effect).row = arms effect.row := by
  unfold classifyReap
  split
  · split_ifs
    · exact ⟨fun held => other rfl (Option.some.inj held), rfl⟩
    · exact ⟨out, rfl⟩
    · exact ⟨out, rfl⟩
  · exact ⟨out, rfl⟩
  · exact ⟨out, rfl⟩

theorem reapRemovedDaemon_outside (row : TaskRow) :
    ¬Waits (reapRemovedDaemon cfg turn task d row).row ∧
      arms (reapRemovedDaemon cfg turn task d row).row = arms row := by
  unfold reapRemovedDaemon
  split
  next missing => exact ⟨fun held => absurd (missing.symm.trans held) nofun, rfl⟩
  next exiting => exact ⟨not_waits rfl exiting nofun, rfl⟩
  next current tracked _ =>
    obtain ⟨matched, _, _⟩ := stop_transition current (reapContext turn.graceful row) rfl
    dsimp only
    split_ifs with settled unmatched
    · refine ⟨?_, rfl⟩
      intro held
      unfold smStateIsReapable at settled
      rw [held] at settled
      cases settled
    · exact absurd (matched.symm.trans unmatched) nofun
    · obtain ⟨out, same⟩ := executeSideEffect_stop cfg turn task d current
        (reapContext turn.graceful row) (storeReap current _ row) rfl rfl
      have leaves : (transition current .intentUpdate (reapContext turn.graceful row)).newState =
          .exiting → current ≠ .backoffWaiting := by
        rintro exits rfl
        cases exits
      obtain ⟨classified, kept⟩ := classifyReap_outside out leaves
      exact ⟨classified, kept.trans same⟩

theorem settleReap_outside (row : TaskRow) : let reaped := reapRemovedDaemon cfg turn task d row
    let after := settleReap reaped.outcome reaped.row
    ¬Waits after ∧ (arms after = arms row ∨ arms after = (arms row).cleared) := by
  obtain ⟨out, same⟩ := reapRemovedDaemon_outside cfg turn task d row
  dsimp only
  have followed (middle : TaskRow) : Waits (armReapFollowup middle) = Waits middle ∧
      arms (armReapFollowup middle) = arms middle := by
    unfold armReapFollowup
    dsimp only
    split_ifs <;> exact ⟨rfl, rfl⟩
  unfold settleReap
  split
  · exact ⟨nofun, .inr (congrArg Arms.cleared same)⟩
  · rw [(followed _).1, (followed _).2]
    exact ⟨out, .inl same⟩
  · rw [(followed _).1, (followed _).2]
    exact ⟨out, .inl same⟩

end Handlers

/-- A task in backoff is under its latest arm and can be routed. `known`: the cache has a descriptor
of it. -/
structure Settled (timers : ℕ → TimerPhase) (known : Prop) (row : TaskRow) : Prop where
  fresh : ∀ n, row.respawnArmEpoch < n → timers n = .waiting
  shadowed : row.reapShadow.isSome = row.pendingReap.isSome
  latest : Waits row → 0 < row.respawnArmEpoch ∧ row.respawnArmGen = some row.respawnArmEpoch
  routed : Waits row → row.pendingReap = none → known

/-- What wakes a task: its latest timer, a queued timer event, or one that the reap deferred. -/
inductive Wake (timers : ℕ → TimerPhase) (queued : Prop) (row : TaskRow) : Prop
  | timer (running : timers row.respawnArmEpoch ≠ .finished)
  | event (there : queued)
  | deferred (marked : row.pendingReap.isSome = true) (noted : row.reapDeferredTimerDue = true)

structure Awake (timers : ℕ → TimerPhase) (queued known : Prop) (row : TaskRow) : Prop
    extends Settled timers known row where
  wake : Waits row → Wake timers queued row

section Turns

variable {timers : ℕ → TimerPhase} {queued queued' known timer found : Prop} {row after : TaskRow}

theorem Wake.mono (wake : Wake timers queued row) (grow : queued → queued') :
    Wake timers queued' row := by
  cases wake with
  | timer running => exact .timer running
  | event there => exact .event (grow there)
  | deferred marked noted => exact .deferred marked noted

theorem Awake.mono (awake : Awake timers queued known row) (grow : queued → queued') :
    Awake timers queued' known row :=
  ⟨awake.toSettled, fun held => (awake.wake held).mono grow⟩

theorem Wake.of_same (wake : Wake timers queued row) (same : arms after = arms row) :
    Wake timers queued after := by
  obtain ⟨epoch, -, deferred, pending, -⟩ := Arms.mk.inj same
  cases wake with
  | timer running => exact .timer (epoch ▸ running)
  | event there => exact .event there
  | deferred marked noted => exact .deferred (pending ▸ marked) (deferred ▸ noted)

theorem Settled.of_arms (settled : Settled timers known row) (before : Waits after → Waits row)
    (same : arms after = arms row) : Settled timers known after := by
  obtain ⟨epoch, generation, -, pending, shadow⟩ := Arms.mk.inj same
  refine ⟨?_, ?_, ?_, ?_⟩
  · rw [epoch]
    exact settled.fresh
  · rw [shadow, pending]
    exact settled.shadowed
  · intro held
    rw [epoch, generation]
    exact settled.latest (before held)
  · intro held unmarked
    exact settled.routed (before held) (pending ▸ unmarked)

theorem Awake.of_arms (awake : Awake timers queued known row) (before : Waits after → Waits row)
    (same : arms after = arms row) : Awake timers queued known after :=
  ⟨awake.toSettled.of_arms before same, fun held => (awake.wake (before held)).of_same same⟩

theorem Awake.of_same (awake : Awake timers queued known row) (state : after.smState = row.smState)
    (same : arms after = arms row) : Awake timers queued known after :=
  awake.of_arms (fun held => state.symm.trans held) same

section

variable (settled : Settled timers known row)

include settled

theorem Settled.outside (out : ¬Waits after)
    (same : arms after = arms row) : Awake timers queued known after :=
  ⟨settled.of_arms (fun held => absurd held out) same, fun held => absurd held out⟩

theorem Settled.cleared (out : ¬Waits after)
    (cleared : arms after = (arms row).cleared) : Awake timers queued known after := by
  have middle : Awake timers queued known
      { row with
        smState := none, respawnArmGen := none, reapDeferredTimerDue := false, pendingReap := none
        reapShadow := none } :=
    { settled with shadowed := rfl, latest := nofun, routed := nofun, wake := nofun }
  exact middle.of_arms (fun held => absurd held out) cleared

theorem Settled.armed (routed : row.pendingReap = none → known)
    (rearmed : arms after = (arms row).rearmed) : Awake timers queued known after := by
  have middle : Awake timers queued known
      { row with
        smState := some .backoffWaiting, respawnArmEpoch := row.respawnArmEpoch + 1
        respawnArmGen := some (row.respawnArmEpoch + 1) } :=
    { settled with
      fresh := fun n above => settled.fresh n (Nat.lt_of_succ_lt above)
      latest := fun _ => ⟨Nat.succ_pos _, rfl⟩
      routed := fun _ => routed
      wake := fun _ => .timer (by rw [settled.fresh _ (Nat.lt_succ_self _)]; nofun) }
  exact middle.of_arms (fun _ => rfl) rearmed

private theorem Settled.noted (before : Waits row) (marked : row.pendingReap.isSome = true)
    (noted : arms after = { arms row with deferred := true }) :
    Awake timers queued known after := by
  have middle : Awake timers queued known { row with reapDeferredTimerDue := true } :=
    { settled with wake := fun _ => .deferred marked rfl }
  exact middle.of_arms (fun _ => before) noted

end

theorem Awake.turned (awake : Awake timers queued known row) (turned : Turned timer found row after)
    (routed : found → row.pendingReap = none → known) : Awake timers queued known after := by
  cases turned with
  | outside out same => exact awake.toSettled.outside out same
  | armed described _ rearmed => exact awake.toSettled.armed (routed described) rearmed
  | kept before _ same => exact awake.of_arms (fun _ => before) same
  | deferred before marked noted => exact awake.toSettled.noted before marked noted

theorem Settled.timerTurned (settled : Settled timers known row)
    (turned : Turned timer found row after) (event : timer)
    (routed : found → row.pendingReap = none → known) (described : Waits row → found) :
    Awake timers queued known after := by
  cases turned with
  | outside out same => exact settled.outside out same
  | armed described _ rearmed => exact settled.armed (routed described) rearmed
  | kept before idle => exact absurd (described before) (idle event)
  | deferred before marked noted => exact settled.noted before marked noted

theorem Settled.described (settled : Settled timers known row) {turn : Turn}
    (reads : turn.cached.isSome = true ↔ known) :
    ((lookupDescriptorWithShadow turn row).isSome = true → row.pendingReap = none → known) ∧
      (Waits row → (lookupDescriptorWithShadow turn row).isSome = true) := by
  have shadowed := settled.shadowed
  unfold lookupDescriptorWithShadow
  rw [Option.isSome_or, Bool.or_eq_true]
  refine ⟨?_, ?_⟩
  · rintro (cached | shadow) unmarked
    · exact reads.mp cached
    · rw [shadow, unmarked] at shadowed
      cases shadowed
  · intro held
    cases marked : row.pendingReap with
    | none => exact .inl (reads.mpr (settled.routed held marked))
    | some d =>
      rw [marked] at shadowed
      exact .inr shadowed

end Turns

def TimerPending (pending : List LoopEvent) : Prop := ∃ ev ∈ pending, ev.kind = .sm .timerDue

def AwakeView (timers : ℕ → TimerPhase) (queued known : Prop) (v : View) : Prop :=
  Awake timers (queued ∨ TimerPending v.pending) known v.row

def ReadsCache (known : Prop) : Label → Prop
  | .selfTurn turn | .post _ _ turn | .deliverExit _ _ _ turn => turn.cached.isSome = true ↔ known
  | .hydrate => False
  | _ => True

theorem smEvent_timerDue_iff (kind : EventKind) :
    kind.smEvent = .timerDue ↔ kind = .sm .timerDue := by
  cases kind with
  | sm ev => exact ⟨congrArg EventKind.sm, fun same => EventKind.sm.inj same⟩
  | ownedChildWaitExit | foreignTerminationExit => exact ⟨nofun, nofun⟩

theorem TimerPending.append {pending : List LoopEvent} (waiting : TimerPending pending)
    (posts : List LoopEvent) : TimerPending (pending ++ posts) := by
  obtain ⟨ev, listed, timer⟩ := waiting
  exact ⟨ev, List.mem_append_left posts listed, timer⟩

theorem taskStep_awake {cfg : Config} {task : String} {timers : ℕ → TimerPhase}
    {queued known : Prop} {v next : View} {label : Label} (awake : AwakeView timers queued known v)
    (reads : ReadsCache known label) (moved : taskStep cfg task v label = some next) :
    AwakeView timers queued known next := by
  have unposted {row : TaskRow} {posts : List LoopEvent}
      (awake : Awake timers (queued ∨ TimerPending []) known row) :
      AwakeView timers queued known (.after [] (row, posts)) :=
    awake.mono (Or.imp id (fun pending => pending.append posts))
  have calm (quiet : v.pending = []) : Awake timers (queued ∨ TimerPending []) known v.row :=
    quiet ▸ awake
  cases taskStep_cases moved with
  | @selfTurn turn ev rest queue =>
    have turned := handleTaskEvent_turned cfg turn task ev.kind ev.body v.row
    obtain ⟨routed, described⟩ := awake.toSettled.described reads
    by_cases timer : ev.kind.smEvent = .timerDue
    · exact awake.toSettled.timerTurned turned timer (routed ·.1)
        (fun held => ⟨described held, timer ▸ rfl⟩)
    · refine (awake.turned turned (routed ·.1)).mono (Or.imp id ?_)
      rintro ⟨posted, listed, due⟩
      rw [queue] at listed
      rcases List.mem_cons.mp listed with rfl | later
      · exact absurd ((smEvent_timerDue_iff _).mpr due) timer
      · exact TimerPending.append ⟨posted, later, due⟩ _
  | @post ev body turn quiet =>
    have turned := handleTaskEvent_turned cfg turn task (.sm ev) body v.row
    exact unposted ((calm quiet).turned turned ((awake.toSettled.described reads).1 ·.1))
  | @exit _ _ _ turn _ children quiet =>
    have before : Awake timers (queued ∨ TimerPending []) known
        { v.row with children := children } := (calm quiet).of_same rfl rfl
    exact unposted (before.turned (handleTaskEvent_turned cfg turn task ..)
      ((before.toSettled.described reads).1 ·.1))
  | paroled quiet => exact unposted ((calm quiet).of_same rfl rfl)
  | @stop _ d turn quiet receipt =>
    obtain ⟨out, kept⟩ := applyStopTarget_outside cfg turn task d { v.row with receipt := receipt }
    exact awake.toSettled.outside out kept
  | child | aside => exact awake.of_same rfl rfl
  | hydrate => exact absurd reads not_false

end McpLocalHub.Supervisor.BackoffTurns
