/- Module: Supervisor/StopFinality
   digest: Under an active stop no transition asks for a process, unless an operator restarts the
   daemon. -/

import McpLocalHub.Supervisor.TaskView

/-!
The decision to respawn is taken when the old process exits, from the queued action and not from
the intent. Two invariants make a stop final: a respawn is queued only for an exiting daemon, and
under an active stop nothing but an operator's restart queues one. The loop handler takes a queued
respawn back when it handles the stop; `applyAuthoritativeStopTransition` does not.
-/

set_option autoImplicit false

namespace McpLocalHub.Supervisor.StopFinality

open List

open Foundation.Runs StateMachine Intents RuntimeTracker Controller StopBatch Lifecycle TaskView

variable {row after : TaskRow} {cfg : Config} {turn : Turn} {w : World} {base : List SideEffect}
  {body : EventBody} {task : String}

structure Fits (v : View) : Prop where
  queued : QueuedFits v.row.state v.row.queuedAction
  gated : ∀ ev ∈ v.pending, ev.kind.smEvent = .manualRestart → ev.body.requireRunningIntent = true

theorem executeSideEffect_fits (cfg : Config) (turn : Turn) (task : String) (d : SupervisorDaemon)
    (side : SideEffect) (newState : SMState) (ev : SMEvent) (row : TaskRow)
    (stored : row.smState = some newState) (queued : QueuedFits newState row.queuedAction)
    (creates : createsProcess side = true → row.queuedAction = .none) :
    Fits ⟨(executeSideEffect cfg turn task d side newState ev row).row,
      (executeSideEffect cfg turn task d side newState ev row).posts⟩ := by
  have spec := executeSideEffect_spec cfg turn task d side newState ev row
  generalize executeSideEffect cfg turn task d side newState ev row = effect at spec ⊢
  obtain ⟨frame, state, posted⟩ := spec
  constructor
  · rw [frame.queuedAction]
    rcases state stored with same | backoff | ⟨_, asks⟩
    · rw [same]
      exact queued
    · subst backoff
      exact queued.elsewhere nofun nofun _
    · rw [creates asks]
      exact queuedFits_none _
  · intro post member restart
    generalize effect.posts = posts at posted member
    cases posted with
    | none => cases member
    | one own other => exact absurd restart (mem_singleton.mp member ▸ other)

variable {prepared : Prepared} {v : View} {kind : EventKind} {action : Action}

theorem storeTransition_fits {ev : SMEvent}
    (answer : prepared.result = transition prepared.current ev (smContext cfg turn prepared.row))
    (fits : QueuedFits prepared.current prepared.row.queuedAction) :
    QueuedFits prepared.result.newState (storeTransition prepared).queuedAction ∧
      (createsProcess prepared.result.side = true →
        (storeTransition prepared).queuedAction = .none) := by
  simp only [storeTransition, answer]
  exact ⟨queuedAfter_fits prepared.current ev (smContext cfg turn prepared.row) fits,
    queuedAfter_creates prepared.current ev (smContext cfg turn prepared.row) fits⟩

theorem started_fits {middle : TaskRow} {current : SMState} {restarted : Prop}
    (core : SameCore row middle) (fits : QueuedFits row.state row.queuedAction)
    (started : current = row.state ∨ restarted ∧ row.state = .running ∧ current = .idle) :
    QueuedFits current middle.queuedAction := by
  rw [core.queuedAction]
  rcases started with same | ⟨_, running, idle⟩
  · rw [same]
    exact fits
  · rw [running] at fits
    exact fits.elsewhere nofun nofun current

theorem Fits.quiet (queued : QueuedFits row.state row.queuedAction) :
    Fits ⟨row, []⟩ := ⟨queued, forall_mem_nil _⟩

theorem Fits.of_core (queued : QueuedFits row.state row.queuedAction)
    (core : SameCore row after) : QueuedFits after.state after.queuedAction := by
  rw [core.state, core.queuedAction]
  exact queued

theorem handleTaskEvent_fits (cfg : Config) (turn : Turn) (task : String) (kind : EventKind)
    (body : EventBody) (queued : QueuedFits row.state row.queuedAction) :
    Fits (.after [] (handleTaskEvent cfg turn task kind body row)) := by
  have plan := planTurn_cases cfg turn kind body row
  unfold handleTaskEvent
  generalize planTurn cfg turn kind body row = planned at plan ⊢
  have departs : ∀ {middle : TaskRow} (state : SMState), SameCore row middle →
      row.state = .running → QueuedFits state middle.queuedAction := by
    intro middle state core running
    rw [running] at queued
    rw [core.queuedAction]
    exact queued.elsewhere nofun nofun state
  cases plan with
  | gated core _ | stale core _ | orphaned core _ | deferred core _ | unmatched core _ _ _ =>
    exact .quiet (Fits.of_core queued core)
  | idled core _ _ running =>
    have idle := departs .idle core running
    exact .quiet idle
  | refused core _ _ running =>
    have backoff := departs .backoffWaiting core running
    exact .quiet backoff
  | moves core _ _ _ started answer _ =>
    have current := started_fits core queued
      (started.imp id (fun ⟨restart, _, rest⟩ => ⟨restart, rest⟩))
    obtain ⟨fits, creates⟩ := storeTransition_fits answer current
    exact executeSideEffect_fits cfg turn task _ _ _ _ _ rfl fits creates

theorem applyStopTarget_fits (cfg : Config) (turn : Turn) (task : String) (d : SupervisorDaemon)
    (queued : QueuedFits row.state row.queuedAction) :
    Fits (.after [] (applyStopTarget cfg turn task d row)) := by
  obtain ⟨core, posts⟩ := applyStopTarget_cases cfg turn task d row
  have effect : Fits ⟨(applyAuthoritativeStopTransition cfg turn task d row).row,
      (applyAuthoritativeStopTransition cfg turn task d row).posts⟩ := by
    have quiet := stopped_intentUpdate_spawns_nothing row.state
      (stopContext cfg turn.answers.now row) rfl
    have next := stopped_intentUpdate_newState row.state (stopContext cfg turn.answers.now row) rfl
    have queues := newState_of_setQueuedStop row.state .intentUpdate
      (stopContext cfg turn.answers.now row)
    unfold applyAuthoritativeStopTransition
    dsimp only
    generalize transition row.state .intentUpdate (stopContext cfg turn.answers.now row) = result
      at quiet next queues ⊢
    have stored : QueuedFits result.newState (storeAuthoritativeStop row result).queuedAction := by
      unfold storeAuthoritativeStop
      rw [contains_queuedStop]
      dsimp only
      split_ifs with stops
      · rw [queues (of_decide_eq_true stops)]
        exact ⟨fun _ => rfl, nofun⟩
      · constructor
        · intro stop
          rw [next, queued.1 stop]
        · intro respawn
          rw [next, queued.2 respawn]
    split_ifs
    · exact .quiet queued
    · exact .quiet stored
    · have silent : createsProcess result.side = true →
          (storeAuthoritativeStop row result).queuedAction = .none := by
        intro creates
        rw [quiet] at creates
        cases creates
      exact executeSideEffect_fits cfg turn task d result.side result.newState .intentUpdate
        (storeAuthoritativeStop row result) rfl stored silent
  unfold View.after
  rw [posts]
  exact ⟨Fits.of_core effect.queued core, effect.gated⟩

theorem hydrateSMState_fits (fits : Fits v) : Fits { v with row := hydrateSMState v.row } := by
  unfold hydrateSMState
  split
  · exact fits
  next missing =>
    refine ⟨?_, fits.gated⟩
    have idle : v.row.state = .idle := by
      unfold TaskRow.state
      rw [missing]
      rfl
    have queued := fits.queued
    rw [idle] at queued
    exact queued.elsewhere nofun nofun _

theorem taskStep_fits (cfg : Config) (task : String) (v : View) (label : Label) (next : View)
    (fits : Fits v) (moved : taskStep cfg task v label = some next) : Fits next := by
  cases taskStep_cases moved with
  | @selfTurn turn ev rest queue =>
    have turned := handleTaskEvent_fits cfg turn task ev.kind ev.body fits.queued
    refine ⟨turned.queued, forall_mem_append.mpr ⟨?_, turned.gated⟩⟩
    exact fun other later => fits.gated other (queue ▸ List.Mem.tail ev later)
  | @post ev body turn => exact handleTaskEvent_fits cfg turn task (.sm ev) body fits.queued
  | @exit _ _ _ turn _ children =>
    have queued : QueuedFits ({ v.row with children := children } : TaskRow).state
        v.row.queuedAction := fits.queued
    exact handleTaskEvent_fits cfg turn task .ownedChildWaitExit _ queued
  | paroled =>
    refine ⟨fits.queued, ?_⟩
    intro ev member _
    obtain rfl := mem_singleton.mp member
    rfl
  | @stop _ d turn _ receipt =>
    have queued : QueuedFits ({ v.row with receipt := receipt } : TaskRow).state
        v.row.queuedAction := fits.queued
    exact applyStopTarget_fits cfg turn task d queued
  | child | aside => exact ⟨fits.queued, fits.gated⟩
  | hydrate => exact hydrateSMState_fits fits

theorem booted_fits (booted : Booted row) : Fits ⟨row, []⟩ := by
  refine .quiet ?_
  rw [booted.queued]
  exact queuedFits_none _

theorem reachable_fits
    (reached : Reachable Initial (step cfg) always w) (task : String) : Fits (view task w) :=
  view_invariant (fun _ booted => booted_fits booted) (taskStep_fits cfg task) reached

structure Quelled (base : List SideEffect) (row : TaskRow) : Prop where
  noRespawn : row.queuedAction ≠ .respawn
  silent : ∃ later, row.transitions = base ++ later ∧ ∀ side ∈ later, createsProcess side = false

theorem Quelled.of_same (quelled : Quelled base row)
    (queued : after.queuedAction = row.queuedAction)
    (transitions : after.transitions = row.transitions) : Quelled base after := by
  refine ⟨queued.symm ▸ quelled.noRespawn, ?_⟩
  rw [transitions]
  exact quelled.silent

theorem Quelled.record {side : SideEffect}
    (quelled : Quelled base row) (noRespawn : after.queuedAction ≠ .respawn)
    (recorded : after.transitions = row.transitions ++ [side])
    (quiet : createsProcess side = false) : Quelled base after := by
  obtain ⟨later, same, silent⟩ := quelled.silent
  refine ⟨noRespawn, later ++ [side], ?_, ?_⟩
  · rw [recorded, same, append_assoc]
  · exact forall_mem_append.mpr ⟨silent, forall_mem_singleton.mpr quiet⟩

theorem handleTaskEvent_quelled (task : String) (quelled : Quelled base row)
    (active : turn.intent.isActiveStop turn.answers.now = true)
    (gated : kind.smEvent = .manualRestart → body.requireRunningIntent = true) :
    Quelled base (handleTaskEvent cfg turn task kind body row).1 := by
  have plan := planTurn_cases cfg turn kind body row
  unfold handleTaskEvent
  generalize planTurn cfg turn kind body row = planned at plan ⊢
  cases plan with
  | gated core _ | stale core _ | orphaned core _ | deferred core _ | unmatched core _ _ _ =>
    exact quelled.of_same core.queuedAction core.transitions
  | idled core _ _ _ | refused core _ _ _ =>
    have kept := quelled.of_same core.queuedAction core.transitions
    exact ⟨kept.noRespawn, kept.silent⟩
  | @moves prepared core _ ungated _ _ answer _ =>
    have noRestart : kind.smEvent ≠ .manualRestart := by
      intro restart
      exact ungated ⟨restart, gated restart, DaemonIntent.suppresses_of_activeStop active⟩
    have stopped : (smContext cfg turn prepared.row).intentDesired = .stopped :=
      DaemonIntent.effectiveDesired_of_activeStop active
    have noRespawn : (smContext cfg turn prepared.row).queuedAction ≠ .respawn := by
      intro respawn
      exact quelled.noRespawn (core.queuedAction ▸ respawn)
    have quiet := (stopped_spawns_nothing prepared.current kind.smEvent _ stopped noRestart
      noRespawn).1
    have kept := queuedAfter_stopped prepared.current kind.smEvent _ stopped noRestart noRespawn
    rw [← answer] at quiet kept
    obtain ⟨queuedFrame, recordFrame, _⟩ := (executeSideEffect_spec cfg turn task
      prepared.descriptor prepared.result.side prepared.result.newState kind.smEvent
      (storeTransition prepared)).1
    refine quelled.record ?_ (recordFrame.trans ?_) quiet
    · rw [queuedFrame]
      exact kept
    · exact congrArg (· ++ [prepared.result.side]) core.transitions

theorem applyStopTarget_quelled (cfg : Config) (turn : Turn) (task : String)
    (d : SupervisorDaemon) (quelled : Quelled base row) :
    Quelled base (applyStopTarget cfg turn task d row).1 := by
  obtain ⟨core, _⟩ := applyStopTarget_cases cfg turn task d row
  suffices effect : Quelled base (applyAuthoritativeStopTransition cfg turn task d row).row by
    exact effect.of_same core.queuedAction core.transitions
  have quiet := stopped_intentUpdate_spawns_nothing row.state
    (stopContext cfg turn.answers.now row) rfl
  unfold applyAuthoritativeStopTransition
  dsimp only
  generalize transition row.state .intentUpdate (stopContext cfg turn.answers.now row) = result
    at quiet ⊢
  have noRespawn : (storeAuthoritativeStop row result).queuedAction ≠ .respawn := by
    unfold storeAuthoritativeStop
    dsimp only
    split_ifs
    · nofun
    · exact quelled.noRespawn
  have stored : Quelled base (storeAuthoritativeStop row result) :=
    quelled.record noRespawn rfl quiet
  split_ifs
  · exact quelled
  · exact stored
  · obtain ⟨queued, recorded⟩ := (executeSideEffect_spec cfg turn task d result.side
      result.newState .intentUpdate (storeAuthoritativeStop row result)).1
    exact stored.of_same queued recorded

/-- The stop directive is active at the turn, and the turn is no operator's restart. -/
def StopHolds (label : Label) : Prop :=
  match label with
  | .selfTurn turn | .deliverExit _ _ _ turn => turn.intent.isActiveStop turn.answers.now = true
  | .post ev body turn =>
    turn.intent.isActiveStop turn.answers.now = true ∧
      (ev = .manualRestart → body.requireRunningIntent = true)
  | _ => True

instance : DecidablePred StopHolds := by
  intro label
  cases label <;> unfold StopHolds <;> infer_instance

theorem taskStep_quelled (cfg : Config) (task : String) (base : List SideEffect) (v : View)
    (label : Label) (next : View) (holds : Fits v ∧ Quelled base v.row) (stop : StopHolds label)
    (moved : taskStep cfg task v label = some next) : Fits next ∧ Quelled base next.row := by
  obtain ⟨fits, quelled⟩ := holds
  refine ⟨taskStep_fits cfg task v label next fits moved, ?_⟩
  cases taskStep_cases moved with
  | selfTurn queue =>
    exact handleTaskEvent_quelled task quelled stop (fits.gated _ (queue ▸ List.Mem.head _))
  | post => exact handleTaskEvent_quelled task quelled stop.1 stop.2
  | @exit _ _ _ _ _ children =>
    have kept : Quelled base { v.row with children := children } := quelled.of_same rfl rfl
    exact handleTaskEvent_quelled task kept stop nofun
  | @stop _ d turn => exact applyStopTarget_quelled cfg turn task d (quelled.of_same rfl rfl)
  | paroled | child | aside => exact quelled.of_same rfl rfl
  | hydrate =>
    unfold hydrateSMState
    split
    · exact quelled
    · exact quelled.of_same rfl rfl

/-- The step handles an `EvIntentUpdate` of the task under a stopped intent. -/
def HandlesStop (cfg : Config) (w : World) (action : Action) (task : String) : Prop :=
  ∃ label ∈ labelsOf cfg w action task, ∃ turn body row prepared,
    turnEvent (view task w) label = some (turn, .sm .intentUpdate, body, row) ∧
      turn.intent.effectiveDesired = .stopped ∧
      planTurn cfg turn (.sm .intentUpdate) body row = .moves prepared

def AppliesBatchStop (cfg : Config) (w : World) (action : Action) (task : String) : Prop :=
  ∃ d turn, .applyStop d turn ∈ labelsOf cfg w action task

theorem handledStop_noRespawn (task : String) (queued : QueuedFits row.state row.queuedAction)
    (stopped : turn.intent.effectiveDesired = .stopped)
    (planned : planTurn cfg turn (.sm .intentUpdate) body row = .moves prepared) :
    (handleTaskEvent cfg turn task (.sm .intentUpdate) body row).1.queuedAction ≠ .respawn := by
  have plan := planTurn_cases cfg turn (.sm .intentUpdate) body row
  unfold handleTaskEvent
  rw [planned] at plan ⊢
  cases plan with
  | moves core _ _ _ started answer _ =>
    have fits : QueuedFits prepared.current (smContext cfg turn prepared.row).queuedAction :=
      started_fits core queued (started.imp id (fun ⟨restart, _, rest⟩ => ⟨restart, rest⟩))
    have kept := queuedAfter_stop prepared.current (smContext cfg turn prepared.row) stopped fits
    obtain ⟨queuedFrame, _⟩ := (executeSideEffect_spec cfg turn task prepared.descriptor
      prepared.result.side prepared.result.newState .intentUpdate (storeTransition prepared)).1
    dsimp only [EventKind.smEvent] at answer ⊢
    rw [queuedFrame]
    rw [← answer] at kept
    exact kept

theorem turnEvent_row {next : View} {label : Label}
    (event : turnEvent v label = some (turn, kind, body, row))
    (moved : taskStep cfg task v label = some next) :
    next.row = (handleTaskEvent cfg turn task kind body row).1 ∧ row.smState = v.row.smState ∧
      row.queuedAction = v.row.queuedAction := by
  cases label with
  | selfTurn selfTurn =>
    simp only [taskStep, turnEvent] at moved event
    cases pending : v.pending with
    | nil =>
      rw [pending] at moved
      cases moved
    | cons ev rest =>
      rw [pending] at moved event
      cases event
      cases moved
      exact ⟨rfl, rfl, rfl⟩
  | post ev postBody postTurn =>
    simp only [taskStep] at moved
    split_ifs at moved
    cases event
    cases moved
    exact ⟨rfl, rfl, rfl⟩
  | deliverExit gen exitCode cleanExit exitTurn =>
    simp only [taskStep] at moved
    simp only [turnEvent] at event
    split_ifs at moved
    split at moved
    case h_2 => cases moved
    next child children waited advanced =>
      simp only [waited, advanced] at event
      cases event
      cases moved
      exact ⟨rfl, rfl, rfl⟩
  | _ => cases event

theorem batchStop_labels
    {d : SupervisorDaemon} (applied : .applyStop d turn ∈ labelsOf cfg w action task) :
    ∃ receipt, labelsOf cfg w action task = [.beginReceipt receipt, .applyStop d turn] := by
  cases action with
  | stopBatch command now write answers =>
    simp only [labelsOf, stopBatchLabels] at applied ⊢
    split at applied
    next file selected _ =>
      split_ifs at applied ⊢ with member
      · cases found : file.findSupervisorDaemonByTaskName task with
        | none => simp [found] at applied
        | some descriptor =>
          simp only [found, mem_cons, reduceCtorEq, not_mem_nil, or_false,
            false_or] at applied ⊢
          exact ⟨_, by rw [applied]⟩
      · cases applied
    · cases applied
  | selfTurn answers =>
    simp only [labelsOf] at applied
    split at applied
    · cases applied
    · split_ifs at applied <;> simp at applied
  | _ =>
    simp only [labelsOf] at applied
    first
      | cases applied
      | (split_ifs at applied <;> simp at applied)

theorem stop_quells {stopped : World}
    (fits : Fits (view task w))
    (applied : HandlesStop cfg w action task ∨ AppliesBatchStop cfg w action task)
    (cleared : AppliesBatchStop cfg w action task →
      ¬((w.rows task).state = .exiting ∧ (w.rows task).queuedAction = .respawn))
    (moved : step cfg w action = some stopped) :
    (stopped.rows task).queuedAction ≠ .respawn := by
  have turns := step_view moved task
  rcases applied with handled | batch
  · obtain ⟨label, listed, turn, body, row, prepared, event, stop, planned⟩ := handled
    have alone : labelsOf cfg w action task = [label] := by
      rcases labelsOf_shape cfg w action task with short | batched
      · have present := length_pos_of_mem listed
        obtain ⟨only, same⟩ := length_eq_one_iff.mp (Nat.le_antisymm short present)
        rw [same] at listed
        rw [same, mem_singleton.mp listed]
      · rw [turnEvent_of_batch (batched label listed)] at event
        cases event
    rw [alone] at turns
    obtain ⟨after, turned, ended⟩ := Option.bind_eq_some_iff.mp turns
    obtain rfl : after = view task stopped := Option.some.inj ended
    obtain ⟨sameRow, sameState, sameQueued⟩ := turnEvent_row event turned
    have queued : QueuedFits row.state row.queuedAction := by
      unfold TaskRow.state
      rw [sameState, sameQueued]
      exact fits.queued
    have settled := handledStop_noRespawn task queued stop planned
    rw [← sameRow] at settled
    exact settled
  · have open_ := cleared batch
    obtain ⟨d, turn, listed⟩ := batch
    obtain ⟨receipt, labels⟩ := batchStop_labels listed
    have noRespawn : (w.rows task).queuedAction ≠ .respawn :=
      fun respawn => open_ ⟨fits.queued.2 respawn, respawn⟩
    have quelled : Quelled (w.rows task).transitions (w.rows task) :=
      ⟨noRespawn, [], (append_nil _).symm, nofun⟩
    rw [labels] at turns
    have batched : ∀ label ∈ [Label.beginReceipt receipt, .applyStop d turn],
        ∀ before : View, StopHolds label := by
      intro label member _
      simp only [mem_cons, not_mem_nil, or_false] at member
      rcases member with rfl | rfl <;> trivial
    have kept := exec_invariant_of_met (taskStep_quelled cfg task (w.rows task).transitions)
      batched turns ⟨fits, quelled⟩
    exact kept.2.noRespawn

/-- The stop directive is active at each turn on the task in the step, and none is an operator's
restart. -/
def StaysStopped (cfg : Config) (task : String) (w : World) (action : Action) : Prop :=
  ∀ label ∈ labelsOf cfg w action task, StopHolds label
  deriving Decidable

/-- A stop that found no respawn queued behind an exiting process is final: while the directive
stays active and no operator restarts the task, no transition asks for a process. -/
theorem stop_is_final {cfg : Config} {task : String} {w stopped last : World} {action : Action}
    {actions : List Action} (reached : Reachable Initial (step cfg) always w)
    (applied : HandlesStop cfg w action task ∨ AppliesBatchStop cfg w action task)
    (cleared : AppliesBatchStop cfg w action task →
      ¬((w.rows task).state = .exiting ∧ (w.rows task).queuedAction = .respawn))
    (moved : step cfg w action = some stopped)
    (run : Run (step cfg) (StaysStopped cfg task) stopped actions last) :
    ∃ later, (last.rows task).transitions = (stopped.rows task).transitions ++ later ∧
      ∀ side ∈ later, createsProcess side = false := by
  have fits := reachable_fits reached task
  have stoppedFits : Fits (view task stopped) :=
    reachable_fits (reached.extend (.snoc .nil trivial moved)) task
  have noRespawn := stop_quells fits applied cleared moved
  have start : Fits (view task stopped) ∧
      Quelled (stopped.rows task).transitions (view task stopped).row :=
    ⟨stoppedFits, noRespawn, [], (append_nil _).symm, nofun⟩
  have preserve : ∀ before next' after,
      (Fits (view task before) ∧ Quelled (stopped.rows task).transitions (view task before).row) →
      StaysStopped cfg task before next' → step cfg before next' = some after →
      Fits (view task after) ∧ Quelled (stopped.rows task).transitions (view task after).row := by
    intro before next' after holds stays stepped
    exact exec_invariant_of_met (taskStep_quelled cfg task (stopped.rows task).transitions)
      (fun label member _ => stays label member) (step_view stepped task) holds
  exact (run.invariant preserve start).2.silent

def memoryStops : List (String × DaemonIntent) := [("\\memory", ⟨.stopped, .userDisabled, 0⟩)]

def stopMemory : StopBatchCommand where
  protocolVersion := 1
  batchID := "batch"
  targets := [⟨"\\memory", 9101⟩]
  intentGeneration := 2
  supervisorIntent := some ⟨2, [memoryDaemon], memoryStops⟩
  unifiedStops := some memoryStops

def stopMemoryTurn : Turn :=
  ⟨some memoryDaemon, ⟨.stopped, .userDisabled, 0⟩, false, false, obliging .preChild⟩

def stopAndExit : Action × List Action :=
  (.stopBatch stopMemory 0 .ok (fun _ => obliging .preChild),
    [.childWaited "\\memory" 1, .deliverExit "memory" 1 1 false (obliging (.started 42 2))])

/-- The batch is applied to the daemon, the daemon exits, and the transitions after the batch are
the given ones. -/
def stopsThenRecords (later : List SideEffect) (w : World) : Prop :=
  .applyStop memoryDaemon stopMemoryTurn ∈ labelsOf wiredConfig w stopAndExit.1 "\\memory" ∧
    (step wiredConfig w stopAndExit.1).any (fun stopped =>
      (execUnder (step wiredConfig) (StaysStopped wiredConfig "\\memory") stopped
        stopAndExit.2).any (fun last =>
          decide ((last.rows "\\memory").transitions =
            (stopped.rows "\\memory").transitions ++ later))) = true
  deriving Decidable

theorem stopsThenRecords_run {later : List SideEffect} (records : stopsThenRecords later w) :
    AppliesBatchStop wiredConfig w stopAndExit.1 "\\memory" ∧
      ∃ stopped last, step wiredConfig w stopAndExit.1 = some stopped ∧
        Run (step wiredConfig) (StaysStopped wiredConfig "\\memory") stopped stopAndExit.2 last ∧
        (last.rows "\\memory").transitions = (stopped.rows "\\memory").transitions ++ later := by
  obtain ⟨applied, checked⟩ := records
  obtain ⟨stopped, moved, rest⟩ := (Option.any_eq_true _ _).mp checked
  obtain ⟨last, ran, same⟩ := (Option.any_eq_true _ _).mp rest
  exact ⟨⟨_, _, applied⟩, stopped, last, moved, run_of_execUnder ran, of_decide_eq_true same⟩

theorem stop_is_final_running :
    ∃ w stopped last, Reachable Initial (step wiredConfig) always w ∧
      step wiredConfig w stopAndExit.1 = some stopped ∧
      Run (step wiredConfig) (StaysStopped wiredConfig "\\memory") stopped stopAndExit.2 last ∧
      ∃ later, (last.rows "\\memory").transitions =
          (stopped.rows "\\memory").transitions ++ later ∧
        ∀ side ∈ later, createsProcess side = false := by
  obtain ⟨w, reached, running, records⟩ := exists_reachable (step wiredConfig)
    (coldStart memoryFile [])
    [.post .start "memory" {} (obliging (.started 41 1)), .selfTurn (obliging .preChild)]
    (P := fun w => (w.rows "\\memory").state = .running ∧ stopsThenRecords [.none] w)
    (coldStart_initial memoryFile []) (by decide +kernel)
  obtain ⟨applied, stopped, last, moved, ran, _⟩ := stopsThenRecords_run records
  refine ⟨w, stopped, last, reached, moved, ran,
    stop_is_final reached (.inr applied) (fun _ behind => ?_) moved ran⟩
  rw [running] at behind
  cases behind.1

/-- A batch leaves the respawn that is queued for an exiting daemon, and the exit asks for a new
process. -/
theorem stop_forgets_queued_respawn :
    ¬∀ (w stopped last : World) (action : Action) (actions : List Action),
      Reachable Initial (step wiredConfig) always w →
      (HandlesStop wiredConfig w action "\\memory" ∨
        AppliesBatchStop wiredConfig w action "\\memory") →
      step wiredConfig w action = some stopped →
      Run (step wiredConfig) (StaysStopped wiredConfig "\\memory") stopped actions last →
      ∃ later, (last.rows "\\memory").transitions =
          (stopped.rows "\\memory").transitions ++ later ∧
        ∀ side ∈ later, createsProcess side = false := by
  intro claimed
  obtain ⟨w, reached, records⟩ := exists_reachable (step wiredConfig) (coldStart memoryFile [])
    [.post .start "memory" {} (obliging (.started 41 1)), .selfTurn (obliging .preChild),
      .post .manualRestart "memory" {} (obliging .preChild)]
    (P := stopsThenRecords [.spawn]) (coldStart_initial memoryFile []) (by decide +kernel)
  obtain ⟨applied, stopped, last, moved, ran, recorded⟩ := stopsThenRecords_run records
  obtain ⟨later, same, silent⟩ := claimed w stopped last _ _ reached (.inr applied) moved ran
  rw [recorded] at same
  obtain rfl := append_cancel_left same
  have quiet := silent .spawn (.head _)
  cases quiet

end McpLocalHub.Supervisor.StopFinality
