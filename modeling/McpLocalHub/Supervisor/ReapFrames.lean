/- Module: Supervisor/ReapFrames
   source: internal/cli/supervisor_controller.go, internal/cli/supervise_stop_batch.go
   digest: What the handlers do to a task's reap mark, and which of them touch its daemon. -/

import McpLocalHub.Supervisor.Reap
import McpLocalHub.Supervisor.TaskView

set_option autoImplicit false

namespace McpLocalHub.Supervisor.ReapFrames

open Foundation.Runs StateMachine Intents RuntimeTracker Controller StopBatch Lifecycle TaskView Reap

def Kept (before after : TaskRow) : Prop :=
  after.pendingReap = none ∨
    after.pendingReap = before.pendingReap ∧ after.reapGeneration = before.reapGeneration

theorem Kept.refl (row : TaskRow) : Kept row row := .inr ⟨rfl, rfl⟩

variable {row middle after : TaskRow} {task : String} {w : World}

theorem Kept.trans (left : Kept row middle) (right : Kept middle after) : Kept row after := by
  rcases right with gone | ⟨mark, generation⟩
  · exact .inl gone
  · rcases left with goneBefore | ⟨markBefore, generationBefore⟩
    · exact .inl (mark.trans goneBefore)
    · exact .inr ⟨mark.trans markBefore, generation.trans generationBefore⟩

def Driven (before after : TaskRow) : Prop :=
  after.transitions ≠ before.transitions ∨ after.children ≠ before.children ∨
    after.queuedAction = .stop ∧ before.queuedAction ≠ .stop
  deriving Decidable

structure Quiet (before after : TaskRow) : Prop where
  transitions : after.transitions = before.transitions
  children : after.children = before.children
  queued : after.queuedAction = .stop → before.queuedAction = .stop

theorem Quiet.refl (row : TaskRow) : Quiet row row := ⟨rfl, rfl, id⟩

theorem Quiet.trans (left : Quiet row middle) (right : Quiet middle after) : Quiet row after :=
  ⟨right.transitions.trans left.transitions, right.children.trans left.children,
    fun stop => left.queued (right.queued stop)⟩

theorem Quiet.not_driven (quiet : Quiet row after) : ¬Driven row after := by
  rintro (moved | touched | ⟨stop, free⟩)
  · exact moved quiet.transitions
  · exact touched quiet.children
  · exact free (quiet.queued stop)

theorem Driven.of_quiet (driven : Driven row after)
    (quiet : Quiet row middle) : Driven middle after := by
  rcases driven with moved | touched | ⟨stop, free⟩
  · exact .inl (quiet.transitions ▸ moved)
  · exact .inr (.inl (quiet.children ▸ touched))
  · exact .inr (.inr ⟨stop, fun before => free (quiet.queued before)⟩)

theorem quiet_armReapFollowup (row : TaskRow) : Quiet row (armReapFollowup row) := by
  unfold armReapFollowup
  dsimp only
  split_ifs
  · exact .refl row
  · exact ⟨rfl, rfl, id⟩

theorem kept_armReapFollowup (row : TaskRow) : Kept row (armReapFollowup row) := by
  unfold armReapFollowup
  dsimp only
  split_ifs
  · exact .refl row
  · exact .inr ⟨rfl, rfl⟩

theorem quiet_clear (row : TaskRow) : Quiet row (clearRemovedTaskRuntime row) :=
  ⟨rfl, rfl, nofun⟩

theorem kept_clear (row : TaskRow) : Kept row (clearRemovedTaskRuntime row) := .inl rfl

theorem quiet_markPendingReap (d : SupervisorDaemon) (row : TaskRow) :
    Quiet row (markPendingReap d row) :=
  (⟨rfl, rfl, id⟩ : Quiet row (disarmReapFollowup (bumpReapGeneration
    { row with pendingReap := some d, reapShadow := some d }))).trans (quiet_armReapFollowup _)

theorem markPendingReap_spec (d : SupervisorDaemon) (row : TaskRow) :
    (markPendingReap d row).pendingReap = some d ∧
      (markPendingReap d row).reapGeneration = some (row.reapGeneration.getD 0 + 1) := by
  simp [markPendingReap, armReapFollowup, disarmReapFollowup, bumpReapGeneration]

section

variable (task : String) (intent : DaemonIntent) (now : Int) (row : TaskRow)

theorem pendingReap_reappear : (reappear task intent now row).1.pendingReap = none := rfl

theorem reappear_form :
    ∃ action deferred posts, reappear task intent now row =
        (cancelPendingReap { row with
          queuedAction := action, reapDeferredStop := deferred, reapDeferredTimerDue := false }, posts) ∧
      (action = .stop → row.queuedAction = .stop) ∧
      (row.reapDeferredTimerDue = true → ⟨.sm .timerDue, task, {}⟩ ∈ posts) := by
  obtain ⟨action, posts, queued, stops⟩ : ∃ action posts,
      queueRespawnOnReapCancelIfNeeded task intent now row =
        ({ row with queuedAction := action }, posts) ∧
      (action = .stop → row.queuedAction = .stop) := by
    unfold queueRespawnOnReapCancelIfNeeded
    split
    · split_ifs
      · exact ⟨row.queuedAction, _, rfl, id⟩
      · exact ⟨_, _, rfl, nofun⟩
    · split_ifs <;> exact ⟨row.queuedAction, _, rfl, id⟩
    · exact ⟨row.queuedAction, _, rfl, id⟩
  have cleared (middle : TaskRow) : ∃ action deferred,
      clearReapDeferredStopIfPending intent now middle =
        { middle with queuedAction := action, reapDeferredStop := deferred } ∧
      (action = .stop → middle.queuedAction = .stop) := by
    unfold clearReapDeferredStopIfPending
    split_ifs
    · exact ⟨_, _, rfl, nofun⟩
    · exact ⟨middle.queuedAction, _, rfl, id⟩
    · exact ⟨middle.queuedAction, middle.reapDeferredStop, rfl, id⟩
  unfold reappear replayDeferredBackoffTimerIfPending
  dsimp only
  rw [queued]
  split_ifs with noted
  · obtain ⟨action', deferred, same, still⟩ :=
      cleared { row with queuedAction := action, reapDeferredTimerDue := false }
    rw [same]
    exact ⟨_, _, _, rfl, stops ∘ still, fun _ => List.mem_append_right _ (.head _)⟩
  · obtain ⟨action', deferred, same, still⟩ := cleared { row with queuedAction := action }
    rw [same, ← Bool.eq_false_iff.mpr noted]
    exact ⟨_, _, _, rfl, stops ∘ still, fun was => absurd was noted⟩

theorem quiet_reappear : Quiet row (reappear task intent now row).1 := by
  obtain ⟨_, _, _, same, stops, -⟩ := reappear_form task intent now row
  rw [same]
  exact ⟨rfl, rfl, stops⟩

end

theorem kept_reapRemovedDaemon (cfg : Config) (turn : Turn) (task : String) (d : SupervisorDaemon)
    (row : TaskRow) : Kept row (reapRemovedDaemon cfg turn task d row).row := by
  have classified (current newState : SMState) (effect : Effect)
      (frame : effect.row.pendingReap = row.pendingReap ∧
        effect.row.reapGeneration = row.reapGeneration) :
      Kept row (classifyReap current newState effect).row := by
    unfold classifyReap
    split
    · split_ifs <;> exact .inr frame
    · exact .inr frame
    · exact .inr frame
  unfold reapRemovedDaemon
  split
  · exact .refl row
  · exact .inr ⟨rfl, rfl⟩
  · dsimp only
    split_ifs
    · exact .refl row
    · exact .refl row
    · exact classified _ _ _ (executeSideEffect_spec cfg turn task d _ _ _ _).1.reap

theorem kept_settleReap (outcome : ReapOutcome) (row : TaskRow) :
    Kept row (settleReap outcome row) := by
  cases outcome with
  | terminatedDead => exact kept_clear row
  | deferred | terminateFailed => exact kept_armReapFollowup row

theorem reap_handleTaskEvent (cfg : Config) (turn : Turn) (task : String) (kind : EventKind)
    (body : EventBody) (row : TaskRow) :
    (handleTaskEvent cfg turn task kind body row).1.pendingReap = row.pendingReap ∧
      (handleTaskEvent cfg turn task kind body row).1.reapGeneration = row.reapGeneration := by
  unfold handleTaskEvent
  have plan := planTurn_cases cfg turn kind body row
  generalize planTurn cfg turn kind body row = planned at plan
  cases plan with
  | gated core | stale core | orphaned core | deferred core | idled core | refused core
  | unmatched core => exact core.reap
  | @moves prepared core =>
    have frame := (executeSideEffect_spec cfg turn task prepared.descriptor prepared.result.side
      prepared.result.newState kind.smEvent (storeTransition prepared)).1.reap
    exact ⟨frame.1.trans core.reap.1, frame.2.trans core.reap.2⟩

theorem reap_applyStopTarget (cfg : Config) (turn : Turn) (task : String) (d : SupervisorDaemon)
    (row : TaskRow) :
    (applyStopTarget cfg turn task d row).1.pendingReap = row.pendingReap ∧
      (applyStopTarget cfg turn task d row).1.reapGeneration = row.reapGeneration := by
  obtain ⟨core, _⟩ := applyStopTarget_cases cfg turn task d row
  have effect : (applyAuthoritativeStopTransition cfg turn task d row).row.pendingReap =
        row.pendingReap ∧
      (applyAuthoritativeStopTransition cfg turn task d row).row.reapGeneration =
        row.reapGeneration := by
    unfold applyAuthoritativeStopTransition
    dsimp only
    split_ifs
    · exact ⟨rfl, rfl⟩
    · exact ⟨rfl, rfl⟩
    · exact (executeSideEffect_spec cfg turn task d _ _ _ _).1.reap
  exact ⟨core.reap.1.trans effect.1, core.reap.2.trans effect.2⟩

theorem reap_taskStep {cfg : Config} {v after : View} {label : Label}
    (moved : taskStep cfg task v label = some after) :
    after.row.pendingReap = v.row.pendingReap ∧
      after.row.reapGeneration = v.row.reapGeneration := by
  cases taskStep_cases moved with
  | selfTurn | post | exit => exact reap_handleTaskEvent ..
  | stop => exact reap_applyStopTarget ..
  | paroled | child | aside => exact ⟨rfl, rfl⟩
  | hydrate =>
    unfold hydrateSMState
    split <;> exact ⟨rfl, rfl⟩

theorem reap_step {cfg : Config} {after : World} {action : Action}
    (moved : Lifecycle.step cfg w action = some after) (task : String) :
    Kept (w.rows task) (after.rows task) := by
  let inv (v : View) : Prop := Kept (w.rows task) v.row
  have preserve : ∀ v label next, inv v → taskStep cfg task v label = some next → inv next := by
    intro v label next holds stepped
    exact Kept.trans holds (.inr (reap_taskStep stepped))
  exact exec_invariant preserve (step_view moved task) (Kept.refl (w.rows task))

structure Stage (before after : World) : Prop where
  kept : ∀ task, Kept (before.rows task) (after.rows task)
  quiet : ∀ task, Quiet (before.rows task) (after.rows task)

theorem Stage.refl (w : World) : Stage w w := ⟨fun _ => .refl _, fun _ => .refl _⟩

theorem Stage.trans {middle after : World} (left : Stage w middle) (right : Stage middle after) :
    Stage w after :=
  ⟨fun task => (left.kept task).trans (right.kept task),
    fun task => (left.quiet task).trans (right.quiet task)⟩

theorem rows_setRow (w : World) (task other : String) (row : TaskRow) :
    (w.setRow task row).rows other = if other = task then row else w.rows other := by
  change Function.update w.rows task row other = _
  rw [Function.update_apply]

theorem rows_store (w : World) (task other : String) (result : TaskRow × List LoopEvent) :
    (w.store task result).rows other = if other = task then result.1 else w.rows other := by
  change Function.update w.rows task result.1 other = _
  rw [Function.update_apply]

theorem Stage.setRow (w : World) (kept : Kept (w.rows task) row)
    (quiet : Quiet (w.rows task) row) : Stage w (w.setRow task row) := by
  constructor
  · intro other
    rw [rows_setRow]
    split_ifs with same
    · exact same ▸ kept
    · exact .refl _
  · intro other
    rw [rows_setRow]
    split_ifs with same
    · exact same ▸ quiet
    · exact .refl _

theorem Stage.store (w : World) {result : TaskRow × List LoopEvent}
    (kept : Kept (w.rows task) result.1) (quiet : Quiet (w.rows task) result.1) :
    Stage w (w.store task result) :=
  ⟨(Stage.setRow w kept quiet).kept, (Stage.setRow w kept quiet).quiet⟩

theorem stage_installShadow (w : World) (entry : String × SupervisorDaemon) :
    Stage w (installShadow w entry) := by
  unfold installShadow
  split_ifs
  · exact .setRow w (.inr ⟨rfl, rfl⟩) ⟨rfl, rfl, id⟩
  · exact .refl w

theorem stage_shadows (w : World) (captured : List (String × SupervisorDaemon)) :
    Stage w (captured.foldl installShadow w) :=
  List.foldlRecOn captured installShadow (.refl w)
    (fun middle stage entry _ => stage.trans (stage_installShadow middle entry))

inductive PendingCase (next : List String) (now : Int) (acc : World × List SupervisorDaemon)
    (task : String) : World × List SupervisorDaemon → Prop
  | skipped (out : task = "" ∨ (acc.1.rows task).pendingReap = none) :
      PendingCase next now acc task acc
  | back (present : task ∈ next) :
      PendingCase next now acc task
        (acc.1.store task (reappear task (lookupStop acc.1.stops task) now (acc.1.rows task)), acc.2)
  | settled (absent : task ∉ next) :
      PendingCase next now acc task
        (acc.1.setRow task (clearRemovedTaskRuntime (acc.1.rows task)), acc.2)
  | collected {d : SupervisorDaemon} (pending : (acc.1.rows task).pendingReap = some d)
      (absent : task ∉ next) : PendingCase next now acc task (acc.1, acc.2 ++ [d])

theorem resolvePending_cases (next : List String) (now : Int)
    (acc : World × List SupervisorDaemon) (task : String) :
    PendingCase next now acc task (resolvePending next now acc task) := by
  unfold resolvePending
  by_cases unnamed : task = ""
  · rw [if_pos unnamed]
    exact .skipped (.inl unnamed)
  · rw [if_neg unnamed]
    cases pending : (acc.1.rows task).pendingReap with
    | none => exact .skipped (.inr pending)
    | some d =>
      split_ifs with present reapable
      · exact .back present
      · exact .settled present
      · exact .collected pending present

theorem stage_resolvePending (next : List String) (now : Int)
    (acc : World × List SupervisorDaemon) (task : String) :
    Stage acc.1 (resolvePending next now acc task).1 := by
  have cases := resolvePending_cases next now acc task
  generalize resolvePending next now acc task = after at cases
  cases cases with
  | skipped | collected => exact .refl _
  | back => exact .store acc.1 (.inl rfl) (quiet_reappear ..)
  | settled => exact .setRow acc.1 (kept_clear _) (quiet_clear _)

def Collected (w : World) (next : List String) (d : SupervisorDaemon) : Prop :=
  ∃ task, (w.rows task).pendingReap = some d ∧ task ∉ next

theorem collected_resolvePending {next : List String} {now : Int}
    {acc : World × List SupervisorDaemon} (stage : Stage w acc.1)
    (collected : ∀ d ∈ acc.2, Collected w next d) :
    ∀ d ∈ (resolvePending next now acc task).2, Collected w next d := by
  have cases := resolvePending_cases next now acc task
  generalize resolvePending next now acc task = after at cases
  cases cases with
  | skipped | back | settled => exact collected
  | collected pending absent =>
    intro other listed
    rcases List.mem_append.mp listed with before | last
    · exact collected other before
    · rw [List.mem_singleton.mp last]
      refine ⟨task, ?_, absent⟩
      rcases stage.kept task with gone | ⟨same, _⟩
      · rw [gone] at pending
        cases pending
      · rw [← same]
        exact pending

theorem arm1_spec (w : World) (next : List String) (now : Int) (order : List String) :
    Stage w (order.foldl (resolvePending next now) (w, [])).1 ∧
      ∀ d ∈ (order.foldl (resolvePending next now) (w, [])).2, Collected w next d := by
  let held (acc : World × List SupervisorDaemon) : Prop :=
    Stage w acc.1 ∧ ∀ d ∈ acc.2, Collected w next d
  have start : held (w, []) := by
    refine ⟨.refl w, ?_⟩
    exact nofun
  refine List.foldlRecOn (motive := held) order (resolvePending next now) start ?_
  rintro acc ⟨stage, collected⟩ task _
  exact ⟨stage.trans (stage_resolvePending next now acc task),
    collected_resolvePending stage collected⟩

theorem arm1_cancels {next : List String} (present : task ∈ next) (named : task ≠ "") (now : Int)
    {order : List String} (visited : task ∈ order) (acc : World × List SupervisorDaemon) :
    ((order.foldl (resolvePending next now) acc).1.rows task).pendingReap = none := by
  have stays (rest : List String) (acc : World × List SupervisorDaemon)
      (gone : (acc.1.rows task).pendingReap = none) :
      ((rest.foldl (resolvePending next now) acc).1.rows task).pendingReap = none := by
    refine List.foldlRecOn (motive := fun acc => (acc.1.rows task).pendingReap = none)
      rest (resolvePending next now) gone ?_
    intro middle goneThere other _
    rcases (stage_resolvePending next now middle other).kept task with none | ⟨same, _⟩
    · exact none
    · exact same.trans goneThere
  induction order generalizing acc with
  | nil => cases visited
  | cons head rest ih =>
    rw [List.foldl_cons]
    by_cases here : task = head
    · subst here
      apply stays
      have cases := resolvePending_cases next now acc task
      generalize resolvePending next now acc task = after at cases
      cases cases with
      | skipped out => exact out.resolve_left named
      | back =>
        rw [rows_store, if_pos rfl]
        exact pendingReap_reappear ..
      | settled absent | collected _ absent => exact absurd present absent
    · exact ih ((List.mem_cons.mp visited).resolve_left here) _

end McpLocalHub.Supervisor.ReapFrames
