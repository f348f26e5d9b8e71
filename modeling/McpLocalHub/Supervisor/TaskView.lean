/- Module: Supervisor/TaskView
   digest: The supervisor as one task sees it: its row, its pending self posts and its turns. -/

import McpLocalHub.Supervisor.Lifecycle

set_option autoImplicit false

namespace McpLocalHub.Supervisor.TaskView

open Foundation.Runs StateMachine Intents RuntimeTracker Controller StopBatch Lifecycle List

def pendingFor (task : String) (selfCh : List LoopEvent) : List LoopEvent :=
  selfCh.filter (fun ev => decide (canonicalSupervisorTaskName ev.taskName = task))

structure View where
  row : TaskRow
  pending : List LoopEvent

def view (task : String) (w : World) : View := ⟨w.rows task, pendingFor task w.selfCh⟩

inductive Label
  | selfTurn (turn : Turn)
  | post (ev : SMEvent) (body : EventBody) (turn : Turn)
  | deliverExit (generation : Nat) (exitCode : Int) (cleanExit : Bool) (turn : Turn)
  | parole (now : Int) (intent : DaemonIntent)
  | beginReceipt (receipt : Option StopSettlementReceipt)
  | applyStop (d : SupervisorDaemon) (turn : Turn)
  | dropStop (answers : Answers)
  | recover (turn : Turn)
  | dwell
  | childDies (generation : Nat)
  | childWaited (generation : Nat)
  | settle (change : SettlementChange)
  | clearGate
  | hydrate
  deriving DecidableEq

def View.after (pending : List LoopEvent) (result : TaskRow × List LoopEvent) : View :=
  ⟨result.1, pending ++ result.2⟩

/-- One turn on the task; everything but a self turn that runs on the loop finds nothing pending. -/
def taskStep (cfg : Config) (task : String) (v : View) (label : Label) : Option View :=
  match label with
  | .selfTurn turn =>
    match v.pending with
    | [] => none
    | ev :: rest => some (.after rest (handleTaskEvent cfg turn task ev.kind ev.body v.row))
  | .post ev body turn =>
    if v.pending = [] ∧ postable ev = true ∧ truthfulBody body v.row = true then
      some (.after [] (handleTaskEvent cfg turn task (.sm ev) body v.row))
    else none
  | .deliverExit generation exitCode cleanExit turn =>
    if v.pending = [] then
      match waitedChild generation v.row,
          advanceChild generation .waited .delivered v.row.children with
      | some child, some children =>
        some (.after [] (handleTaskEvent cfg turn task .ownedChildWaitExit
          (exitBody child exitCode cleanExit) { v.row with children := children }))
      | _, _ => none
    else none
  | .parole now intent =>
    if v.pending = [] then some (.after [] (paroleVisit now intent task v.row)) else none
  | .beginReceipt receipt => some { v with row := { v.row with receipt := receipt } }
  | .applyStop d turn =>
    if v.pending = [] then some (.after [] (applyStopTarget cfg turn task d v.row)) else none
  | .dropStop answers => some { v with row := failReceipt answers v.row }
  | .recover turn =>
    if v.pending = [] then some (.after [] (recoverStopReceiptOnLoop cfg turn task v.row))
    else none
  | .dwell => some { v with row := { v.row with failures := [], reallocations := [] } }
  | .childDies generation =>
    (advanceChild generation .alive .dead v.row.children).map
      (fun children => { v with row := { v.row with children := children } })
  | .childWaited generation =>
    (advanceChild generation .dead .waited v.row.children).map
      (fun children => { v with row := { v.row with
        children := children
        entry := (markExitedIfCurrent v.row.entry generation).1 } })
  | .settle change =>
    match v.row.receipt with
    | none => none
    | some receipt =>
      (settleReceipt change receipt).map
        (fun next => { v with row := { v.row with receipt := next } })
  | .clearGate => some { v with row := { v.row with gateCleared := true } }
  | .hydrate => some { v with row := hydrateSMState v.row }

inductive Stepped (cfg : Config) (task : String) (v : View) : Label → View → Prop
  | selfTurn {turn : Turn} {ev : LoopEvent} {rest : List LoopEvent} (queue : v.pending = ev :: rest) :
      Stepped cfg task v (.selfTurn turn)
        (.after rest (handleTaskEvent cfg turn task ev.kind ev.body v.row))
  | post {ev : SMEvent} {body : EventBody} {turn : Turn} (quiet : v.pending = [])
      (posted : postable ev = true) (truthful : truthfulBody body v.row = true) :
      Stepped cfg task v (.post ev body turn)
        (.after [] (handleTaskEvent cfg turn task (.sm ev) body v.row))
  | exit {gen : Nat} {exitCode : Int} {cleanExit : Bool} {turn : Turn} {child : Child}
      {children : List Child} (quiet : v.pending = []) (waited : waitedChild gen v.row = some child)
      (advanced : advanceChild gen .waited .delivered v.row.children = some children) :
      Stepped cfg task v (.deliverExit gen exitCode cleanExit turn)
        (.after [] (handleTaskEvent cfg turn task .ownedChildWaitExit
          (exitBody child exitCode cleanExit) { v.row with children := children }))
  | paroled {label : Label} {parole : Option ParoleEntry} (quiet : v.pending = []) :
      Stepped cfg task v label ⟨{ v.row with quarantineParole := parole },
        [{ kind := .sm .manualRestart, taskName := task, body := { requireRunningIntent := true } }]⟩
  | stop {label : Label} {d : SupervisorDaemon} {turn : Turn} (quiet : v.pending = [])
      (receipt : Option StopSettlementReceipt) : Stepped cfg task v label
        (.after [] (applyStopTarget cfg turn task d { v.row with receipt := receipt }))
  | child {label : Label} {gen : Nat} {before after : ChildPhase} {children : List Child}
      {entry : Option RuntimeEntry} (short : after = .dead ∨ after = .waited)
      (advanced : advanceChild gen before after v.row.children = some children)
      (same : generation entry = generation v.row.entry) : Stepped cfg task v label
        { v with row := { v.row with children := children, entry := entry } }
  | aside {label : Label} {parole : Option ParoleEntry} {failures reallocations : List Int}
      {receipt : Option StopSettlementReceipt} {gateCleared : Bool} : Stepped cfg task v label
        { v with row := { v.row with
          quarantineParole := parole, failures := failures, reallocations := reallocations
          receipt := receipt, gateCleared := gateCleared } }
  | hydrate : Stepped cfg task v .hydrate { v with row := hydrateSMState v.row }

variable {cfg : Config} {task : String} {v : View} {label : Label} {posts : List LoopEvent}
  {result : TaskRow × List LoopEvent} {inv : View → Prop}

theorem taskStep_cases {next : View}
    (moved : taskStep cfg task v label = some next) : Stepped cfg task v label next := by
  obtain ⟨row, pending⟩ := v
  cases label with
  | selfTurn turn =>
    simp only [taskStep] at moved
    split at moved
    · cases moved
    · cases moved
      exact .selfTurn rfl
  | post ev body turn =>
    simp only [taskStep] at moved
    split_ifs at moved with possible
    cases moved
    exact .post possible.1 possible.2.1 possible.2.2
  | deliverExit gen exitCode cleanExit turn =>
    simp only [taskStep] at moved
    split_ifs at moved with quiet
    split at moved
    next child children waited advanced =>
      cases moved
      exact .exit quiet waited advanced
    · cases moved
  | parole now intent =>
    simp only [taskStep] at moved
    split_ifs at moved with quiet
    cases moved
    subst quiet
    obtain ⟨parole, same | ⟨_, _, same⟩⟩ := paroleVisit_cases now intent task row
    · rw [same]
      exact .aside
    · rw [same]
      exact .paroled rfl
  | applyStop d turn =>
    simp only [taskStep] at moved
    split_ifs at moved with quiet
    cases moved
    exact .stop quiet row.receipt
  | recover turn =>
    simp only [taskStep] at moved
    split_ifs at moved with quiet
    cases moved
    subst quiet
    rcases recover_cases cfg turn task row with ⟨receipt, same⟩ | ⟨receipt, d, _, _, same⟩
    · rw [same]
      exact .aside
    · rw [same]
      exact .stop rfl receipt
  | dropStop answers =>
    cases moved
    unfold failReceipt
    split
    · exact .aside
    · split
      · split_ifs <;> exact .aside
      · exact .aside
  | childDies gen =>
    obtain ⟨children, advanced, rfl⟩ := Option.map_eq_some_iff.mp moved
    exact .child (.inl rfl) advanced rfl
  | childWaited gen =>
    obtain ⟨children, advanced, rfl⟩ := Option.map_eq_some_iff.mp moved
    exact .child (.inr rfl) advanced (generation_markExitedIfCurrent row.entry gen)
  | settle change =>
    simp only [taskStep] at moved
    split at moved
    · cases moved
    · obtain ⟨receipt, _, rfl⟩ := Option.map_eq_some_iff.mp moved
      exact .aside
  | beginReceipt receipt | dwell | clearGate =>
    cases moved
    exact .aside
  | hydrate =>
    cases moved
    exact .hydrate

def stopBatchLabels (cfg : Config) (w : World) (command : StopBatchCommand) (now : Int)
    (write : BatchWrite) (answers : String → Answers) (task : String) : List Label :=
  match admittedBatch cfg w command now, write with
  | some (file, selected), .ok =>
    if task ∈ command.targets.map StopBatchTarget.taskName then
      let begun := beginReceipts command.batchID w.settlementEpoch 0 command.targets selected
      .beginReceipt (begun.rows task).receipt ::
        (match file.findSupervisorDaemonByTaskName task with
        | some d => [.applyStop d (selected.turn task (answers task))]
        | none => [.dropStop (answers task)])
    else []
  | _, _ => []

def labelsOf (cfg : Config) (w : World) (action : Action) (task : String) : List Label :=
  match action with
  | .selfTurn answers =>
    match w.selfCh with
    | [] => []
    | ev :: _ =>
      if canonicalSupervisorTaskName ev.taskName = task then [.selfTurn (w.turn task answers)]
      else []
  | .post ev name body answers =>
    if canonicalSupervisorTaskName name = task then [.post ev body (w.turn task answers)] else []
  | .deliverExit name generation exitCode cleanExit answers =>
    if canonicalSupervisorTaskName name = task then
      [.deliverExit generation exitCode cleanExit (w.turn task answers)]
    else []
  | .paroleTick now visited =>
    if w.graceful = false ∧ task ∈ visited then [.parole now (lookupStop w.stops task)] else []
  | .stopBatch command now write answers => stopBatchLabels cfg w command now write answers task
  | .stopRecovery name answers =>
    if canonicalSupervisorTaskName name = task then [.recover (w.turn task answers)] else []
  | .dwellTick name => if name = task then [.dwell] else []
  | .childDies name generation => if name = task then [.childDies generation] else []
  | .childWaited name generation => if name = task then [.childWaited generation] else []
  | .settle name change => if name = task then [.settle change] else []
  | .refreshStops _ | .setGraceful _ => []
  | .clearGate name => if name = task then [.clearGate] else []
  | .hydrate name => if name = task then [.hydrate] else []

def PostsFor (task : String) (posts : List LoopEvent) : Prop := ∀ ev ∈ posts, ev.taskName = task

theorem postsFor_nil (task : String) : PostsFor task [] := by
  exact nofun

variable {other : String} {w : World}

theorem postsFor_singleton {ev : LoopEvent} (own : ev.taskName = task) : PostsFor task [ev] := by
  intro other member
  obtain rfl := mem_singleton.mp member
  exact own

section

variable (cfg : Config) (turn : Turn) (task : String)

theorem executeSideEffect_posts
    (d : SupervisorDaemon) (side : SideEffect) (newState : SMState) (ev : SMEvent) (row : TaskRow) :
    PostsFor task (executeSideEffect cfg turn task d side newState ev row).posts := by
  have posted := (executeSideEffect_spec cfg turn task d side newState ev row).2.2
  generalize (executeSideEffect cfg turn task d side newState ev row).posts = posts at posted ⊢
  cases posted with
  | none => exact postsFor_nil task
  | one own _ => exact postsFor_singleton own

theorem handleTaskEvent_posts (kind : EventKind) (body : EventBody) (row : TaskRow) :
    PostsFor task (handleTaskEvent cfg turn task kind body row).2 := by
  unfold handleTaskEvent
  cases planTurn cfg turn kind body row with
  | finished after => exact postsFor_nil task
  | moves prepared => exact executeSideEffect_posts _ _ _ _ _ _ _ _

theorem applyStopTarget_posts (d : SupervisorDaemon)
    (row : TaskRow) : PostsFor task (applyStopTarget cfg turn task d row).2 := by
  have effect : PostsFor task (applyAuthoritativeStopTransition cfg turn task d row).posts := by
    unfold applyAuthoritativeStopTransition
    dsimp only
    split_ifs
    · exact postsFor_nil task
    · exact postsFor_nil task
    · exact executeSideEffect_posts _ _ _ _ _ _ _ _
  unfold applyStopTarget
  dsimp only
  split <;> exact effect

theorem recover_posts (row : TaskRow) :
    PostsFor task (recoverStopReceiptOnLoop cfg turn task row).2 := by
  rcases recover_cases cfg turn task row with ⟨receipt, result⟩ | ⟨receipt, d, _, _, result⟩
  · rw [result]
    exact postsFor_nil task
  · rw [result]
    exact applyStopTarget_posts cfg turn task d _

end

theorem paroleVisit_posts (now : Int) (intent : DaemonIntent) (task : String) (row : TaskRow) :
    PostsFor task (paroleVisit now intent task row).2 := by
  obtain ⟨parole, result | ⟨_, _, result⟩⟩ := paroleVisit_cases now intent task row
  · rw [result]
    exact postsFor_nil task
  · rw [result]
    exact postsFor_singleton rfl

theorem pendingFor_append (task : String) (left right : List LoopEvent) :
    pendingFor task (left ++ right) = pendingFor task left ++ pendingFor task right :=
  filter_append ..

theorem pendingFor_own
    (canonical : canonicalSupervisorTaskName task = task) (own : PostsFor task posts) :
    pendingFor task posts = posts := by
  apply filter_eq_self.mpr
  intro ev member
  rw [own ev member, canonical]
  exact decide_eq_true rfl

theorem pendingFor_other (canonical : canonicalSupervisorTaskName other = other)
    (own : PostsFor other posts) (different : other ≠ task) : pendingFor task posts = [] := by
  apply filter_eq_nil_iff.mpr
  intro ev member
  rw [own ev member, canonical]
  simpa using different

theorem view_store_own (w : World)
    (canonical : canonicalSupervisorTaskName task = task) (own : PostsFor task result.2) :
    view task (w.store task result) = .after (pendingFor task w.selfCh) result := by
  simp only [view, World.store, View.after, Function.update_self, pendingFor_append,
    pendingFor_own canonical own]

theorem view_store_other (w : World)
    (canonical : canonicalSupervisorTaskName other = other) (own : PostsFor other result.2)
    (different : other ≠ task) : view task (w.store other result) = view task w := by
  simp only [view, World.store, pendingFor_append, pendingFor_other canonical own different,
    append_nil, Function.update_of_ne different.symm]

theorem view_setRow_own (w : World) (task : String) (row : TaskRow) :
    view task (w.setRow task row) = ⟨row, pendingFor task w.selfCh⟩ := by
  simp only [view, World.setRow, Function.update_self]

theorem view_setRow_other (w : World) (row : TaskRow)
    (different : other ≠ task) : view task (w.setRow other row) = view task w := by
  simp only [view, World.setRow, Function.update_of_ne different.symm]

private theorem handleEvent_view_own (cfg : Config) (w : World) (ev : LoopEvent)
    (answers : Answers) :
    view (canonicalSupervisorTaskName ev.taskName) (handleEvent cfg w ev answers) =
      .after (pendingFor (canonicalSupervisorTaskName ev.taskName) w.selfCh)
        (handleTaskEvent cfg (w.turn (canonicalSupervisorTaskName ev.taskName) answers)
          (canonicalSupervisorTaskName ev.taskName) ev.kind ev.body
          (w.rows (canonicalSupervisorTaskName ev.taskName))) :=
  view_store_own w (canonical_idem ev.taskName) (handleTaskEvent_posts _ _ _ _ _ _)

private theorem handleEvent_view_other (cfg : Config) (w : World) (ev : LoopEvent)
    (answers : Answers) (different : canonicalSupervisorTaskName ev.taskName ≠ task) :
    view task (handleEvent cfg w ev answers) = view task w :=
  view_store_other w (canonical_idem ev.taskName) (handleTaskEvent_posts _ _ _ _ _ _) different

def storeEach (result : World → String → TaskRow × List LoopEvent) :
    List String → World → World
  | [], w => w
  | name :: rest, w => storeEach result rest (w.store name (result w name))

theorem storeEach_cache (result : World → String → TaskRow × List LoopEvent) (names : List String)
    (w : World) : (storeEach result names w).intentCache = w.intentCache := by
  induction names generalizing w with
  | nil => rfl
  | cons name rest ih => exact ih _

private theorem storeEach_view (result : World → String → TaskRow × List LoopEvent)
    (posts : ∀ w name, PostsFor name (result w name).2)
    (apart : ∀ w name other stored, name ≠ other → result (w.store name stored) other = result w other)
    (names : List String) (w : World)
    (canonical : ∀ name ∈ names, canonicalSupervisorTaskName name = name) (distinct : names.Nodup)
    (task : String) :
    view task (storeEach result names w) =
      if task ∈ names then .after (pendingFor task w.selfCh) (result w task) else view task w := by
  induction names generalizing w with
  | nil => rfl
  | cons name rest ih =>
    obtain ⟨notLater, restDistinct⟩ := nodup_cons.mp distinct
    have own := canonical name (.head _)
    rw [storeEach, ih _ (fun other later => canonical other (.tail _ later)) restDistinct]
    by_cases same : name = task
    · subst same
      rw [if_neg notLater, if_pos (.head _)]
      exact view_store_own w own (posts w name)
    · have unchanged := view_store_other w own (posts w name) same
      have pending : pendingFor task (w.store name (result w name)).selfCh = pendingFor task w.selfCh :=
        congrArg View.pending unchanged
      rw [unchanged, apart w name task _ same, pending]
      simp only [mem_cons, Ne.symm same, false_or]

theorem paroleVisits_eq (now : Int) (visited : List String) (w : World) :
    paroleVisits now visited w = storeEach (fun w name =>
      paroleVisit now (lookupStop w.stops name) name (w.rows name)) visited w := by
  induction visited generalizing w with
  | nil => rfl
  | cons name rest ih => exact ih _

def targetResult (cfg : Config) (file : SupervisorIntentFile) (turn : Turn) (task : String)
    (row : TaskRow) : TaskRow × List LoopEvent :=
  match file.findSupervisorDaemonByTaskName task with
  | some d => applyStopTarget cfg turn task d row
  | none => (failReceipt turn.answers row, [])

private theorem targetResult_posts (cfg : Config) (file : SupervisorIntentFile) (turn : Turn)
    (task : String) (row : TaskRow) : PostsFor task (targetResult cfg file turn task row).2 := by
  unfold targetResult
  split
  · exact applyStopTarget_posts _ _ _ _ _
  · exact postsFor_nil task

theorem applyTargets_eq (cfg : Config) (file : SupervisorIntentFile)
    (answers : String → Answers) (targets : List StopBatchTarget) (w : World) :
    applyTargets cfg file answers targets w = storeEach (fun w name =>
      targetResult cfg file (w.turn name (answers name)) name (w.rows name))
      (targets.map StopBatchTarget.taskName) w := by
  induction targets generalizing w with
  | nil => rfl
  | cons target rest ih =>
    rw [map_cons, storeEach, ← ih]
    simp only [applyTargets, targetResult]
    cases file.findSupervisorDaemonByTaskName target.taskName <;> rfl

private theorem exec_nil {after : View} (cfg : Config) (task : String) (same : after = v) :
    exec (taskStep cfg task) v [] = some after := by
  rw [same]
  rfl

private theorem exec_one {after : View} (moved : taskStep cfg task v label = some after) :
    exec (taskStep cfg task) v [label] = some after := by
  rw [exec, moved]
  rfl

private theorem exec_named {after : View} {name : String}
    (own : name = task → taskStep cfg task v label = some after)
    (others : name ≠ task → after = v) :
    exec (taskStep cfg task) v (if name = task then [label] else []) = some after := by
  split_ifs with same
  · exact exec_one (own same)
  · exact exec_nil cfg task (others same)

private theorem pendingFor_nil (task : String) : pendingFor task [] = [] := rfl

private theorem stopBatch_view (cfg : Config) (w : World) (command : StopBatchCommand) (now : Int)
    (write : BatchWrite) (answers : String → Answers) (task : String) (quiet : w.selfCh = []) :
    exec (taskStep cfg task) (view task w)
        (stopBatchLabels cfg w command now write answers task) =
      some (view task (handleStopBatchOnLoop cfg w command now write answers)) := by
  unfold handleStopBatchOnLoop stopBatchLabels
  cases admitted : admittedBatch cfg w command now with
  | none => rfl
  | some pair =>
    obtain ⟨file, selected⟩ := pair
    obtain ⟨stops, _, distinct, passed, caches⟩ := admittedBatch_spec admitted
    have sameView : view task selected = view task w := by
      rcases caches with rfl | rfl <;> rfl
    have selectedQuiet : selected.selfCh = [] := by
      rcases caches with rfl | rfl <;> exact quiet
    have canonical : ∀ target ∈ command.targets,
        canonicalSupervisorTaskName target.taskName = target.taskName :=
      fun target member => preflightTarget_canonical (passed target member)
    cases write with
    | persistFailed | raced => exact exec_nil cfg task sameView
    | ok =>
      obtain ⟨begunCh, begunTurn, begunRow, begunOther⟩ :=
        beginReceipts_spec command.batchID command.targets w.settlementEpoch 0 selected
      have selectedRow : selected.rows task = w.rows task := congrArg View.row sameView
      dsimp only
      rw [applyTargets_eq, storeEach_view _ (fun _ _ => targetResult_posts _ _ _ _ _)
        (fun w name other _ different => by
          simp only [World.store, World.turn, Function.update_of_ne different.symm])
        _ _ (forall_mem_map.mpr canonical) distinct]
      split_ifs with member
      · rw [begunCh, selectedQuiet, begunTurn, begunRow task, selectedRow, pendingFor_nil]
        simp only [view, quiet, pendingFor_nil, exec, taskStep, Option.bind_some]
        unfold targetResult
        cases file.findSupervisorDaemonByTaskName task <;> rfl
      · refine exec_nil cfg task (Eq.trans ?_ sameView)
        simp only [view, begunOther task member, begunCh]

theorem step_view {next : World} {action : Action}
    (moved : step cfg w action = some next) (task : String) :
    exec (taskStep cfg task) (view task w) (labelsOf cfg w action task) =
      some (view task next) := by
  cases action with
  | selfTurn answers =>
    cases queue : w.selfCh with
    | nil =>
      simp only [step, queue] at moved
      cases moved
    | cons ev rest =>
      simp only [step, labelsOf, queue] at moved ⊢
      cases moved
      refine exec_named ?_ (fun own => ?_)
      · rintro rfl
        rw [handleEvent_view_own]
        simp only [taskStep, view, queue, pendingFor, filter_cons, decide_true, if_true]
        rfl
      · rw [handleEvent_view_other cfg _ ev answers own]
        simp only [view, queue, pendingFor, filter_cons, own, decide_false,
          Bool.false_eq_true, if_false]
  | post ev name body answers =>
    simp only [step, labelsOf] at moved ⊢
    split_ifs at moved with possible
    cases moved
    obtain ⟨quiet, posted, truthful⟩ := possible
    refine exec_named ?_ (handleEvent_view_other cfg w ⟨.sm ev, name, body⟩ answers)
    rintro rfl
    have after := handleEvent_view_own cfg w ⟨.sm ev, name, body⟩ answers
    rw [after]
    simp only [taskStep, view, quiet, pendingFor_nil, posted, truthful, and_self, if_true]
  | deliverExit name generation exitCode cleanExit answers =>
    simp only [step, labelsOf] at moved ⊢
    split_ifs at moved with quiet
    split at moved
    case h_2 => cases moved
    next child children waited advanced =>
      cases moved
      refine exec_named ?_ (fun own => ?_)
      · rintro rfl
        have after := handleEvent_view_own cfg
          (w.setRow (canonicalSupervisorTaskName name)
            { w.rows (canonicalSupervisorTaskName name) with children := children })
          ⟨.ownedChildWaitExit, canonicalSupervisorTaskName name,
            exitBody child exitCode cleanExit⟩ answers
        simp only [canonical_idem] at after
        rw [after]
        simp only [taskStep, view, quiet, pendingFor_nil, if_true, waited, advanced,
          World.setRow, Function.update_self]
        rfl
      · rw [handleEvent_view_other cfg _ _ answers (by simpa only [canonical_idem] using own)]
        exact view_setRow_other w _ own
  | paroleTick now visited =>
    simp only [step, labelsOf] at moved ⊢
    split_ifs at moved with possible graceful
    · cases moved
      simp only [graceful, Bool.true_eq_false, false_and, if_false]
      exact exec_nil cfg task rfl
    · cases moved
      obtain ⟨quiet, distinct, names⟩ := possible
      have canonical : ∀ name ∈ visited, canonicalSupervisorTaskName name = name :=
        fun name member => of_decide_eq_true (all_eq_true.mp names name member)
      have serving : w.graceful = false := by simpa using graceful
      have visits := storeEach_view (fun w name =>
          paroleVisit now (lookupStop w.stops name) name (w.rows name))
        (fun _ _ => paroleVisit_posts _ _ _ _)
        (fun w name other _ different => by simp only [World.store, Function.update_of_ne different.symm])
        visited w canonical distinct task
      rw [← paroleVisits_eq] at visits
      simp only [serving, true_and]
      split_ifs with member
      · rw [if_pos member] at visits
        apply exec_one
        rw [visits]
        simp only [taskStep, view, quiet, pendingFor_nil, if_true]
      · rw [if_neg member] at visits
        exact exec_nil cfg task visits
  | stopBatch command now write answers =>
    simp only [step, labelsOf] at moved ⊢
    split_ifs at moved with quiet
    cases moved
    exact stopBatch_view cfg w command now write answers task quiet
  | stopRecovery name answers =>
    simp only [step, labelsOf] at moved ⊢
    split_ifs at moved with quiet
    cases moved
    refine exec_named ?_ (view_store_other w (canonical_idem name) (recover_posts _ _ _ _))
    rintro rfl
    rw [view_store_own w (canonical_idem name) (recover_posts _ _ _ _)]
    simp only [taskStep, view, quiet, pendingFor_nil, if_true]
  | dwellTick name =>
    simp only [step, labelsOf] at moved ⊢
    split_ifs at moved with quiet
    cases moved
    refine exec_named ?_ (view_setRow_other w _)
    rintro rfl
    exact congrArg some (view_setRow_own w name _).symm
  | childDies name generation | childWaited name generation =>
    obtain ⟨children, advanced, rfl⟩ := Option.map_eq_some_iff.mp moved
    refine exec_named ?_ (view_setRow_other w _)
    rintro rfl
    simp only [taskStep, view, advanced, Option.map_some, World.setRow, Function.update_self]
  | settle name change =>
    simp only [step, labelsOf] at moved ⊢
    split at moved
    · cases moved
    next receipt pending =>
      obtain ⟨settled, changed, rfl⟩ := Option.map_eq_some_iff.mp moved
      refine exec_named ?_ (view_setRow_other w _)
      rintro rfl
      simp only [taskStep, view, pending, changed, Option.map_some, World.setRow,
        Function.update_self]
  | refreshStops stops | setGraceful graceful =>
    cases moved
    exact exec_nil cfg task rfl
  | clearGate name | hydrate name =>
    cases moved
    refine exec_named ?_ (view_setRow_other w _)
    rintro rfl
    exact congrArg some (view_setRow_own w name _).symm

theorem view_of_initial (starts : Initial w) (task : String) : view task w = ⟨w.rows task, []⟩ := by
  simp only [view, starts.1, pendingFor_nil]

def turnEvent (v : View) (label : Label) : Option (Turn × EventKind × EventBody × TaskRow) :=
  match label with
  | .selfTurn turn => v.pending.head?.map (fun ev => (turn, ev.kind, ev.body, v.row))
  | .post ev body turn => some (turn, .sm ev, body, v.row)
  | .deliverExit gen exitCode cleanExit turn =>
    match waitedChild gen v.row, advanceChild gen .waited .delivered v.row.children with
    | some c, some children =>
      some (turn, .ownedChildWaitExit, exitBody c exitCode cleanExit,
        { v.row with children := children })
    | _, _ => none
  | _ => none

def Label.ofBatch : Label → Bool
  | .beginReceipt _ | .applyStop _ _ | .dropStop _ => true
  | _ => false

theorem turnEvent_of_batch (batch : label.ofBatch = true) : turnEvent v label = none := by
  cases label <;> first | rfl | cases batch

theorem labelsOf_shape (cfg : Config) (w : World) (action : Action) (task : String) :
    (labelsOf cfg w action task).length ≤ 1 ∨
      ∀ label ∈ labelsOf cfg w action task, label.ofBatch = true := by
  cases action with
  | stopBatch command now write answers =>
    right
    intro label member
    simp only [labelsOf, stopBatchLabels] at member
    split at member
    · split_ifs at member
      · rcases mem_cons.mp member with rfl | applied
        · rfl
        · split at applied <;> (rw [mem_singleton.mp applied]; rfl)
      · cases member
    · cases member
  | selfTurn answers =>
    left
    simp only [labelsOf]
    split
    · exact Nat.zero_le 1
    · split_ifs <;> simp
  | _ =>
    left
    simp only [labelsOf]
    first
      | exact Nat.zero_le 1
      | (split_ifs <;> simp)

/-- What the turns on a task preserve, under a condition on each, holds of it in every reachable
supervisor. -/
theorem view_invariant_under
    {allow : World → Action → Prop} {meets : View → Label → Prop}
    (base : ∀ row, Booted row → inv ⟨row, []⟩)
    (preserve : ∀ v label next, inv v → meets v label → taskStep cfg task v label = some next →
      inv next)
    (batch : ∀ v label, label.ofBatch = true → meets v label)
    (met : ∀ w action, allow w action →
      ∀ label ∈ labelsOf cfg w action task, meets (view task w) label)
    (reached : Reachable Initial (step cfg) allow w) : inv (view task w) := by
  have started : ∀ s, Initial s → inv (view task s) := by
    intro s starts
    rw [view_of_initial starts]
    exact base _ (starts.2 task)
  have stepped : ∀ s action next, inv (view task s) → allow s action →
      step cfg s action = some next → inv (view task next) := by
    intro s action next holds allowed moved
    have turns := step_view moved task
    have conditions := met s action allowed
    rcases labelsOf_shape cfg s action task with short | batched
    · exact exec_invariant_of_short preserve short conditions turns holds
    · exact exec_invariant_of_met preserve
        (fun label member before => batch before label (batched label member)) turns holds
  exact Reachable.invariant started stepped reached

theorem view_invariant (base : ∀ row, Booted row → inv ⟨row, []⟩)
    (preserve : ∀ v label next, inv v → taskStep cfg task v label = some next → inv next)
    (reached : Reachable Initial (step cfg) always w) : inv (view task w) :=
  view_invariant_under base (fun v label next holds (_ : True) => preserve v label next holds)
    (fun _ _ _ => trivial) (fun _ _ _ _ _ => trivial) reached

def turnsOf (cfg : Config) (task : String) : World → List Action → List Label
  | _, [] => []
  | w, action :: rest => labelsOf cfg w action task ++
      ((step cfg w action).map (fun next => turnsOf cfg task next rest)).getD []

theorem exec_view (task : String) (actions : List Action) {after : World}
    (done : exec (step cfg) w actions = some after) :
    exec (taskStep cfg task) (view task w) (turnsOf cfg task w actions) =
      some (view task after) := by
  induction actions generalizing w with
  | nil => rw [← Option.some.inj done, turnsOf, exec]
  | cons action rest ih =>
    obtain ⟨next, moved, later⟩ := Option.bind_eq_some_iff.mp done
    rw [turnsOf, exec_append, step_view moved task, moved]
    exact ih later

/-- Two runs that make the same turns on a task, from supervisors that agree on it, leave it with
the same row and pending events. -/
theorem task_isolated (cfg : Config) (task : String) (w w' after after' : World)
    (actions actions' : List Action)
    (agree : view task w = view task w') (turns : turnsOf cfg task w actions = turnsOf cfg task w' actions')
    (done : exec (step cfg) w actions = some after)
    (done' : exec (step cfg) w' actions' = some after') : view task after = view task after' := by
  have left := exec_view task actions done
  have right := exec_view task actions' done'
  rw [agree, turns] at left
  exact Option.some.inj (left.symm.trans right)

def memoryStarts : List Action := [.post .start "\\memory" {} (obliging (.started 4711 7))]

def bothStart : List Action := .post .start "\\time" {} (obliging .preChild) :: memoryStarts

theorem task_isolated_memory_started :
    turnsOf wiredConfig "\\memory" (coldStart memoryFile []) memoryStarts ≠ [] ∧
      ∃ after after', exec (step wiredConfig) (coldStart memoryFile []) bothStart = some after ∧
        exec (step wiredConfig) (coldStart memoryFile []) memoryStarts = some after' ∧
        view "\\memory" after = view "\\memory" after' :=
  ⟨by decide +kernel, _, _, rfl, rfl, task_isolated wiredConfig "\\memory"
    (coldStart memoryFile []) (coldStart memoryFile []) _ _ bothStart memoryStarts rfl
    (by decide +kernel) rfl rfl⟩

end McpLocalHub.Supervisor.TaskView
