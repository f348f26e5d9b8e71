/- Module: Supervisor/SpawningProgress
   digest: A daemon in the spawning state is waiting for the exit of its process or for a self
   post. -/

import McpLocalHub.Supervisor.SingleChild

/-!
The state machine has no row that takes a spawning daemon out of its state on a start, a restart
or a timer. Each refusal of `executeSideEffect` therefore has to store another state of its own.
-/

set_option autoImplicit false

namespace McpLocalHub.Supervisor.SpawningProgress

open Foundation.Runs StateMachine Intents RuntimeTracker Controller StopBatch Lifecycle TaskView
open SingleChild

/-- The exit of the current own child has not been handled yet. -/
def OwesExit (row : TaskRow) : Prop :=
  ∃ c ∈ row.children, c.generation = generation row.entry ∧ c.phase ≠ .delivered

/-- The last spawn returned the raw start error: the daemon is deliberately parked. -/
def Parked (row : TaskRow) : Prop :=
  ∃ call recorded, row.spawnCalls.getLast? = some call ∧ call.outcome = .unowned recorded

def Rests (row : TaskRow) : Prop := OwesExit row ∨ Parked row

def Releases (ev : LoopEvent) : Prop :=
  (ev.kind = .sm .healthOK ∨ ev.kind = .sm .childExit) ∧ ev.body.pidGeneration = none

def Waits (v : View) : Prop :=
  v.row.state = .spawning → Rests v.row ∨ ∃ ev ∈ v.pending, Releases ev

def asksForProcess (cfg : Config) (turn : Turn) (kind : EventKind) (body : EventBody)
    (row : TaskRow) : Bool :=
  match planTurn cfg turn kind body row with
  | .moves prepared => createsProcess prepared.result.side
  | .finished _ => false

/-- The process that the turn asks for is admitted, and an event for a spawning daemon finds its
descriptor. -/
def Unstranded (cfg : Config) (v : View) (label : Label) : Prop :=
  ∀ turn kind body row, turnEvent v label = some (turn, kind, body, row) →
    (asksForProcess cfg turn kind body row = true → admitsCreateProcess turn row = true) ∧
    (row.state = .spawning → (lookupDescriptorWithShadow turn row).isSome = true)

instance (cfg : Config) (v : View) (label : Label) : Decidable (Unstranded cfg v label) :=
  decidable_of_iff (∀ event ∈ turnEvent v label,
      (asksForProcess cfg event.1 event.2.1 event.2.2.1 event.2.2.2 = true →
        admitsCreateProcess event.1 event.2.2.2 = true) ∧
      (event.2.2.2.state = .spawning →
        (lookupDescriptorWithShadow event.1 event.2.2.2).isSome = true))
    ⟨fun all turn kind body row found => all (turn, kind, body, row) found,
      fun all _ found => all _ _ _ _ found⟩

theorem unstranded_of_batch (cfg : Config) (v : View) (label : Label)
    (batch : label.ofBatch = true) : Unstranded cfg v label := by
  intro turn kind body row event
  rw [turnEvent_of_batch batch] at event
  cases event

variable {row : TaskRow} {cfg : Config}

variable {after : TaskRow} {turn : Turn} {ev : SMEvent}

theorem Rests.of_same (rests : Rests row) (children : after.children = row.children)
    (same : generation after.entry = generation row.entry)
    (spawnCalls : after.spawnCalls = row.spawnCalls) : Rests after := by
  rcases rests with ⟨c, member, current, owed⟩ | ⟨call, recorded, last, unowned⟩
  · exact .inl ⟨c, children ▸ member, current.trans same.symm, owed⟩
  · exact .inr ⟨call, recorded, spawnCalls ▸ last, unowned⟩

theorem Rests.of_core (rests : Rests row) (core : SameCore row after) : Rests after :=
  rests.of_same core.children core.generation core.spawnCalls

theorem Rests.advance {row : TaskRow} {gen : Nat} {before after : ChildPhase}
    {moved : List Child} {entry : Option RuntimeEntry} (rests : Rests row)
    (advanced : advanceChild gen before after row.children = some moved)
    (same : generation entry = generation row.entry)
    (other : after = .delivered → gen ≠ generation row.entry) :
    Rests { row with children := moved, entry := entry } := by
  rcases rests with ⟨c, member, current, owed⟩ | parked
  case inr => exact .inr parked
  suffices kept : ∃ d ∈ moved, d.generation = c.generation ∧ d.phase ≠ .delivered by
    obtain ⟨d, listed, sameGeneration, stillOwed⟩ := kept
    exact .inl ⟨d, listed, (sameGeneration.trans current).trans same.symm, stillOwed⟩
  generalize row.children = children at advanced member
  induction children generalizing moved with
  | nil => cases member
  | cons first rest ih =>
    rw [advanceChild] at advanced
    split_ifs at advanced with matched
    · cases advanced
      rcases List.mem_cons.mp member with rfl | later
      · refine ⟨_, .head _, rfl, ?_⟩
        intro delivered
        exact other delivered (matched.1.symm.trans current)
      · exact ⟨c, .tail _ later, rfl, owed⟩
    · obtain ⟨restMoved, restAdvanced, rfl⟩ := Option.map_eq_some_iff.mp advanced
      rcases List.mem_cons.mp member with rfl | later
      · exact ⟨c, .head _, rfl, owed⟩
      · obtain ⟨d, listed, known⟩ := ih restAdvanced later
        exact ⟨d, .tail _ listed, known⟩

theorem handleBackoffWaiting_state (cfg : Config) (now : Int)
    (stored : row.smState = some .backoffWaiting) :
    (handleBackoffWaiting cfg now row).state ≠ .spawning := by
  unfold handleBackoffWaiting
  dsimp only
  split_ifs
  · unfold recordQuarantineParoleEligible
    split <;> nofun
  · rw [stored]
    nofun

theorem executeSideEffect_not_spawning (cfg : Config) (turn : Turn) (task : String)
    (d : SupervisorDaemon) (side : SideEffect) {newState : SMState} (ev : SMEvent)
    (stored : row.smState = some newState) (elsewhere : newState ≠ .spawning) :
    (executeSideEffect cfg turn task d side newState ev row).row.state ≠ .spawning := by
  rcases (executeSideEffect_spec cfg turn task d side newState ev row).2.1 stored with
    same | rfl | ⟨spawns, _⟩
  · rw [same]
    exact elsewhere
  · exact handleBackoffWaiting_state cfg turn.answers.now stored
  · exact absurd spawns elsewhere

theorem createProcess_waits (task : String) (d : SupervisorDaemon)
    (wired : cfg.spawnWired = true) (admitted : admitsCreateProcess turn row = true) :
    Waits ⟨(createProcess cfg turn task d row).row, (createProcess cfg turn task d row).posts⟩ := by
  have born : ∀ pid startedAt,
      OwesExit (runSpawn { row with gateCleared := false } (.started pid startedAt)) := by
    intro pid startedAt
    refine ⟨⟨generation row.entry + 1, pid, startedAt, .alive⟩, ?_, rfl, nofun⟩
    exact List.mem_append.mpr (.inr (.head _))
  unfold createProcess
  simp only [admitted, wired, Bool.true_eq_false, if_false]
  split_ifs
  · nofun
  · nofun
  · nofun
  · cases outcome : turn.answers.spawn with
    | started pid startedAt | postChild pid startedAt =>
      exact fun _ => .inl (.inl (born pid startedAt))
    | preChild => exact fun _ => .inr ⟨_, .head _, .inr rfl, rfl⟩
    | jobProtectionRefused => nofun
    | unowned recorded =>
      have last : (runSpawn { row with gateCleared := false } (.unowned recorded)).spawnCalls =
          row.spawnCalls ++ [⟨row.liveChildren.length, .unowned recorded⟩] := by
        cases recorded <;> rfl
      have parked : Parked (runSpawn { row with gateCleared := false } (.unowned recorded)) :=
        ⟨⟨row.liveChildren.length, .unowned recorded⟩, recorded, last ▸ List.getLast?_concat, rfl⟩
      exact fun _ => .inl (.inr parked)

theorem spawning_of_quiet {state : SMState} {ctx : SMContext}
    (quiet : createsProcess (transition state ev ctx).side = false)
    (enters : (transition state ev ctx).newState = .spawning) : state = .spawning := by
  by_contra outside
  rw [(createsProcess_iff state ev ctx).mpr ⟨enters, outside⟩] at quiet
  cases quiet

private theorem release_matched (ctx : SMContext) (release : ev = .healthOK ∨ ev = .childExit) :
    (transition .spawning ev ctx).matched = true ∧
      (transition .spawning ev ctx).newState ≠ .spawning := by
  rcases release with rfl | rfl <;> simp only [transition, transitionSpawning] <;>
    split_ifs <;> decide

/-- A turn leaves a spawning daemon with something to wait for, when it had that or waited for this
event. -/
theorem handleTaskEvent_waits (task : String) {kind : EventKind}
    {body : EventBody} (wired : cfg.spawnWired = true)
    (admitted : asksForProcess cfg turn kind body row = true → admitsCreateProcess turn row = true)
    (described : row.state = .spawning → (lookupDescriptorWithShadow turn row).isSome = true)
    (waited : row.state = .spawning → Rests row ∨
      (kind.smEvent = .healthOK ∨ kind.smEvent = .childExit) ∧
        isStaleExit kind.smEvent body row = false) :
    Waits (.after [] (handleTaskEvent cfg turn task kind body row)) := by
  have plan := planTurn_cases cfg turn kind body row
  unfold asksForProcess at admitted
  unfold handleTaskEvent
  generalize planTurn cfg turn kind body row = planned at plan admitted ⊢
  have kept : ∀ after : TaskRow, SameCore row after →
      (row.state = .spawning → (kind.smEvent = .healthOK ∨ kind.smEvent = .childExit) →
        isStaleExit kind.smEvent body row = true) → Waits ⟨after, []⟩ := by
    intro after core stays spawning
    have before : row.state = .spawning := core.state ▸ spawning
    rcases waited before with rests | ⟨release, fresh⟩
    · exact .inl (rests.of_core core)
    · rw [stays before release] at fresh
      cases fresh
  cases plan with
  | gated core restart =>
    refine kept _ core (fun _ release => ?_)
    rw [restart] at release
    rcases release with release | release <;> cases release
  | stale core old => exact kept _ core (fun _ _ => old)
  | orphaned core missing =>
    refine kept _ core (fun spawning _ => ?_)
    have found := described spawning
    rw [missing] at found
    cases found
  | deferred core waits =>
    refine kept _ core (fun spawning _ => ?_)
    rw [waits] at spawning
    cases spawning
  | @unmatched after current core fresh started noRow =>
    refine kept _ core (fun spawning release => ?_)
    rcases started with same | ⟨restart, _⟩
    · rw [same, spawning, (release_matched _ release).1] at noRow
      cases noRow
    · rw [restart] at release
      rcases release with release | release <;> cases release
  | idled core exit fresh running => nofun
  | refused core exit fresh running => nofun
  | @moves prepared core fresh ungated found started answer matched =>
    dsimp only at admitted ⊢
    by_cases enters : prepared.result.newState = .spawning
    · rw [enters]
      cases asks : createsProcess prepared.result.side with
      | true =>
        have admits := admitted asks
        have storedAdmits : admitsCreateProcess turn (storeTransition prepared) = true := by
          simp only [admitsCreateProcess, Bool.and_eq_true, Option.isNone_iff_eq_none]
            at admits ⊢
          exact ⟨admits.1, core.receipt admits.2⟩
        have waits := createProcess_waits task prepared.descriptor wired storedAdmits
        simpa only [executeSideEffect, asks, if_true, View.after, List.nil_append] using waits
      | false =>
        have inside := spawning_of_quiet (answer ▸ asks) (answer ▸ enters)
        have update : kind.smEvent = .intentUpdate := by
          rw [answer, inside] at matched enters
          exact spawning_stays _ _ matched enters
        have before : row.state = .spawning := by
          rcases started with same | ⟨restart, _⟩
          · exact same ▸ inside
          · rw [restart] at update
            cases update
        have rests : Rests row := by
          refine (waited before).resolve_right ?_
          rintro ⟨release, _⟩
          rw [update] at release
          rcases release with release | release <;> cases release
        have fewer := storeTransition_fewer prepared
        intro _
        simp only [executeSideEffect, asks, Bool.false_eq_true, if_false, View.after]
        exact .inl (rests.of_same core.children (fewer.generation.trans core.generation)
          core.spawnCalls)
    · intro spawning
      exact absurd spawning (executeSideEffect_not_spawning cfg turn task prepared.descriptor
        prepared.result.side kind.smEvent rfl enters)

theorem applyStopTarget_waits (cfg : Config) (turn : Turn) (task : String) (d : SupervisorDaemon)
    (waited : row.state = .spawning → Rests row) :
    Waits (.after [] (applyStopTarget cfg turn task d row)) := by
  obtain ⟨core, posts⟩ := applyStopTarget_cases cfg turn task d row
  have effect : (applyAuthoritativeStopTransition cfg turn task d row).row.state = .spawning →
      Rests (applyAuthoritativeStopTransition cfg turn task d row).row := by
    have quiet := stopped_intentUpdate_spawns_nothing row.state
      (stopContext cfg turn.answers.now row) rfl
    unfold applyAuthoritativeStopTransition
    dsimp only
    generalize answer : transition row.state .intentUpdate (stopContext cfg turn.answers.now row)
      = result at quiet
    have stays : result.newState = .spawning → Rests (storeAuthoritativeStop row result) := by
      intro enters
      have before := spawning_of_quiet (answer ▸ quiet) (answer ▸ enters)
      refine (waited before).of_same rfl ?_ rfl
      simp only [storeAuthoritativeStop, enters, reduceCtorEq, false_and, if_false]
    split_ifs
    · exact waited
    · exact stays
    · by_cases enters : result.newState = .spawning
      · rw [enters]
        simp only [executeSideEffect, quiet, Bool.false_eq_true, if_false]
        exact fun _ => stays enters
      · intro spawning
        exact absurd spawning (executeSideEffect_not_spawning cfg turn task d result.side
          .intentUpdate rfl enters)
  intro spawning
  exact .inl ((effect (core.state ▸ spawning)).of_core core)

structure Progress (v : View) : Prop where
  safe : Safe v
  waits : Waits v

theorem taskStep_progress (task : String) (wired : cfg.spawnWired = true) (v : View)
    (label : Label) (next : View) (progress : Progress v) (unstranded : Unstranded cfg v label)
    (moved : taskStep cfg task v label = some next) : Progress next := by
  refine ⟨taskStep_safe cfg task v label next progress.safe moved, ?_⟩
  have waits := progress.waits
  have rests : v.pending = [] → v.row.state = .spawning → Rests v.row := by
    intro quiet spawning
    refine (waits spawning).resolve_right ?_
    rintro ⟨ev, member, _⟩
    rw [quiet] at member
    cases member
  have unmoved : ∀ after : TaskRow, after.smState = v.row.smState →
      (Rests v.row → Rests after) → Waits { v with row := after } := by
    intro after state kept spawning
    have before : v.row.state = .spawning := by
      unfold TaskRow.state at spawning ⊢
      rw [← state]
      exact spawning
    exact (waits before).imp kept id
  cases taskStep_cases moved with
  | @selfTurn turn ev rest queue =>
    have alone : rest = [] := by
      have single := progress.safe.single
      rw [queue, List.length_cons] at single
      exact List.length_eq_zero_iff.mp (by omega)
    subst alone
    obtain ⟨admitted, described⟩ := unstranded turn ev.kind ev.body v.row
      (by simp [turnEvent, queue])
    refine handleTaskEvent_waits task wired admitted described (fun spawning => ?_)
    refine (waits spawning).imp id ?_
    rintro ⟨other, member, released, unstamped⟩
    rw [queue] at member
    obtain rfl := List.mem_singleton.mp member
    refine ⟨?_, by simp [isStaleExit, unstamped]⟩
    rcases released with same | same
    · exact .inl (congrArg EventKind.smEvent same)
    · exact .inr (congrArg EventKind.smEvent same)
  | @post ev body turn quiet =>
    obtain ⟨admitted, described⟩ := unstranded turn (.sm ev) body v.row rfl
    exact handleTaskEvent_waits task wired admitted described
      (fun spawning => .inl (rests quiet spawning))
  | @exit gen exitCode cleanExit turn child children quiet found advanced =>
    obtain ⟨admitted, described⟩ := unstranded turn .ownedChildWaitExit
      (exitBody child exitCode cleanExit) { v.row with children := children }
      (by simp only [turnEvent, found, advanced])
    refine handleTaskEvent_waits task wired admitted described (fun spawning => ?_)
    have told := waitedChild_generation found
    by_cases newest : gen = generation v.row.entry
    · refine .inr ⟨.inr rfl, ?_⟩
      simp [isStaleExit, exitBody, told, newest]
    · have kept : Rests { v.row with children := children } :=
        (rests quiet spawning).advance advanced rfl (fun _ => newest)
      exact .inl kept
  | paroled quiet => exact fun spawning => .inl ((rests quiet spawning).of_same rfl rfl rfl)
  | @stop _ d turn quiet =>
    exact applyStopTarget_waits cfg turn task d
      (fun spawning => (rests quiet spawning).of_same rfl rfl rfl)
  | child short advanced same =>
    exact unmoved _ rfl (fun resting => resting.advance advanced same
      (fun delivered => by rcases short with rfl | rfl <;> cases delivered))
  | aside => exact unmoved _ rfl (fun resting => resting.of_same rfl rfl rfl)
  | hydrate =>
    unfold hydrateSMState
    split
    · exact waits
    · intro spawning
      dsimp only [Option.getD_some] at spawning
      split at spawning <;> cases spawning

/-- The runs in which no turn on the task is stranded. -/
def UnstrandedStep (cfg : Config) (task : String) (w : World) (action : Action) : Prop :=
  ∀ label ∈ labelsOf cfg w action task, Unstranded cfg (view task w) label
  deriving Decidable

theorem booted_progress (booted : Booted row) : Progress ⟨row, []⟩ := by
  refine ⟨booted_safe booted, ?_⟩
  intro spawning
  have stored := booted.state.1
  unfold TaskRow.state at spawning
  cases missing : row.smState with
  | none =>
    rw [missing] at spawning
    cases spawning
  | some state =>
    rw [missing] at spawning stored
    exact absurd (congrArg some spawning) stored

/-- Whenever a task is spawning, the exit of its current own child is owed, or an `EvHealthOK` or
`EvChildExit` for it is on the self channel, or its last spawn returned the raw start error. -/
theorem spawning_waits {cfg : Config} {task : String} (wired : cfg.spawnWired = true) {w : World}
    (reached : Reachable Initial (step cfg) (UnstrandedStep cfg task) w)
    (spawning : (w.rows task).smState = some .spawning) :
    OwesExit (w.rows task) ∨
      (∃ ev ∈ w.selfCh, canonicalSupervisorTaskName ev.taskName = task ∧
        (ev.kind = .sm .healthOK ∨ ev.kind = .sm .childExit)) ∨
      Parked (w.rows task) := by
  have progress : Progress (view task w) :=
    view_invariant_under (fun _ booted => booted_progress booted)
      (fun v label next => taskStep_progress task wired v label next)
      (unstranded_of_batch cfg) (fun _ _ allowed => allowed) reached
  have state : (view task w).row.state = .spawning := by
    exact (congrArg (Option.getD · SMState.idle) spawning).trans rfl
  rcases progress.waits state with (owes | parked) | ⟨ev, pending, released, _⟩
  · exact .inl owes
  · exact .inr (.inr parked)
  · obtain ⟨posted, own⟩ := List.mem_filter.mp pending
    exact .inr (.inl ⟨ev, posted, of_decide_eq_true own, released⟩)

theorem spawning_waits_for_child :
    ∃ w, Reachable Initial (step wiredConfig) (UnstrandedStep wiredConfig "\\memory") w ∧
      (w.rows "\\memory").smState = some .spawning ∧
      (OwesExit (w.rows "\\memory") ∨
        (∃ ev ∈ w.selfCh, canonicalSupervisorTaskName ev.taskName = "\\memory" ∧
          (ev.kind = .sm .healthOK ∨ ev.kind = .sm .childExit)) ∨
        Parked (w.rows "\\memory")) := by
  refine (exists_reachable_under (step wiredConfig) (coldStart memoryFile [])
    [.post .start "memory" {} (obliging (.postChild 41 1))] (coldStart_initial memoryFile []) ?_).imp
    (fun w found => ⟨found.1, found.2, spawning_waits rfl found.1 found.2⟩)
  decide +kernel

/-- After a raw start error nothing is owed and nothing is queued, and the daemon stays spawning. -/
theorem spawning_parked_forever :
    ¬∀ w, Reachable Initial (step wiredConfig) always w →
      (w.rows "\\memory").smState = some .spawning →
      (∃ c ∈ (w.rows "\\memory").children, c.phase ≠ .delivered) ∨
        ∃ ev ∈ w.selfCh, canonicalSupervisorTaskName ev.taskName = "\\memory" ∧
          (ev.kind = .sm .healthOK ∨ ev.kind = .sm .childExit) := by
  intro claimed
  obtain ⟨w, reached, spawning, childless, quiet⟩ :=
    exists_reachable (step wiredConfig) (coldStart memoryFile [])
      [.post .start "memory" {} (obliging (.unowned true))]
      (P := fun w => (w.rows "\\memory").smState = some .spawning ∧
        (w.rows "\\memory").children = [] ∧ w.selfCh = []) (coldStart_initial memoryFile [])
      (by decide +kernel)
  rcases claimed w reached spawning with ⟨c, member, _⟩ | ⟨ev, member, _⟩
  · rw [childless] at member
    cases member
  · rw [quiet] at member
    cases member

end McpLocalHub.Supervisor.SpawningProgress
