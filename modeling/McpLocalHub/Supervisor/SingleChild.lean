/- Module: Supervisor/SingleChild
   digest: A daemon never has two own children alive. -/

import McpLocalHub.Supervisor.TaskView
import Mathlib.Data.List.Nodup

set_option autoImplicit false

namespace McpLocalHub.Supervisor.SingleChild

open List

open Foundation.Runs StateMachine Intents RuntimeTracker Controller StopBatch Lifecycle TaskView

def NoLive (row : TaskRow) : Prop := ∀ c ∈ row.children, c.phase ≠ .alive

/-- The children's generations are the tracker's: distinct, and the live one has the newest. -/
structure Books (row : TaskRow) : Prop where
  current : ∀ c ∈ row.children, c.phase = .alive → c.generation = generation row.entry
  positive : ∀ c ∈ row.children, 0 < c.generation
  bounded : ∀ c ∈ row.children, c.generation ≤ generation row.entry
  distinct : (row.children.map Child.generation).Nodup
  calls : ∀ call ∈ row.spawnCalls, call.live = 0

structure Safe (v : View) : Prop where
  books : Books v.row
  owned : NoLive v.row ∨ mayOwnProcess v.row.state = true
  single : v.pending.length ≤ 1
  /-- An exit that the controller posted to itself is about a process that is gone. -/
  exits : ∀ ev ∈ v.pending, ev.kind.smEvent = .childExit → NoLive v.row
  truthful : ∀ ev ∈ v.pending, ev.body.runtimeCleared = false

variable {row after : TaskRow} {gen : Nat} {moved : List Child}

theorem Safe.quiet (books : Books row)
    (owned : NoLive row ∨ mayOwnProcess row.state = true) : Safe ⟨row, []⟩ :=
  ⟨books, owned, Nat.zero_le 1, forall_mem_nil _, forall_mem_nil _⟩

theorem Safe.posting {ev : LoopEvent} (books : Books row)
    (owned : NoLive row ∨ mayOwnProcess row.state = true)
    (exits : ev.kind.smEvent = .childExit → NoLive row)
    (truthful : ev.body.runtimeCleared = false) : Safe ⟨row, [ev]⟩ :=
  ⟨books, owned, Nat.le_refl 1, forall_mem_singleton.mpr exits,
    forall_mem_singleton.mpr truthful⟩

structure Fewer (row after : TaskRow) : Prop where
  generations : after.children.map Child.generation = row.children.map Child.generation
  live : ∀ c ∈ after.children, c.phase = .alive →
    ∃ old ∈ row.children, old.phase = .alive ∧ old.generation = c.generation
  generation : generation after.entry = generation row.entry
  spawnCalls : after.spawnCalls = row.spawnCalls

theorem Fewer.of_same (children : after.children = row.children)
    (same : RuntimeTracker.generation after.entry = RuntimeTracker.generation row.entry)
    (spawnCalls : after.spawnCalls = row.spawnCalls) : Fewer row after := by
  refine ⟨by rw [children], ?_, same, spawnCalls⟩
  intro c member alive
  exact ⟨c, children ▸ member, alive, rfl⟩

theorem Fewer.trans {middle : TaskRow} (left : Fewer row middle)
    (right : Fewer middle after) : Fewer row after := by
  refine ⟨right.generations.trans left.generations, ?_, right.generation.trans left.generation,
    right.spawnCalls.trans left.spawnCalls⟩
  intro c member alive
  obtain ⟨between, betweenMember, betweenAlive, same⟩ := right.live c member alive
  obtain ⟨old, oldMember, oldAlive, older⟩ := left.live between betweenMember betweenAlive
  exact ⟨old, oldMember, oldAlive, older.trans same⟩

theorem Fewer.of_core (core : SameCore row after) : Fewer row after :=
  .of_same core.children core.generation core.spawnCalls

theorem Books.fewer (books : Books row) (fewer : Fewer row after) : Books after := by
  have known : ∀ c ∈ after.children, ∃ old ∈ row.children, old.generation = c.generation := by
    intro c member
    have listed : c.generation ∈ row.children.map Child.generation :=
      fewer.generations ▸ mem_map_of_mem member
    exact mem_map.mp listed
  refine ⟨?_, ?_, ?_, ?_, ?_⟩
  · intro c member alive
    obtain ⟨old, oldMember, oldAlive, same⟩ := fewer.live c member alive
    rw [← same, fewer.generation]
    exact books.current old oldMember oldAlive
  · intro c member
    obtain ⟨old, oldMember, same⟩ := known c member
    exact same ▸ books.positive old oldMember
  · intro c member
    obtain ⟨old, oldMember, same⟩ := known c member
    rw [← same, fewer.generation]
    exact books.bounded old oldMember
  · rw [fewer.generations]
    exact books.distinct
  · rw [fewer.spawnCalls]
    exact books.calls

theorem NoLive.fewer (none : NoLive row) (fewer : Fewer row after) : NoLive after := by
  intro c member alive
  obtain ⟨old, oldMember, oldAlive, _⟩ := fewer.live c member alive
  exact none old oldMember oldAlive

theorem noLive_of_current (books : Books row)
    (gone : hasLiveChild row (generation row.entry) = false) : NoLive row := by
  intro c member alive
  have present : hasLiveChild row (generation row.entry) = true := by
    refine any_eq_true.mpr ⟨c, member, ?_⟩
    simp only [Child.alive, alive, books.current c member alive, decide_true, Bool.and_self]
  rw [gone] at present
  cases present

theorem liveChildren_of_noLive (none : NoLive row) : row.liveChildren = [] := by
  apply filter_eq_nil_iff.mpr
  intro c member
  simpa [Child.alive] using none c member

theorem liveChildren_length_le (books : Books row) : row.liveChildren.length ≤ 1 := by
  have distinct : (row.liveChildren.map Child.generation).Nodup :=
    books.distinct.sublist (filter_sublist.map _)
  have constant : ∀ g ∈ row.liveChildren.map Child.generation, g = generation row.entry := by
    intro g listed
    obtain ⟨c, member, rfl⟩ := mem_map.mp listed
    obtain ⟨known, alive⟩ := mem_filter.mp member
    exact books.current c known (of_decide_eq_true alive)
  rw [← length_map Child.generation]
  generalize row.liveChildren.map Child.generation = generations at distinct constant ⊢
  match generations, distinct, constant with
  | [], _, _ => exact Nat.zero_le 1
  | [_], _, _ => exact Nat.le_refl 1
  | first :: second :: rest, distinct, constant =>
    have same : first = second :=
      (constant first (.head _)).trans (constant second (.tail _ (.head _))).symm
    exact absurd (same ▸ List.Mem.head _) (nodup_cons.mp distinct).1

theorem Books.spawned (books : Books row) (none : NoLive row)
    (outcome : SpawnOutcome) : Books (runSpawn row outcome) := by
  have calls : ∀ call ∈ row.spawnCalls ++ [⟨row.liveChildren.length, outcome⟩],
      call.live = 0 :=
    forall_mem_append.mpr ⟨books.calls, forall_mem_singleton.mpr
      (congrArg List.length (liveChildren_of_noLive none))⟩
  have born : ∀ pid startedAt, Books { row with
      spawnCalls := row.spawnCalls ++ [⟨row.liveChildren.length, outcome⟩]
      entry := some (markSpawned row.entry pid startedAt).1
      children := row.children ++
        [⟨(markSpawned row.entry pid startedAt).2, pid, startedAt, .alive⟩] } := by
    intro pid startedAt
    refine ⟨?_, ?_, ?_, ?_, calls⟩
    · exact forall_mem_append.mpr ⟨fun c earlier alive => absurd alive (none c earlier),
        forall_mem_singleton.mpr (fun _ => rfl)⟩
    · exact forall_mem_append.mpr ⟨books.positive, forall_mem_singleton.mpr (Nat.succ_pos _)⟩
    · exact forall_mem_append.mpr ⟨fun c earlier => Nat.le_succ_of_le (books.bounded c earlier),
        forall_mem_singleton.mpr (Nat.le_refl _)⟩
    · rw [map_append]
      refine nodup_append.mpr ⟨books.distinct, pairwise_singleton _ _, ?_⟩
      intro g listed fresh freshListed same
      obtain ⟨c, member, rfl⟩ := mem_map.mp listed
      have newest : fresh = generation row.entry + 1 := mem_singleton.mp freshListed
      have old := books.bounded c member
      omega
  cases outcome with
  | started pid startedAt | postChild pid startedAt => exact born pid startedAt
  | preChild | jobProtectionRefused => exact { books with calls := calls }
  | unowned recorded => cases recorded <;> exact { books with calls := calls }

section Handlers

variable (cfg : Config) (turn : Turn) (task : String)

theorem createProcess_safe (d : SupervisorDaemon)
    (books : Books row) (none : NoLive row) (spawning : row.state = .spawning) :
    Safe ⟨(createProcess cfg turn task d row).row, (createProcess cfg turn task d row).posts⟩ := by
  have refused : ∀ after : TaskRow, Fewer row after → Safe ⟨after, []⟩ :=
    fun after fewer => .quiet (books.fewer fewer) (.inl (none.fewer fewer))
  unfold createProcess
  split_ifs
  iterate 5 · exact refused _ (.of_same rfl rfl rfl)
  · have passed : Fewer row { row with gateCleared := false } := .of_same rfl rfl rfl
    have spawned := (books.fewer passed).spawned (none.fewer passed)
    have owns : mayOwnProcess row.state = true := by rw [spawning]; rfl
    cases turn.answers.spawn with
    | started pid startedAt =>
      exact .posting ((spawned (.started pid startedAt)).fewer (.of_same rfl rfl rfl)) (.inr owns)
        nofun rfl
    | postChild pid startedAt => exact .quiet (spawned (.postChild pid startedAt)) (.inr owns)
    | preChild => exact .posting (spawned .preChild) (.inl none) (fun _ => none) rfl
    | jobProtectionRefused =>
      exact .quiet ((spawned .jobProtectionRefused).fewer (.of_same rfl rfl rfl)) (.inl none)
    | unowned recorded =>
      exact .quiet (spawned (.unowned recorded)) (.inl (by cases recorded <;> exact none))

theorem handleBackoffWaiting_fewer (now : Int) (row : TaskRow) :
    Fewer row (handleBackoffWaiting cfg now row) := by
  unfold handleBackoffWaiting
  dsimp only
  split_ifs
  · unfold recordQuarantineParoleEligible
    split <;> exact .of_same rfl rfl rfl
  · exact .of_same rfl rfl rfl

theorem killGeneration_fewer (row : TaskRow) (gen : Nat) :
    Fewer row { row with children := killGeneration gen row.children } := by
  refine ⟨?_, ?_, rfl, rfl⟩
  · simp only [killGeneration, map_map]
    apply map_congr_left
    intro c _
    simp only [Function.comp_apply]
    split_ifs <;> rfl
  · intro c member alive
    obtain ⟨old, oldMember, rfl⟩ := mem_map.mp member
    refine ⟨old, oldMember, ?_⟩
    split_ifs at alive ⊢ with killed
    exact ⟨alive, rfl⟩

/-- The terminate callback reports a valid target dead only when no own child of its generation is
left. -/
theorem runTerminate_spec (row : TaskRow) (answer : TerminateAnswer)
    (expected : TerminationExpectedTuple) :
    Fewer row (runTerminate cfg row answer expected).1 ∧
      ((runTerminate cfg row answer expected).2.allowsSynthetic = true →
        expected.valid = true ∧
          hasLiveChild (runTerminate cfg row answer expected).1 expected.pidGeneration = false) := by
  unfold runTerminate
  have killedFewer : Fewer row (if answer.kills && expected.valid then
      { row with children := killGeneration expected.pidGeneration row.children } else row) := by
    split_ifs
    · exact killGeneration_fewer row _
    · exact .of_same rfl rfl rfl
  generalize (if answer.kills && expected.valid then
    { row with children := killGeneration expected.pidGeneration row.children } else row) = killed
    at killedFewer ⊢
  have honest : ∀ kind : TerminationOutcomeKind,
      (if hasLiveChild killed expected.pidGeneration && kind.reportsDead then .uncertain
        else kind).reportsDead = true → hasLiveChild killed expected.pidGeneration = false := by
    intro kind reported
    split_ifs at reported with lies
    · cases reported
    · simpa [reported] using lies
  cases cfg.terminateWiring with
  | outcome =>
    have truth := honest answer.kind
    dsimp only
    generalize (if hasLiveChild killed expected.pidGeneration && answer.kind.reportsDead then
      .uncertain else answer.kind) = kind at truth ⊢
    refine ⟨?_, ?_⟩
    · split_ifs
      · exact killedFewer.trans (.of_same rfl (generation_markExitedIfCurrent _ _) rfl)
      · exact killedFewer
    · intro synthetic
      obtain ⟨valid, reported⟩ := Bool.and_eq_true_iff.mp synthetic
      refine ⟨valid, ?_⟩
      have gone := truth reported
      split_ifs <;> exact gone
  | legacy =>
    dsimp only
    refine ⟨killedFewer, ?_⟩
    intro synthetic
    have kept : (terminationOutcomeFromLegacy expected answer.legacyError).expected.valid = true →
        expected.valid = true := by
      cases answer.legacyError with
      | none => nofun
      | some err => cases err <;> exact id
    have outcomeHonest := honest (terminationOutcomeFromLegacy expected answer.legacyError).kind
    split_ifs at synthetic outcomeHonest with lies
    · obtain ⟨_, reported⟩ := Bool.and_eq_true_iff.mp synthetic
      cases reported
    · obtain ⟨valid, reported⟩ := Bool.and_eq_true_iff.mp synthetic
      exact ⟨kept valid, outcomeHonest reported⟩
  | unwired =>
    refine ⟨.of_same rfl rfl rfl, ?_⟩
    intro synthetic
    cases (Bool.and_eq_true_iff.mp synthetic).2

theorem terminateProcess_safe (books : Books row) (exiting : row.state = .exiting) :
    Safe ⟨(terminateProcess cfg turn task row).row,
      (terminateProcess cfg turn task row).posts⟩ := by
  obtain ⟨fewer, dead⟩ := runTerminate_spec cfg row turn.answers.terminate
    (terminationExpectedTupleForTask row.entry)
  obtain ⟨children, entry, form⟩ := runTerminate_frame cfg row turn.answers.terminate
    (terminationExpectedTupleForTask row.entry)
  unfold terminateProcess
  dsimp only
  rw [form] at fewer dead ⊢
  have owns : mayOwnProcess row.state = true := exiting ▸ rfl
  have afterBooks := books.fewer fewer
  split_ifs with synthetic
  · refine .posting afterBooks (.inr owns) (fun _ => ?_) rfl
    simp only [Bool.and_eq_true] at synthetic
    obtain ⟨valid, gone⟩ := dead synthetic.1.1
    apply noLive_of_current afterBooks
    rw [fewer.generation, ← expected_generation row.entry valid]
    exact gone
  · exact .quiet afterBooks (.inr owns)

theorem executeSideEffect_safe (d : SupervisorDaemon) (side : SideEffect) {newState : SMState}
    (ev : SMEvent) (books : Books row) (stored : row.state = newState)
    (owned : NoLive row ∨ mayOwnProcess newState = true ∧ createsProcess side = false) :
    Safe ⟨(executeSideEffect cfg turn task d side newState ev row).row,
      (executeSideEffect cfg turn task d side newState ev row).posts⟩ := by
  have kept : Safe ⟨row, []⟩ := .quiet books (stored ▸ owned.imp_right And.left)
  unfold executeSideEffect
  cases newState with
  | spawning =>
    dsimp only
    split_ifs with asks
    · exact createProcess_safe cfg turn task d books
        (owned.resolve_right (fun owns => nomatch asks.symm.trans owns.2)) stored
    · exact kept
  | exiting => exact terminateProcess_safe cfg turn task books stored
  | running | idle => exact kept
  | backoffWaiting =>
    have none : NoLive row := owned.resolve_right (fun owns => nomatch owns.1)
    have fewer := handleBackoffWaiting_fewer cfg turn.answers.now row
    exact .quiet (books.fewer fewer) (.inl (none.fewer fewer))
  | quarantined =>
    have none : NoLive row := owned.resolve_right (fun owns => nomatch owns.1)
    dsimp only
    split_ifs
    · have fewer : Fewer row (recordQuarantineParoleEligible row turn.answers.now) := by
        unfold recordQuarantineParoleEligible
        split <;> exact .of_same rfl rfl rfl
      exact .quiet (books.fewer fewer) (.inl (none.fewer fewer))
    · exact kept

theorem Safe.fewer {v : View} (safe : Safe v) (fewer : Fewer v.row after)
    (state : after.state = v.row.state) : Safe { v with row := after } := by
  refine ⟨safe.books.fewer fewer, ?_, safe.single, ?_, safe.truthful⟩
  · exact safe.owned.imp (fun none => none.fewer fewer) (fun owns => state.symm ▸ owns)
  · intro ev member exit
    exact (safe.exits ev member exit).fewer fewer

theorem Safe.alone {v : View} (safe : Safe v) : Safe ⟨v.row, []⟩ := .quiet safe.books safe.owned

theorem storeTransition_fewer (prepared : Prepared) :
    Fewer prepared.row (storeTransition prepared) := by
  refine .of_same rfl ?_ rfl
  unfold storeTransition
  dsimp only
  split_ifs <;> rfl

theorem handleTaskEvent_safe (kind : EventKind)
    (body : EventBody) (safe : Safe ⟨row, []⟩)
    (exitMeans : kind.smEvent = .childExit → isStaleExit kind.smEvent body row = true ∨ NoLive row)
    (clearedMeans : body.runtimeCleared = true → NoLive row) :
    Safe (.after [] (handleTaskEvent cfg turn task kind body row)) := by
  have kept : ∀ after : TaskRow, SameCore row after → Safe ⟨after, []⟩ :=
    fun after core => safe.fewer (.of_core core) core.state
  have ended : isStaleExit kind.smEvent body row = false → kind.smEvent = .childExit →
      NoLive row := by
    intro fresh exit
    refine (exitMeans exit).resolve_left ?_
    rw [fresh]
    exact Bool.false_ne_true
  have plan := planTurn_cases cfg turn kind body row
  unfold handleTaskEvent
  generalize planTurn cfg turn kind body row = planned at plan ⊢
  cases plan with
  | gated core _ | stale core _ | orphaned core _ | deferred core _ | unmatched core _ _ _ =>
    exact kept _ core
  | @idled middle core exit fresh _ =>
    have fewer : Fewer row { middle with smState := some .idle } :=
      (Fewer.of_core core).trans (.of_same rfl rfl rfl)
    exact .quiet (safe.books.fewer fewer) (.inl ((ended fresh exit).fewer fewer))
  | @refused middle core exit fresh _ =>
    have fewer : Fewer row (armRespawnBackoffTimer { middle with
        smState := some .backoffWaiting, entry := some (markBackoff middle.entry) }) :=
      (Fewer.of_core core).trans (.of_same rfl rfl rfl)
    exact .quiet (safe.books.fewer fewer) (.inl ((ended fresh exit).fewer fewer))
  | @moves prepared core fresh _ _ started answer _ =>
    have fewer : Fewer row (storeTransition prepared) :=
      (Fewer.of_core core).trans (storeTransition_fewer prepared)
    have moved : NoLive row ∨ mayOwnProcess prepared.result.newState = true ∧
        createsProcess prepared.result.side = false := by
      by_cases none : NoLive row
      · exact .inl none
      · have owns := safe.owned.resolve_left none
        have notExit : kind.smEvent ≠ .childExit := fun exit => none (ended fresh exit)
        have same : prepared.current = row.state :=
          started.resolve_right (fun cleared => none (clearedMeans cleared.2.1))
        rw [answer, same]
        exact .inr (mayOwnProcess_of_not_childExit row.state _ _ owns notExit)
    exact executeSideEffect_safe cfg turn task _ _ _ (safe.books.fewer fewer) rfl
      (moved.imp_left (fun none => none.fewer fewer))

theorem applyStopTarget_safe (d : SupervisorDaemon) (safe : Safe ⟨row, []⟩) :
    Safe (.after [] (applyStopTarget cfg turn task d row)) := by
  obtain ⟨core, posts⟩ := applyStopTarget_cases cfg turn task d row
  have effect : Safe ⟨(applyAuthoritativeStopTransition cfg turn task d row).row,
      (applyAuthoritativeStopTransition cfg turn task d row).posts⟩ := by
    unfold applyAuthoritativeStopTransition
    dsimp only
    generalize answer : transition row.state .intentUpdate (stopContext cfg turn.answers.now row)
      = result
    have moved : NoLive row ∨ mayOwnProcess result.newState = true ∧
        createsProcess result.side = false := by
      refine safe.owned.imp id (fun owns => ?_)
      rw [← answer]
      exact mayOwnProcess_of_not_childExit row.state _ _ owns nofun
    have fewer : Fewer row (storeAuthoritativeStop row result) := by
      refine .of_same rfl ?_ rfl
      unfold storeAuthoritativeStop
      split_ifs <;> rfl
    have movedOwned := moved.imp_left (fun none : NoLive row => none.fewer fewer)
    split_ifs
    · exact safe
    · exact .quiet (safe.books.fewer fewer) (movedOwned.imp_right And.left)
    · exact executeSideEffect_safe cfg turn task d _ _ (safe.books.fewer fewer) rfl movedOwned
  have after := effect.fewer (.of_core core) core.state
  unfold View.after
  rw [posts]
  exact after

end Handlers

theorem advanceChild_spec {before after : ChildPhase} {children : List Child}
    (advanced : advanceChild gen before after children = some moved) (ends : after ≠ .alive) :
    moved.map Child.generation = children.map Child.generation ∧
      (∀ c ∈ moved, c.phase = .alive → c ∈ children) ∧
      ∃ c ∈ moved, c.generation = gen ∧ c.phase = after := by
  induction children generalizing moved with
  | nil => cases advanced
  | cons child rest ih =>
    rw [advanceChild] at advanced
    split_ifs at advanced with matched
    · cases advanced
      refine ⟨rfl, ?_, ⟨_, .head _, matched.1, rfl⟩⟩
      intro c member alive
      rcases mem_cons.mp member with rfl | later
      · exact absurd alive ends
      · exact .tail _ later
    · obtain ⟨restMoved, restAdvanced, rfl⟩ := Option.map_eq_some_iff.mp advanced
      obtain ⟨generations, live, c, member, known⟩ := ih restAdvanced
      refine ⟨?_, ?_, c, .tail _ member, known⟩
      · rw [map_cons, map_cons, generations]
      · intro other listed alive
        rcases mem_cons.mp listed with rfl | later
        · exact .head _
        · exact .tail _ (live other later alive)

theorem advanceChild_fewer {before after : ChildPhase} {entry : Option RuntimeEntry}
    (advanced : advanceChild gen before after row.children = some moved) (ends : after ≠ .alive)
    (same : generation entry = generation row.entry) :
    Fewer row { row with children := moved, entry := entry } := by
  obtain ⟨generations, live, _⟩ := advanceChild_spec advanced ends
  exact ⟨generations, fun c member alive => ⟨c, live c member alive, alive, rfl⟩, same, rfl⟩

theorem noLive_of_delivered (books : Books row)
    (told : ∃ c ∈ row.children, c.generation = gen ∧ c.phase = .delivered)
    (newest : ¬gen < generation row.entry) : NoLive row := by
  obtain ⟨exited, exitedMember, exitedGen, delivered⟩ := told
  intro c member alive
  have current := books.current c member alive
  have bound := books.bounded exited exitedMember
  have sameGeneration : c.generation = exited.generation := by omega
  have same : c = exited :=
    inj_on_of_nodup_map books.distinct member exitedMember sameGeneration
  rw [same, delivered] at alive
  cases alive

theorem deliverExit_means {child : Child} {exitCode : Int} {cleanExit : Bool} (books : Books row)
    (waited : waitedChild gen row = some child)
    (advanced : advanceChild gen .waited .delivered row.children = some moved) :
    isStaleExit .childExit (exitBody child exitCode cleanExit) { row with children := moved } = true ∨
      NoLive { row with children := moved } := by
  have fewer : Fewer row { row with children := moved } :=
    advanceChild_fewer advanced nofun rfl
  have movedBooks := books.fewer fewer
  have told := (advanceChild_spec advanced nofun).2.2
  have sameGen := waitedChild_generation waited
  have positive : 0 < gen := by
    obtain ⟨c, member, rfl, _⟩ := told
    exact movedBooks.positive c member
  by_cases older : gen < generation row.entry
  · left
    have tracked : row.entry.isSome = true := by
      cases tracked : row.entry with
      | none =>
        rw [tracked] at older
        exact absurd older (Nat.not_lt_zero gen)
      | some entry => rfl
    simp only [isStaleExit, exitBody, sameGen, positive, tracked, older, and_self, decide_true]
  · exact .inr (noLive_of_delivered movedBooks told older)

theorem hydrateSMState_safe {v : View} (safe : Safe v) :
    Safe { v with row := hydrateSMState v.row } := by
  have owned := safe.owned
  unfold hydrateSMState
  split
  · exact safe
  next missing =>
    have none : NoLive v.row := by
      refine owned.resolve_right ?_
      unfold TaskRow.state
      rw [missing]
      nofun
    have fewer : ∀ state, Fewer v.row { v.row with smState := some state } :=
      fun state => .of_same rfl rfl rfl
    exact ⟨safe.books.fewer (fewer _), .inl (none.fewer (fewer _)), safe.single,
      fun ev member exit => (safe.exits ev member exit).fewer (fewer _), safe.truthful⟩

theorem taskStep_safe (cfg : Config) (task : String) (v : View) (label : Label) (next : View)
    (safe : Safe v) (moved : taskStep cfg task v label = some next) : Safe next := by
  cases taskStep_cases moved with
  | @selfTurn turn ev rest queue =>
    have alone : rest = [] := by
      have single := safe.single
      rw [queue, length_cons] at single
      exact length_eq_zero_iff.mp (by omega)
    have posted : ev ∈ v.pending := queue ▸ List.Mem.head rest
    subst alone
    refine handleTaskEvent_safe cfg turn task ev.kind ev.body safe.alone
      (fun exit => .inr (safe.exits ev posted exit)) (fun cleared => ?_)
    rw [safe.truthful ev posted] at cleared
    cases cleared
  | @post ev body turn _ posted truthful =>
    refine handleTaskEvent_safe cfg turn task (.sm ev) body safe.alone
      (fun exit => ?_) (fun cleared => ?_)
    · rw [show ev = .childExit from exit] at posted
      cases posted
    · apply noLive_of_current safe.books
      simpa [truthfulBody, cleared] using truthful
  | @exit _ _ _ turn _ children _ waited advanced =>
    have fewer : Fewer v.row { v.row with children := children } :=
      advanceChild_fewer advanced nofun rfl
    exact handleTaskEvent_safe cfg turn task .ownedChildWaitExit _ (safe.alone.fewer fewer rfl)
      (fun _ => deliverExit_means safe.books waited advanced) nofun
  | @paroled _ parole =>
    have fewer : Fewer v.row { v.row with quarantineParole := parole } := .of_same rfl rfl rfl
    exact .posting (safe.books.fewer fewer) (safe.owned.imp (fun none => none.fewer fewer) id)
      nofun rfl
  | @stop _ d turn _ receipt =>
    have fewer : Fewer v.row { v.row with receipt := receipt } := .of_same rfl rfl rfl
    exact applyStopTarget_safe cfg turn task d (safe.alone.fewer fewer rfl)
  | child short advanced same =>
    exact safe.fewer (advanceChild_fewer advanced (by rcases short with rfl | rfl <;> nofun) same) rfl
  | aside => exact safe.fewer (.of_same rfl rfl rfl) rfl
  | hydrate => exact hydrateSMState_safe safe

theorem booted_safe (booted : Booted row) : Safe ⟨row, []⟩ := by
  have none {P : Child → Prop} : ∀ c ∈ row.children, P c := by
    rw [booted.noChildren]
    exact nofun
  refine .quiet ⟨none, none, none, ?_, ?_⟩ (.inl none)
  · rw [booted.noChildren]
    exact nodup_nil
  · rw [booted.noRecords.1]
    exact nofun

theorem reachable_safe {cfg : Config} {w : World}
    (reached : Reachable Initial (step cfg) always w) (task : String) : Safe (view task w) :=
  view_invariant (fun _ booted => booted_safe booted) (taskStep_safe cfg task) reached

/-- In every reachable state a task has at most one live own child, and none was spawned beside a
live one. -/
theorem single_live_child {cfg : Config} {w : World}
    (reached : Reachable Initial (step cfg) always w) (task : String) :
    (w.rows task).liveChildren.length ≤ 1 ∧ ∀ call ∈ (w.rows task).spawnCalls, call.live = 0 := by
  have books : Books (w.rows task) := (reachable_safe reached task).books
  exact ⟨liveChildren_length_le books, books.calls⟩

theorem single_live_child_restarted :
    ∃ w, Reachable Initial (step wiredConfig) always w ∧
      (w.rows "\\memory").spawnCalls.length = 2 ∧
      ((w.rows "\\memory").liveChildren.length ≤ 1 ∧
        ∀ call ∈ (w.rows "\\memory").spawnCalls, call.live = 0) := by
  refine (exists_reachable (step wiredConfig) (coldStart memoryFile [])
    [.post .start "memory" {} (obliging (.started 41 1)),
      .selfTurn (obliging .preChild),
      .post .manualRestart "memory" {} (obliging .preChild),
      .childWaited "\\memory" 1,
      .deliverExit "memory" 1 1 false (obliging (.started 42 2))]
    (coldStart_initial memoryFile []) ?_).imp
    (fun w found => ⟨found.1, found.2, single_live_child found.1 "\\memory"⟩)
  decide +kernel

end McpLocalHub.Supervisor.SingleChild
