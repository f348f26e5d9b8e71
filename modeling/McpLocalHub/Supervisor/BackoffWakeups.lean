/- Module: Supervisor/BackoffWakeups
   source: internal/cli/supervisor_controller.go
   digest: An intent snapshot leaves every task in backoff with something that wakes it. -/

import McpLocalHub.Supervisor.BackoffTurns

set_option autoImplicit false

namespace McpLocalHub.Supervisor.BackoffWakeups

open Foundation.Runs StateMachine Intents RuntimeTracker Controller StopBatch Lifecycle Reap List
open ReapFrames OrphanReap TaskView BackoffTimers BackoffTurns

theorem mem_taskNames_iff {cache : Option SupervisorIntentFile} {task : String}
    (plain : plainTaskName task = true) :
    task ∈ taskNames cache ↔ (lookupCanonical cache task).isSome = true := by
  cases cache with
  | none => exact ⟨nofun, nofun⟩
  | some file =>
    constructor
    · intro listed
      obtain ⟨d, inside, named⟩ := mem_map.mp listed
      have rows (name : String) (same : d.taskName = name) : (file.lookup name).isSome = true := by
        refine List.find?_isSome.mpr ⟨d, mem_reverse.mpr inside, ?_⟩
        exact decide_eq_true same
      change ((file.lookup task).or (file.lookup (alternateTaskName task))).isSome = true
      rw [Option.isSome_or, Bool.or_eq_true]
      unfold canonicalSupervisorTaskName at named
      split_ifs at named
      · exact .inl (rows task named)
      · refine .inr (rows _ ?_)
        have slashed : hasBackslash task = true := named ▸ hasBackslash_cons d.taskName
        unfold alternateTaskName
        rw [if_pos slashed, ← named]
        apply String.toList_inj.mp
        simp [String.toList_append]
    · intro found
      obtain ⟨d, cached⟩ := Option.isSome_iff_exists.mp found
      refine mem_map.mpr ⟨d, ?_, canonical_of_lookup plain cached⟩
      rcases Option.or_eq_some_iff.mp cached with exact | ⟨_, bare⟩
      · exact mem_reverse.mp (mem_of_find?_eq_some exact)
      · exact mem_reverse.mp (mem_of_find?_eq_some bare)

/-- What holds of the task between the stages of a snapshot: a shadow may be ahead of its mark,
and the cache ahead of both. -/
structure Loose (timers : ℕ → TimerPhase) (queued : Prop) (row : TaskRow) : Prop where
  fresh : ∀ n, row.respawnArmEpoch < n → timers n = .waiting
  marked : row.pendingReap.isSome = true → row.reapShadow.isSome = true
  latest : Waits row → 0 < row.respawnArmEpoch ∧ row.respawnArmGen = some row.respawnArmEpoch
  wake : Waits row → Wake timers queued row

structure Tidy (shown : Prop) (row : TaskRow) : Prop where
  shadowed : row.reapShadow.isSome = true → row.pendingReap.isSome = true
  routed : ¬shown → Waits row → row.pendingReap.isSome = true

section Row

variable {timers : ℕ → TimerPhase} {queued queued' known shown : Prop} {row : TaskRow}

theorem Loose.of_awake (awake : Awake timers queued known row) : Loose timers queued row where
  fresh := awake.fresh
  marked := fun marked => awake.shadowed.trans marked
  latest := awake.latest
  wake := awake.wake

section

variable (loose : Loose timers queued row)

include loose

theorem Loose.awake (tidy : Tidy shown row)
    (found : shown → known) : Awake timers queued known row := by
  refine ⟨⟨loose.fresh, ?_, loose.latest, ?_⟩, loose.wake⟩
  · exact Bool.eq_iff_iff.mpr ⟨tidy.shadowed, loose.marked⟩
  · intro held unmarked
    by_cases present : shown
    · exact found present
    · have marked := tidy.routed present held
      rw [unmarked] at marked
      cases marked

theorem Loose.mono (grow : queued → queued') : Loose timers queued' row :=
  { loose with wake := fun held => (loose.wake held).mono grow }

theorem Loose.shadow (d : SupervisorDaemon) :
    Loose timers queued { row with reapShadow := some d } where
  fresh := loose.fresh
  marked := fun _ => rfl
  latest := loose.latest
  wake := by
    intro held
    cases loose.wake held with
    | timer running => exact .timer running
    | event there => exact .event there
    | deferred marked noted => exact .deferred marked noted

theorem Loose.clear : Loose timers queued' (clearRemovedTaskRuntime row) where
  fresh := loose.fresh
  marked := nofun
  latest := nofun
  wake := nofun

end

theorem Tidy.clear (row : TaskRow) : Tidy shown (clearRemovedTaskRuntime row) where
  shadowed := nofun
  routed := nofun

theorem markPendingReap_arms (d : SupervisorDaemon) (row : TaskRow) :
    (markPendingReap d row).smState = row.smState ∧
      arms (markPendingReap d row) = { arms row with pending := some d, shadow := some d } := by
  unfold markPendingReap armReapFollowup
  dsimp only
  split_ifs <;> exact ⟨rfl, rfl⟩

theorem Loose.of_arms {after : TaskRow} (loose : Loose timers queued row)
    (state : after.smState = row.smState) (same : arms after = arms row) :
    Loose timers queued after := by
  have before (held : Waits after) : Waits row := state.symm.trans held
  obtain ⟨epoch, generation, -, pending, shadow⟩ := Arms.mk.inj same
  refine ⟨?_, ?_, fun held => ?_, fun held => (loose.wake (before held)).of_same same⟩
  · rw [epoch]
    exact loose.fresh
  · rw [pending, shadow]
    exact loose.marked
  · rw [epoch, generation]
    exact loose.latest (before held)

theorem Loose.mark (loose : Loose timers queued row) (unmarked : row.pendingReap = none)
    (d : SupervisorDaemon) : Loose timers queued (markPendingReap d row) := by
  obtain ⟨state, same⟩ := markPendingReap_arms d row
  have marked : Loose timers queued { row with pendingReap := some d, reapShadow := some d } := by
    refine { loose with marked := fun _ => rfl, wake := fun held => ?_ }
    cases loose.wake held with
    | timer running => exact .timer running
    | event there => exact .event there
    | deferred before => exact absurd (unmarked ▸ before) nofun
  exact marked.of_arms state same

theorem reappear_spec (task : String) (intent : DaemonIntent) (now : Int) (row : TaskRow) :
    (reappear task intent now row).1.smState = row.smState ∧
      arms (reappear task intent now row).1 =
        { arms row with deferred := false, pending := none, shadow := none } ∧
      (row.reapDeferredTimerDue = true →
        ⟨.sm .timerDue, task, {}⟩ ∈ (reappear task intent now row).2) := by
  obtain ⟨_, _, _, same, -, replayed⟩ := reappear_form task intent now row
  rw [same]
  exact ⟨rfl, rfl, replayed⟩

theorem Loose.reappear (loose : Loose timers queued row) (task : String) (intent : DaemonIntent)
    (now : Int) (grow : queued → queued') (replayed : row.reapDeferredTimerDue = true → queued') :
    Loose timers queued' (reappear task intent now row).1 := by
  obtain ⟨state, same, _⟩ := reappear_spec task intent now row
  have back : Loose timers queued'
      { row with reapDeferredTimerDue := false, pendingReap := none, reapShadow := none } := by
    refine { loose with marked := nofun, wake := fun held => ?_ }
    cases loose.wake held with
    | timer running => exact .timer running
    | event there => exact .event (grow there)
    | deferred _ noted => exact .event (replayed noted)
  exact back.of_arms state same

end Row

def Queued (task : String) (due : Prop) (w : World) : Prop :=
  due ∨ TimerPending (pendingFor task w.selfCh)

def LooseIn (task : String) (timers : ℕ → TimerPhase) (due : Prop) (w : World) : Prop :=
  Loose timers (Queued task due w) (w.rows task)

def AwakeIn (task : String) (timers : ℕ → TimerPhase) (due : Prop) (w : World) : Prop :=
  Awake timers (Queued task due w) ((lookupCanonical w.intentCache task).isSome = true)
    (w.rows task)

section Snapshot

variable {task : String} {timers : ℕ → TimerPhase} {due : Prop}

variable {w : World} {key : String} {row : TaskRow} {next : List String}

theorem Queued.post (queued : Queued task due w) (key : String)
    (result : TaskRow × List LoopEvent) : Queued task due (w.store key result) := by
  refine queued.imp id ?_
  intro pending
  change TimerPending (pendingFor task (w.selfCh ++ result.2))
  rw [pendingFor_append]
  exact pending.append _

theorem LooseIn.setRow (loose : LooseIn task timers due w)
    (own : key = task → Loose timers (Queued task due w) row) :
    LooseIn task timers due (w.setRow key row) := by
  unfold LooseIn
  rw [rows_setRow]
  split_ifs with same
  · exact own same.symm
  · exact loose

theorem LooseIn.installShadow (loose : LooseIn task timers due w)
    (entry : String × SupervisorDaemon) : LooseIn task timers due (installShadow w entry) := by
  unfold Reap.installShadow
  split_ifs
  · refine loose.setRow ?_
    rintro rfl
    exact Loose.shadow loose entry.2
  · exact loose

variable {acc : World × List SupervisorDaemon} {tasks : List String}
  {entry : String × SupervisorDaemon}

theorem LooseIn.resolvePending (loose : LooseIn task timers due acc.1) (next : List String)
    (now : Int) (key : String) (canonical : canonicalSupervisorTaskName task = task) :
    LooseIn task timers due (resolvePending next now acc key).1 := by
  have cases := resolvePending_cases next now acc key
  generalize Reap.resolvePending next now acc key = after at cases
  cases cases with
  | skipped | collected => exact loose
  | back =>
    unfold LooseIn
    rw [rows_store]
    split_ifs with same
    · subst same
      refine Loose.reappear loose _ _ _ (fun queued => queued.post _ _) ?_
      intro noted
      have posted := (reappear_spec task (lookupStop acc.1.stops task) now (acc.1.rows task)).2.2 noted
      refine .inr ⟨⟨.sm .timerDue, task, {}⟩, ?_, rfl⟩
      change _ ∈ pendingFor task (acc.1.selfCh ++ _)
      rw [pendingFor_append]
      refine mem_append_right _ (mem_filter.mpr ⟨posted, ?_⟩)
      exact decide_eq_true canonical
    · exact loose.mono (fun queued => queued.post _ _)
  | settled =>
    refine loose.setRow ?_
    rintro rfl
    exact loose.clear

theorem LooseIn.markAbsent {w : Fleet} (loose : LooseIn task timers due w.supervisor)
    (next : List String) (captured : List (String × SupervisorDaemon)) (key : String) :
    LooseIn task timers due (markAbsent next captured w key).supervisor := by
  have cleared : LooseIn task timers due
      (w.supervisor.setRow key (clearRemovedTaskRuntime (w.supervisor.rows key))) := by
    refine loose.setRow ?_
    rintro rfl
    exact loose.clear
  unfold Reap.markAbsent
  dsimp only
  split_ifs with out settled
  · exact loose
  · exact cleared
  · split
    · exact cleared
    next d _ =>
      refine loose.setRow ?_
      rintro rfl
      exact loose.mark (Option.not_isSome_iff_eq_none.mp (not_or.mp out).2) d

theorem captureAbsent_mem
    (listed : entry ∈ captureAbsent w next tasks) : entry.1 ∈ tasks ∧ entry.1 ∉ next := by
  obtain ⟨name, inside, taken⟩ := mem_filterMap.mp listed
  split_ifs at taken with out
  obtain ⟨d, _, rfl⟩ := Option.map_eq_some_iff.mp taken
  exact ⟨inside, fun present => out (.inl present)⟩

private theorem installShadow_other (w : World)
    (other : entry.1 ≠ task) : (installShadow w entry).rows task = w.rows task := by
  unfold installShadow
  split_ifs
  · rw [rows_setRow, if_neg (Ne.symm other)]
  · rfl

private theorem tidy_resolvePending
    (tidy : Tidy (task ∈ next) (acc.1.rows task)) (now : Int) (key : String) :
    Tidy (task ∈ next) ((resolvePending next now acc key).1.rows task) := by
  have cases := resolvePending_cases next now acc key
  generalize resolvePending next now acc key = after at cases
  cases cases with
  | skipped | collected => exact tidy
  | back present =>
    rw [rows_store]
    split_ifs with same
    · subst same
      have shadow : (reappear task (lookupStop acc.1.stops task) now (acc.1.rows task)).1.reapShadow =
        none := congrArg Arms.shadow
          (reappear_spec task (lookupStop acc.1.stops task) now (acc.1.rows task)).2.1
      refine ⟨?_, fun absent => absurd present absent⟩
      nofun
    · exact tidy
  | settled =>
    rw [rows_setRow]
    split_ifs
    · exact .clear _
    · exact tidy

def Handled (row : TaskRow) : Prop :=
  row.pendingReap.isSome = true ∨ ¬Waits row ∧ row.reapShadow = none

theorem Handled.tidy {shown : Prop} (handled : Handled row) : Tidy shown row := by
  rcases handled with marked | ⟨out, unshadowed⟩
  · exact ⟨fun _ => marked, fun _ _ => marked⟩
  · refine ⟨?_, fun _ held => absurd held out⟩
    rw [unshadowed]
    nofun

private theorem markAbsent_other (next : List String) (captured : List (String × SupervisorDaemon))
    (w : Fleet) (other : key ≠ task) :
    (markAbsent next captured w key).row task = w.row task := by
  have unmoved (row : TaskRow) : (w.setRow key row).row task = w.row task := by
    change (w.supervisor.setRow key row).rows task = _
    rw [rows_setRow, if_neg (Ne.symm other)]
    rfl
  unfold markAbsent
  dsimp only
  split_ifs
  · rfl
  · exact unmoved _
  · split
    · exact unmoved _
    · exact unmoved _

private theorem markAbsent_own (absent : task ∉ next)
    (captured : List (String × SupervisorDaemon)) (w : Fleet) :
    Handled ((markAbsent next captured w task).row task) := by
  have stored (row : TaskRow) : (w.setRow task row).row task = row := by
    change (w.supervisor.setRow task row).rows task = _
    rw [rows_setRow, if_pos rfl]
  unfold markAbsent
  dsimp only
  split_ifs with out
  · exact .inl (out.resolve_left absent)
  · rw [stored]
    exact .inr ⟨nofun, rfl⟩
  · split
    · rw [stored]
      exact .inr ⟨nofun, rfl⟩
    next d _ =>
      refine .inl ?_
      change ((w.setRow task (markPendingReap d (w.row task))).row task).pendingReap.isSome = true
      rw [stored, show (markPendingReap d (w.row task)).pendingReap = some d from
        congrArg Arms.pending (markPendingReap_arms d (w.row task)).2]
      rfl

private theorem handled_of_visited (absent : task ∉ next)
    (captured : List (String × SupervisorDaemon)) (visited : task ∈ tasks)
    (w : Fleet) : Handled ((tasks.foldl (markAbsent next captured) w).row task) := by
  induction tasks generalizing w with
  | nil => cases visited
  | cons head rest ih =>
    by_cases later : task ∈ rest
    · exact ih later _
    · obtain rfl := (mem_cons.mp visited).resolve_right later
      refine List.foldlRecOn (motive := fun after : Fleet => Handled (after.row task)) rest
        (markAbsent next captured) (markAbsent_own absent captured w) ?_
      intro middle handled key listed
      rw [markAbsent_other next captured middle (ne_of_mem_of_not_mem listed later)]
      exact handled

theorem canonical_of_plain (plain : plainTaskName task = true) :
    canonicalSupervisorTaskName task = task := by
  obtain ⟨second, rest, parts, _⟩ := plainTaskName_spec plain
  refine if_pos (.inr ?_)
  simp [hasBackslash, parts]

theorem AwakeIn.confirm (awake : AwakeIn task timers due w) (cfg : Config)
    (answers : String → Answers) (d : SupervisorDaemon) :
    AwakeIn task timers due (resolveConfirmedReap cfg answers w d) := by
  by_cases own : canonicalSupervisorTaskName d.taskName = task
  · obtain ⟨out, same | cleared⟩ := settleReap_outside cfg (w.turn task (answers task)) task d
      (w.rows task)
    all_goals
      unfold AwakeIn resolveConfirmedReap
      rw [own, rows_store, if_pos rfl]
    · exact awake.toSettled.outside out same
    · exact awake.toSettled.cleared out cleared
  · have unmoved := resolve_other cfg answers w own
    unfold AwakeIn
    rw [unmoved]
    exact Awake.mono awake (fun queued => queued.post _ _)

theorem AwakeIn.setRow (awake : AwakeIn task timers due w)
    (own : key = task → Awake timers (Queued task due w)
      ((lookupCanonical w.intentCache task).isSome = true) row) :
    AwakeIn task timers due (w.setRow key row) := by
  unfold AwakeIn
  rw [rows_setRow]
  split_ifs with same
  · exact own same.symm
  · exact awake

theorem AwakeIn.clear (awake : AwakeIn task timers due w) (key : String) :
    AwakeIn task timers due (w.setRow key (clearRemovedTaskRuntime (w.rows key))) := by
  refine awake.setRow ?_
  rintro rfl
  exact awake.toSettled.cleared nofun rfl

section Stages

variable {w : Fleet} (previous : List String) (updated : Option SupervisorIntentFile)
  (stops : Option (List (String × DaemonIntent))) (now : Int) (order : List String)
  (plain : plainTaskName task = true) (awake : AwakeIn task timers due w.supervisor)

include plain awake

private theorem loose_applySnapshot :
    let after := (applyReapSnapshot w previous updated stops now order).1.supervisor
    LooseIn task timers due after ∧ after.intentCache = updated := by
  unfold applyReapSnapshot
  dsimp only
  generalize (previous ++ taskNames w.supervisor.intentCache).dedup = tasks
  generalize captureAbsent w.supervisor (taskNames updated) tasks = captured
  have shadows : LooseIn task timers due (captured.foldl installShadow w.supervisor) :=
    List.foldlRecOn (motive := LooseIn task timers due) captured installShadow
      (.of_awake awake)
      (fun _ holds entry _ => holds.installShadow entry)
  have resolved : LooseIn task timers due
        (order.foldl (resolvePending (taskNames updated) now)
          (swapCaches updated stops (captured.foldl installShadow w.supervisor), [])).1 ∧
      (order.foldl (resolvePending (taskNames updated) now)
          (swapCaches updated stops (captured.foldl installShadow w.supervisor), [])).1.intentCache =
        updated := by
    refine List.foldlRecOn
      (motive := fun acc : World × List SupervisorDaemon =>
        LooseIn task timers due acc.1 ∧ acc.1.intentCache = updated)
      order (resolvePending (taskNames updated) now) ⟨shadows, rfl⟩ ?_
    rintro acc ⟨holds, cache⟩ key _
    refine ⟨holds.resolvePending _ now key (canonical_of_plain plain), ?_⟩
    have cases := resolvePending_cases (taskNames updated) now acc key
    generalize resolvePending (taskNames updated) now acc key = after at cases
    cases cases <;> exact cache
  refine List.foldlRecOn
    (motive := fun after : Fleet =>
      LooseIn task timers due after.supervisor ∧ after.supervisor.intentCache = updated)
    tasks (markAbsent (taskNames updated) captured) resolved ?_
  rintro middle ⟨holds, cache⟩ key _
  refine ⟨holds.markAbsent _ captured key, ?_⟩
  unfold markAbsent
  dsimp only
  split_ifs
  · exact cache
  · exact cache
  · split <;> exact cache

private theorem tidy_applySnapshot : Tidy (task ∈ taskNames updated)
      ((applyReapSnapshot w previous updated stops now order).1.row task) := by
  unfold applyReapSnapshot
  by_cases visited : task ∉ taskNames updated ∧
      task ∈ (previous ++ taskNames w.supervisor.intentCache).dedup
  · exact (handled_of_visited visited.1 _ visited.2 _).tidy
  · have start : Tidy (task ∈ taskNames updated) (w.supervisor.rows task) := by
      refine ⟨fun shadow => awake.shadowed.symm.trans shadow, ?_⟩
      intro absent held
      by_contra unmarked
      have known := awake.routed held (Option.not_isSome_iff_eq_none.mp unmarked)
      refine visited ⟨absent, mem_dedup.mpr (mem_append_right _ ?_)⟩
      exact (mem_taskNames_iff plain).mpr known
    generalize (previous ++ taskNames w.supervisor.intentCache).dedup = tasks at visited ⊢
    generalize taskNames updated = next at *
    have shadows : Tidy (task ∈ next)
        (((captureAbsent w.supervisor next tasks).foldl installShadow w.supervisor).rows task) := by
      refine List.foldlRecOn (motive := fun after : World => Tidy (task ∈ next) (after.rows task))
        _ installShadow start ?_
      intro middle tidy entry listed
      rw [installShadow_other]
      · exact tidy
      · rintro rfl
        obtain ⟨inside, absent⟩ := captureAbsent_mem listed
        exact visited ⟨absent, inside⟩
    have resolved : Tidy (task ∈ next) ((order.foldl (resolvePending next now)
        (swapCaches updated stops ((captureAbsent w.supervisor next tasks).foldl installShadow
          w.supervisor), [])).1.rows task) :=
      List.foldlRecOn
        (motive := fun acc : World × List SupervisorDaemon => Tidy (task ∈ next) (acc.1.rows task))
        order (resolvePending next now) shadows (fun acc tidy key _ => tidy_resolvePending tidy now key)
    refine List.foldlRecOn (motive := fun after : Fleet => Tidy (task ∈ next) (after.row task))
      tasks _ resolved ?_
    intro middle tidy key listed
    by_cases same : key = task
    · subst same
      have present : key ∈ next := by
        by_contra absent
        exact visited ⟨absent, listed⟩
      unfold markAbsent
      rw [if_pos (.inl present)]
      exact tidy
    · rw [markAbsent_other _ _ middle same]
      exact tidy

theorem AwakeIn.applySnapshot :
    AwakeIn task timers due (applyReapSnapshot w previous updated stops now order).1.supervisor := by
  obtain ⟨loose, cache⟩ := loose_applySnapshot previous updated stops now order plain awake
  unfold AwakeIn
  rw [cache]
  exact loose.awake (tidy_applySnapshot previous updated stops now order plain awake)
    (mem_taskNames_iff plain).mp

theorem AwakeIn.scan (cfg : Config) (answers : String → Answers) : AwakeIn task timers due
      (handleReapScan cfg w previous updated stops now order answers).supervisor :=
  List.foldlRecOn (motive := AwakeIn task timers due) _ (resolveConfirmedReap cfg answers)
    (awake.applySnapshot previous updated stops now order plain)
    (fun _ holds d _ => holds.confirm cfg answers d)

end Stages

private theorem AwakeIn.followupMark (awake : AwakeIn task timers due w) (key : String)
    (state : row.smState = (w.rows key).smState)
    (same : arms row = arms (w.rows key)) : AwakeIn task timers due (w.setRow key row) := by
  refine awake.setRow ?_
  rintro rfl
  exact awake.of_same state same

theorem AwakeIn.followup {w : Fleet} (plain : plainTaskName task = true)
    (awake : AwakeIn task timers due w.supervisor) (cfg : Config) (name : String) (generation : Nat)
    (fresh : Option (Option SupervisorIntentFile)) (now : Int) (order : List String)
    (answers : String → Answers) :
    AwakeIn task timers due
      (handleReapFollowup cfg w name generation fresh now order answers).supervisor := by
  unfold handleReapFollowup
  generalize canonicalSupervisorTaskName name = key
  by_cases outdated : (w.row key).reapGeneration ≠ some generation
  · rw [if_pos outdated]
    exact awake
  rw [if_neg outdated]
  have fired : AwakeIn task timers due (w.setRow key (disarmReapFollowup (w.row key))).supervisor :=
    awake.followupMark key rfl rfl
  generalize w.setRow key (disarmReapFollowup (w.row key)) = disarmed at fired
  split
  · exact fired
  · have rearmed : (armReapFollowup (disarmed.row key)).smState = (disarmed.row key).smState ∧
        arms (armReapFollowup (disarmed.row key)) = arms (disarmed.row key) := by
      unfold armReapFollowup
      dsimp only
      split_ifs <;> exact ⟨rfl, rfl⟩
    exact fired.followupMark key rearmed.1 rearmed.2
  next d file _ =>
    unfold resolveFollowup
    dsimp only
    split_ifs
    · have applied := fired.applySnapshot (taskNames disarmed.supervisor.intentCache) file
        (some (stopsAsDaemonIntentFile file)) now order plain
      unfold confirmReapForTask
      split
      · exact applied
      · exact applied.confirm cfg answers _
    · exact fired.clear key
    · exact fired.confirm cfg answers d

end Snapshot

end McpLocalHub.Supervisor.BackoffWakeups
