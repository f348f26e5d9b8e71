/- Module: Supervisor/OrphanReap
   source: internal/cli/supervisor_controller.go
   digest: A daemon is reaped only when its task was absent twice, with no sight of it in
   between. -/

import McpLocalHub.Supervisor.ReapFrames

set_option autoImplicit false

namespace McpLocalHub.Supervisor.OrphanReap

open Foundation.Runs StateMachine Intents Controller StopBatch Lifecycle Reap ReapFrames List

def plainTaskName (name : String) : Bool :=
  match name.toList with
  | first :: second :: _ => first = '\\' ∧ second ≠ '\\'
  | _ => false

def plainFile (file : Option SupervisorIntentFile) : Bool := (taskNames file).all plainTaskName

def plainAction : ReapAction → Bool
  | .loop (.stopBatch command _ _ _) => plainFile command.supervisorIntent
  | .loop _ => true
  | .scan previous updated _ _ _ _ => previous.all plainTaskName && plainFile updated
  | .followup _ _ fresh _ _ _ => plainFile fresh.join

def PlainNames (_ : Fleet) (action : ReapAction) : Prop := plainAction action = true
  deriving Decidable

def StartedPlain (w : Fleet) : Prop := Started w ∧ plainFile w.supervisor.intentCache = true

variable {name : String} {shows : ReapRecord → Prop} {generation : ℕ} {log : List ReapRecord}
  {entry : ReapRecord} {action : Action} {tasks previous : List String}
  {updated : Option SupervisorIntentFile}

theorem plainTaskName_spec (plain : plainTaskName name = true) :
    ∃ second rest, name.toList = '\\' :: second :: rest ∧ second ≠ '\\' := by
  unfold plainTaskName at plain
  split at plain
  next first second rest parts =>
    obtain ⟨rfl, other⟩ := of_decide_eq_true plain
    exact ⟨second, rest, parts, other⟩
  · cases plain

theorem plain_ne_empty (plain : plainTaskName name = true) : name ≠ "" := by
  rintro rfl
  cases plain

variable {task : String} {d : SupervisorDaemon} {cfg : Config} {after : World} {w : Fleet}
  {next order : List String}

theorem canonical_of_lookup {cache : Option SupervisorIntentFile}
    (plain : plainTaskName task = true) (found : lookupCanonical cache task = some d) :
    canonicalSupervisorTaskName d.taskName = task := by
  obtain ⟨second, rest, parts, other⟩ := plainTaskName_spec plain
  have slashed : hasBackslash task = true := by
    simp [hasBackslash, parts]
  cases cache with
  | none => cases found
  | some file =>
    rcases Option.or_eq_some_iff.mp found with exact | ⟨_, bare⟩
    · have same : d.taskName = task := by simpa using List.find?_some exact
      rw [same]
      exact if_pos (.inr slashed)
    · have same : d.taskName = alternateTaskName task := by simpa using List.find?_some bare
      have tail : alternateTaskName task = String.ofList (second :: rest) := by
        rw [alternateTaskName, if_pos slashed, parts]
        rfl
      have bareName : ¬(String.ofList (second :: rest) = "" ∨
          hasBackslash (String.ofList (second :: rest)) = true) := by
        rintro (empty | slash)
        · have none := congrArg String.toList empty
          simp at none
        · simp [hasBackslash] at slash
          exact other slash
      rw [same, tail, canonicalSupervisorTaskName, if_neg bareName]
      apply String.toList_inj.mp
      rw [String.toList_append, parts]
      simp

/-- The record shows the task in a snapshot that was applied. -/
def Shows (task : String) : ReapRecord → Prop
  | .scanned names => task ∈ names
  | .reread reader _ names => reader ∈ names ∧ task ∈ names
  | .marked _ _ _ => False

def Mentions (task : String) : ReapRecord → Prop
  | .scanned names | .reread _ _ names => task ∈ names
  | .marked _ _ _ => False

def WindowUnder (shows : ReapRecord → Prop) (task : String) (generation : ℕ)
    (log : List ReapRecord) : Prop :=
  ∃ old names middle, log = old ++ .marked task generation names :: middle ∧ task ∉ names ∧
    ∀ entry ∈ middle, ¬shows entry

theorem WindowUnder.append (window : WindowUnder shows task generation log)
    (hidden : ¬shows entry) : WindowUnder shows task generation (log ++ [entry]) := by
  obtain ⟨old, names, middle, parts, absent, quiet⟩ := window
  refine ⟨old, names, middle ++ [entry], ?_, absent, ?_⟩
  · rw [parts, append_assoc, cons_append]
  · exact forall_mem_append.mpr ⟨quiet, forall_mem_singleton.mpr hidden⟩

theorem not_windowUnder_of_last {reader : String} {gen : ℕ} {names : List String}
    (shown : shows (.reread reader gen names)) :
    ¬WindowUnder shows task generation (log ++ [.reread reader gen names]) := by
  rintro ⟨old, marks, middle, parts, _, quiet⟩
  rcases eq_nil_or_concat middle with rfl | ⟨front, last, rfl⟩
  · have same := congrArg List.getLast? parts
    simp at same
  · have regrouped : log ++ [.reread reader gen names] =
        (old ++ .marked task generation marks :: front) ++ [last] := by
      rw [parts, concat_eq_append, append_assoc, cons_append]
    have same : [ReapRecord.reread reader gen names] = [last] := (append_inj' regrouped rfl).2
    rw [concat_eq_append] at quiet
    refine quiet last (mem_append.mpr (.inr (mem_singleton.mpr rfl))) ?_
    rw [← singleton_injective same]
    exact shown

theorem intentCache_step {w : World} (moved : Lifecycle.step cfg w action = some after) :
    after.intentCache = w.intentCache ∨
      ∃ command now write answers file selected, action = .stopBatch command now write answers ∧
        admittedBatch cfg w command now = some (file, selected) ∧
        after.intentCache = selected.intentCache := by
  have receipts (batchID : String) (listed : List StopBatchTarget) (epoch index : ℕ)
      (before : World) :
      (beginReceipts batchID epoch index listed before).intentCache = before.intentCache := by
    induction listed generalizing epoch index before with
    | nil => rfl
    | cons target rest ih => exact ih _ _ _
  cases action with
  | stopBatch command now write answers =>
    simp only [Lifecycle.step] at moved
    split_ifs at moved
    cases moved
    unfold handleStopBatchOnLoop
    cases admitted : admittedBatch cfg w command now with
    | none => exact .inl rfl
    | some batch =>
      obtain ⟨file, selected⟩ := batch
      refine .inr ⟨command, now, write, answers, file, selected, rfl, admitted, ?_⟩
      cases write with
      | persistFailed | raced => rfl
      | ok =>
        dsimp only
        rw [TaskView.applyTargets_eq, TaskView.storeEach_cache, receipts]
  | selfTurn answers =>
    simp only [Lifecycle.step] at moved
    split at moved
    · cases moved
    · cases moved
      exact .inl rfl
  | deliverExit task generation exitCode cleanExit answers =>
    simp only [Lifecycle.step] at moved
    split_ifs at moved
    split at moved
    · cases moved
      exact .inl rfl
    · cases moved
  | paroleTick now visited =>
    simp only [Lifecycle.step] at moved
    split_ifs at moved
    · cases moved
      exact .inl rfl
    · cases moved
      rw [TaskView.paroleVisits_eq]
      exact .inl (TaskView.storeEach_cache ..)
  | post | stopRecovery | dwellTick =>
    simp only [Lifecycle.step] at moved
    split_ifs at moved
    cases moved
    exact .inl rfl
  | childDies task generation | childWaited task generation =>
    obtain ⟨children, _, rfl⟩ := Option.map_eq_some_iff.mp moved
    exact .inl rfl
  | settle task change =>
    simp only [Lifecycle.step] at moved
    split at moved
    · cases moved
    · obtain ⟨next, _, rfl⟩ := Option.map_eq_some_iff.mp moved
      exact .inl rfl
  | refreshStops | setGraceful | clearGate | hydrate =>
    cases moved
    exact .inl rfl

theorem cache_step {w : World} (moved : Lifecycle.step cfg w action = some after)
    (plain : plainFile w.intentCache = true) (named : plainAction (.loop action) = true) :
    plainFile after.intentCache = true := by
  rcases intentCache_step moved with
    same | ⟨command, now, write, answers, file, selected, rfl, admitted, cache⟩
  · rw [same]
    exact plain
  · obtain ⟨stops, snapshot, _, _, chosen⟩ := admittedBatch_spec admitted
    rw [cache]
    rcases chosen with rfl | rfl
    · exact plain
    · have sent : command.supervisorIntent = some file := by
        unfold StopBatchCommand.snapshot at snapshot
        split_ifs at snapshot
        split at snapshot
        next given _ givenFile _ =>
          cases snapshot
          exact givenFile
        · cases snapshot
      rw [← sent]
      exact named

structure Windows (w : Fleet) : Prop where
  window : ∀ task d, (w.row task).pendingReap = some d →
    canonicalSupervisorTaskName d.taskName = task ∧
      ∃ generation, (w.row task).reapGeneration = some generation ∧
        WindowUnder (Shows task) task generation w.log
  plain : ∀ task, (w.row task).pendingReap.isSome = true → plainTaskName task = true
  keyed : ∀ task, (w.row task).pendingReap.isSome = true → task ∈ w.reapKeys
  cache : plainFile w.supervisor.intentCache = true

theorem Windows.stage (inv : Windows w) (kept : ∀ task, Kept (w.row task) (after.rows task))
    (cache : plainFile after.intentCache = true) : Windows { w with supervisor := after } := by
  have same (task : String) (d : SupervisorDaemon)
      (pending : (after.rows task).pendingReap = some d) :
      (w.row task).pendingReap = some d ∧
        (after.rows task).reapGeneration = (w.row task).reapGeneration := by
    rcases kept task with gone | ⟨mark, generation⟩
    · rw [gone] at pending
      cases pending
    · exact ⟨mark ▸ pending, generation⟩
  have held (task : String) (pending : (after.rows task).pendingReap.isSome = true) :
      (w.row task).pendingReap.isSome = true := by
    obtain ⟨d, is⟩ := Option.isSome_iff_exists.mp pending
    rw [(same task d is).1]
    rfl
  refine ⟨?_, fun task pending => inv.plain task (held task pending),
    fun task pending => inv.keyed task (held task pending), cache⟩
  intro task d pending
  obtain ⟨before, generation⟩ := same task d pending
  obtain ⟨named, gen, current, window⟩ := inv.window task d before
  exact ⟨named, gen, generation.trans current, window⟩

theorem Windows.setRow (inv : Windows w) {row : TaskRow}
    (kept : Kept (w.row task) row) : Windows (w.setRow task row) := by
  refine inv.stage (fun other => ?_) inv.cache
  rw [rows_setRow]
  split_ifs with same
  · exact same ▸ kept
  · exact .refl _

theorem Windows.record (inv : Windows w)
    (hidden : ∀ task, (w.row task).pendingReap.isSome = true → ¬Shows task entry) :
    Windows (w.record entry) := by
  refine ⟨?_, inv.plain, inv.keyed, inv.cache⟩
  intro task d pending
  obtain ⟨named, generation, current, window⟩ := inv.window task d pending
  refine ⟨named, generation, current, window.append (hidden task ?_)⟩
  rw [show (w.row task).pendingReap = some d from pending]
  rfl

theorem Windows.mark (inv : Windows w) (absent : task ∉ next) (plain : plainTaskName task = true)
    (named : canonicalSupervisorTaskName d.taskName = task) :
    Windows (({ w.setRow task (markPendingReap d (w.row task)) with
      reapKeys := w.reapKeys.insert task } : Fleet).record
        (.marked task ((w.row task).reapGeneration.getD 0 + 1) next)) := by
  generalize result : Fleet.record _ _ = after
  have marked := markPendingReap_spec d (w.row task)
  have here : after.row task = markPendingReap d (w.row task) := by
    subst result
    exact (rows_setRow ..).trans (if_pos rfl)
  have there {other : String} (differs : other ≠ task) : after.row other = w.row other := by
    subst result
    exact (rows_setRow ..).trans (if_neg differs)
  refine ⟨fun other found pending => ?_, fun other pending => ?_, fun other pending => ?_, ?_⟩
  · by_cases same : other = task
    · subst same
      rw [here, marked.1, Option.some.injEq] at pending
      subst pending
      refine ⟨named, _, (congrArg TaskRow.reapGeneration here).trans marked.2, ?_⟩
      exact ⟨w.log, next, [], result ▸ rfl, absent, nofun⟩
    · rw [there same] at pending ⊢
      obtain ⟨name, generation, current, window⟩ := inv.window other found pending
      exact ⟨name, generation, current, result ▸ window.append id⟩
  · by_cases same : other = task
    · exact same ▸ plain
    · exact inv.plain other (there same ▸ pending)
  · rw [← result]
    refine mem_insert_iff.mpr (or_iff_not_imp_left.mpr fun differs => ?_)
    exact inv.keyed other (there differs ▸ pending)
  · exact result ▸ inv.cache

theorem captured_spec {w : World} (found : (captureAbsent w next tasks).lookup task = some d) :
    task ∈ tasks ∧ task ∉ next ∧ lookupCanonical w.intentCache task = some d := by
  obtain ⟨front, back, parts, _⟩ := lookup_eq_some_iff.mp found
  have listed : (task, d) ∈ captureAbsent w next tasks := by
    rw [parts]
    exact mem_append.mpr (.inr (.head back))
  obtain ⟨other, inside, taken⟩ := mem_filterMap.mp listed
  split_ifs at taken with out
  obtain ⟨descriptor, cached, same⟩ := Option.map_eq_some_iff.mp taken
  cases same
  exact ⟨inside, fun present => out (.inl present), cached⟩

structure Swept (w : Fleet) (next : List String) (after : Fleet) : Prop where
  windows : Windows after
  gone : ∀ task ∈ next, (after.row task).pendingReap = none
  quiet : ∀ task, Quiet (w.row task) (after.row task)

theorem arm2_spec (old : World) (visited : List String)
    (inv : Windows w) (plain : ∀ task ∈ tasks, plainTaskName task = true)
    (gone : ∀ task ∈ next, (w.row task).pendingReap = none) :
    Swept w next (visited.foldl (markAbsent next (captureAbsent old next tasks)) w) := by
  refine List.foldlRecOn (motive := Swept w next) visited
    (markAbsent next (captureAbsent old next tasks)) ⟨inv, gone, fun _ => .refl _⟩ ?_
  rintro middle ⟨windows, none, quiet⟩ task listed
  have cleared : Swept w next (middle.setRow task (clearRemovedTaskRuntime (middle.row task))) := by
    have stage := Stage.setRow middle.supervisor (kept_clear (middle.row task))
      (quiet_clear (middle.row task))
    refine ⟨windows.setRow (kept_clear _), ?_, fun other => (quiet other).trans (stage.quiet other)⟩
    intro other present
    rcases stage.kept other with lost | ⟨same, _⟩
    · exact lost
    · exact same.trans (none other present)
  unfold markAbsent
  by_cases out : task ∈ next ∨ (middle.row task).pendingReap.isSome = true
  · rw [if_pos out]
    exact ⟨windows, none, quiet⟩
  · rw [if_neg out]
    by_cases settled : smStateIsReapable (middle.row task) = false
    · rw [if_pos settled]
      exact cleared
    · rw [if_neg settled]
      cases captured : (captureAbsent old next tasks).lookup task with
      | none => exact cleared
      | some d =>
        obtain ⟨inside, absent, cached⟩ := captured_spec captured
        refine ⟨windows.mark absent (plain task inside)
          (canonical_of_lookup (plain task inside) cached), fun other present => ?_, fun other => ?_⟩
        · change ((middle.supervisor.setRow task _).rows other).pendingReap = _
          rw [rows_setRow, if_neg]
          · exact none other present
          · rintro rfl
            exact absent present
        · change Quiet _ ((middle.supervisor.setRow task _).rows other)
          rw [rows_setRow]
          split_ifs with same
          · exact (quiet other).trans (same ▸ quiet_markPendingReap d (middle.row task))
          · exact quiet other

/-- A snapshot leaves the invariant, no mark on a task that it shows, and every daemon as it was. -/
theorem apply_spec (inv : Windows w) (stops : Option (List (String × DaemonIntent)))
    (now : Int) (ranged : order.Perm w.pendingKeys)
    (plainPrevious : previous.all plainTaskName = true) (plainUpdated : plainFile updated = true) :
    Windows (applyReapSnapshot w previous updated stops now order).1 ∧
      (∀ task ∈ taskNames updated,
        ((applyReapSnapshot w previous updated stops now order).1.row task).pendingReap = none) ∧
      (∀ task, Quiet (w.row task)
        ((applyReapSnapshot w previous updated stops now order).1.row task)) ∧
      ∀ d ∈ (applyReapSnapshot w previous updated stops now order).2,
        Collected w.supervisor (taskNames updated) d := by
  let next := taskNames updated
  let tasks := (previous ++ taskNames w.supervisor.intentCache).dedup
  let shadowed := (captureAbsent w.supervisor next tasks).foldl installShadow w.supervisor
  let swapped := swapCaches updated stops shadowed
  have shadows : Stage w.supervisor shadowed := stage_shadows ..
  obtain ⟨resolved, collected⟩ := arm1_spec swapped next now order
  have stage : Stage w.supervisor (order.foldl (resolvePending next now) (swapped, [])).1 :=
    ⟨fun task => (shadows.kept task).trans (resolved.kept task),
      fun task => (shadows.quiet task).trans (resolved.quiet task)⟩
  have cache : (order.foldl (resolvePending next now) (swapped, [])).1.intentCache = updated := by
    refine List.foldlRecOn (motive := fun acc : World × List SupervisorDaemon =>
      acc.1.intentCache = updated) order (resolvePending next now) rfl ?_
    intro acc same task _
    have cases := resolvePending_cases next now acc task
    generalize resolvePending next now acc task = after at cases
    cases cases <;> exact same
  have plainTasks : ∀ task ∈ tasks, plainTaskName task = true := by
    intro task listed
    rcases mem_append.mp (mem_dedup.mp listed) with old | current
    · exact all_eq_true.mp plainPrevious task old
    · exact all_eq_true.mp inv.cache task current
  have windows := inv.stage stage.kept (by rw [cache]; exact plainUpdated)
  have gone : ∀ task ∈ next,
      ((order.foldl (resolvePending next now) (swapped, [])).1.rows task).pendingReap = none := by
    intro task present
    by_cases visited : task ∈ order
    · have pending : (w.row task).pendingReap.isSome = true :=
        (mem_filter.mp (ranged.mem_iff.mp visited)).2
      exact arm1_cancels present (plain_ne_empty (inv.plain task pending)) now visited _
    · have unmarked : (w.row task).pendingReap = none := by
        by_contra marked
        have pending := Option.ne_none_iff_isSome.mp marked
        exact visited (ranged.mem_iff.mpr (mem_filter.mpr ⟨inv.keyed task pending, pending⟩))
      rcases stage.kept task with lost | ⟨same, _⟩
      · exact lost
      · exact same.trans unmarked
  obtain ⟨marked, hidden, quiet⟩ := arm2_spec w.supervisor tasks windows plainTasks gone
  refine ⟨marked, hidden, fun task => (stage.quiet task).trans (quiet task), ?_⟩
  intro d listed
  obtain ⟨task, pending, absent⟩ := collected d listed
  refine ⟨task, ?_, absent⟩
  rcases shadows.kept task with lost | ⟨same, _⟩
  · rw [show (swapped.rows task).pendingReap = none from lost] at pending
    cases pending
  · exact same ▸ pending

theorem kept_resolve (cfg : Config) (answers : String → Answers) (w : World)
    (d : SupervisorDaemon) (task : String) :
    Kept (w.rows task) ((resolveConfirmedReap cfg answers w d).rows task) := by
  unfold resolveConfirmedReap
  rw [rows_store]
  split_ifs with same
  · rw [← same]
    exact (kept_reapRemovedDaemon ..).trans (kept_settleReap _ _)
  · exact .refl _

theorem resolve_other (cfg : Config) (answers : String → Answers) (w : World)
    (other : canonicalSupervisorTaskName d.taskName ≠ task) :
    (resolveConfirmedReap cfg answers w d).rows task = w.rows task := by
  unfold resolveConfirmedReap
  rw [rows_store, if_neg (Ne.symm other)]

theorem resolveAll_spec (cfg : Config) (answers : String → Answers)
    (candidates : List SupervisorDaemon) (w : World) :
    (∀ task, Kept (w.rows task)
        ((candidates.foldl (resolveConfirmedReap cfg answers) w).rows task)) ∧
      (candidates.foldl (resolveConfirmedReap cfg answers) w).intentCache = w.intentCache ∧
      ∀ task, (∀ d ∈ candidates, canonicalSupervisorTaskName d.taskName ≠ task) →
        (candidates.foldl (resolveConfirmedReap cfg answers) w).rows task = w.rows task := by
  refine List.foldlRecOn
    (motive := fun after : World => (∀ task, Kept (w.rows task) (after.rows task)) ∧
      after.intentCache = w.intentCache ∧
      ∀ task, (∀ d ∈ candidates, canonicalSupervisorTaskName d.taskName ≠ task) →
        after.rows task = w.rows task)
    candidates (resolveConfirmedReap cfg answers) ⟨fun _ => .refl _, rfl, fun _ _ => rfl⟩ ?_
  rintro middle ⟨kept, cache, same⟩ d listed
  refine ⟨fun task => (kept task).trans (kept_resolve cfg answers middle d task), cache, ?_⟩
  intro task others
  rw [resolve_other cfg answers middle (others d listed)]
  exact same task others

/-- What the step that drives a task knows: its mark, and its absence from what the step read. -/
structure Confirmed (w : Fleet) (task : String) (names : List String) : Prop where
  marked : (w.row task).pendingReap.isSome = true
  absent : task ∉ names

theorem scan_spec (inv : Windows w) (stops : Option (List (String × DaemonIntent))) (now : Int)
    (answers : String → Answers) (ranged : order.Perm w.pendingKeys)
    (plainPrevious : previous.all plainTaskName = true) (plainUpdated : plainFile updated = true) :
    Windows (handleReapScan cfg w previous updated stops now order answers) ∧
      ∀ task, Driven (w.row task)
          ((handleReapScan cfg w previous updated stops now order answers).row task) →
        Confirmed w task (taskNames updated) := by
  obtain ⟨windows, gone, quiet, collected⟩ :=
    apply_spec inv stops now ranged plainPrevious plainUpdated
  unfold handleReapScan
  generalize applyReapSnapshot w previous updated stops now order = applied
    at windows gone quiet collected
  have scanned : Windows (applied.1.record (.scanned (taskNames updated))) := by
    refine windows.record ?_
    intro task pending shown
    rw [gone task shown] at pending
    cases pending
  obtain ⟨kept, cache, others⟩ := resolveAll_spec cfg answers applied.2 applied.1.supervisor
  have plainAfter : plainFile
      (applied.2.foldl (resolveConfirmedReap cfg answers) applied.1.supervisor).intentCache =
        true := by
    rw [cache]
    exact windows.cache
  refine ⟨scanned.stage kept plainAfter, ?_⟩
  intro task driven
  by_contra unconfirmed
  have foreign : ∀ d ∈ applied.2, canonicalSupervisorTaskName d.taskName ≠ task := by
    intro d listed own
    obtain ⟨key, pending, absent⟩ := collected d listed
    have named := (inv.window key d pending).1
    rw [named] at own
    subst own
    refine unconfirmed ⟨?_, absent⟩
    rw [show (w.row key).pendingReap = some d from pending]
    rfl
  have same : (applied.2.foldl (resolveConfirmedReap cfg answers) applied.1.supervisor).rows task =
      applied.1.row task := others task foreign
  have still : Quiet (w.row task)
      ((applied.2.foldl (resolveConfirmedReap cfg answers) applied.1.supervisor).rows task) := by
    rw [same]
    exact quiet task
  exact still.not_driven driven

/-- The follow-up drives its own task alone, under its own generation and after a read that does
not show it. -/
structure FollowupConfirmed (w : Fleet) (name : String) (generation : ℕ)
    (fresh : Option (Option SupervisorIntentFile)) (task : String) : Prop where
  own : canonicalSupervisorTaskName name = task
  current : (w.row task).reapGeneration = some generation
  read : ∃ file, fresh = some file ∧ Confirmed w task (taskNames file)

theorem resolveFollowup_spec (cfg : Config) (inv : Windows w) (generation : ℕ)
    (pending : (w.row task).pendingReap = some d) {fresh : Option SupervisorIntentFile} (now : Int)
    (answers : String → Answers) (ranged : order.Perm w.pendingKeys)
    (plainFresh : plainFile fresh = true) :
    Windows (resolveFollowup cfg w task generation d fresh now order answers) ∧
      ∀ other, Driven (w.row other)
          ((resolveFollowup cfg w task generation d fresh now order answers).row other) →
        task = other ∧ Confirmed w other (taskNames fresh) := by
  have marked : (w.row task).pendingReap.isSome = true := by
    rw [pending]
    rfl
  unfold resolveFollowup
  dsimp only
  by_cases present : task ∈ taskNames fresh
  · rw [if_pos present]
    obtain ⟨windows, gone, quiet, collected⟩ := apply_spec inv
      (some (stopsAsDaemonIntentFile fresh)) now ranged inv.cache plainFresh
    generalize applyReapSnapshot w (taskNames w.supervisor.intentCache) fresh
      (some (stopsAsDaemonIntentFile fresh)) now order = applied at windows gone quiet collected
    have reread : Windows (applied.1.record (.reread task generation (taskNames fresh))) := by
      refine windows.record ?_
      intro other held shown
      rw [gone other shown.2] at held
      cases held
    have foreign : applied.2.find? (fun c => canonicalSupervisorTaskName c.taskName = task) =
        none := by
      refine List.find?_eq_none.mpr ?_
      intro c listed own
      obtain ⟨key, held, absent⟩ := collected c listed
      have named := (inv.window key c held).1
      have same : canonicalSupervisorTaskName c.taskName = task := by simpa using own
      rw [named] at same
      exact absent (same ▸ present)
    have unchanged (before : World) :
        confirmReapForTask cfg answers task applied.2 before = before := by
      unfold confirmReapForTask
      rw [foreign]
    rw [unchanged]
    refine ⟨reread, ?_⟩
    intro other driven
    exact absurd driven (quiet other).not_driven
  · rw [if_neg present]
    have reread : Windows (w.record (.reread task generation (taskNames fresh))) :=
      inv.record (fun other held shown => present shown.1)
    by_cases settled : smStateIsReapable
        ((w.record (.reread task generation (taskNames fresh))).row task) = false
    · rw [if_pos settled]
      refine ⟨reread.setRow (kept_clear _), ?_⟩
      intro other driven
      have stage := Stage.setRow w.supervisor (kept_clear (w.row task)) (quiet_clear (w.row task))
      exact absurd driven (stage.quiet other).not_driven
    · rw [if_neg settled]
      refine ⟨reread.stage (fun other => kept_resolve cfg answers w.supervisor d other)
        inv.cache, ?_⟩
      intro other driven
      by_cases own : task = other
      · subst own
        exact ⟨rfl, marked, present⟩
      · have named := (inv.window task d pending).1
        have same := resolve_other cfg answers w.supervisor (named.trans_ne own)
        have still : Quiet (w.row other)
            ((resolveConfirmedReap cfg answers w.supervisor d).rows other) := by
          rw [same]
          exact .refl _
        exact absurd driven still.not_driven

theorem followup_spec (inv : Windows w) (name : String) (generation : ℕ)
    {fresh : Option (Option SupervisorIntentFile)} (now : Int) (answers : String → Answers)
    (ranged : order.Perm w.pendingKeys) (plainFresh : plainFile fresh.join = true) :
    Windows (handleReapFollowup cfg w name generation fresh now order answers) ∧
      ∀ task, Driven (w.row task)
          ((handleReapFollowup cfg w name generation fresh now order answers).row task) →
        FollowupConfirmed w name generation fresh task := by
  unfold handleReapFollowup
  by_cases stale : (w.row (canonicalSupervisorTaskName name)).reapGeneration ≠ some generation
  · rw [if_pos stale]
    exact ⟨inv, fun task driven => absurd driven (Quiet.refl _).not_driven⟩
  · rw [if_neg stale]
    generalize own : canonicalSupervisorTaskName name = task at stale
    have current : (w.row task).reapGeneration = some generation := not_not.mp stale
    have keptFired : Kept (w.row task) (disarmReapFollowup (w.row task)) := .inr ⟨rfl, rfl⟩
    have quietFired : Quiet (w.row task) (disarmReapFollowup (w.row task)) := ⟨rfl, rfl, id⟩
    have fired : Windows (w.setRow task (disarmReapFollowup (w.row task))) := inv.setRow keptFired
    have stage := Stage.setRow w.supervisor keptFired quietFired
    have row : (w.setRow task (disarmReapFollowup (w.row task))).row task =
        disarmReapFollowup (w.row task) := by
      refine (rows_setRow ..).trans ?_
      rw [if_pos rfl]
    cases pending : (w.row task).pendingReap with
    | none =>
      refine ⟨fired, ?_⟩
      intro other driven
      exact absurd driven (stage.quiet other).not_driven
    | some d =>
      cases fresh with
      | none =>
        refine ⟨fired.setRow (kept_armReapFollowup _), ?_⟩
        intro other driven
        have armed := Stage.setRow (w.setRow task (disarmReapFollowup (w.row task))).supervisor
          (kept_armReapFollowup ((w.setRow task (disarmReapFollowup (w.row task))).row task))
          (quiet_armReapFollowup _)
        exact absurd driven ((stage.quiet other).trans (armed.quiet other)).not_driven
      | some file =>
        have rangedFired : order.Perm
            (w.setRow task (disarmReapFollowup (w.row task))).pendingKeys := by
          refine ranged.trans (List.Perm.of_eq (filter_congr ?_))
          intro other _
          refine congrArg Option.isSome ?_
          change _ = ((w.supervisor.setRow task _).rows other).pendingReap
          rw [rows_setRow]
          split_ifs with same
          · rw [same]
            rfl
          · rfl
        have pendingFired : ((w.setRow task (disarmReapFollowup (w.row task))).row
            task).pendingReap = some d := by
          rw [row]
          exact pending
        obtain ⟨windows, confirmed⟩ := resolveFollowup_spec cfg fired generation pendingFired now
          answers rangedFired plainFresh
        refine ⟨windows, ?_⟩
        intro other driven
        obtain ⟨same, read⟩ := confirmed other (driven.of_quiet (stage.quiet other))
        subst same
        refine ⟨own, current, file, rfl, ?_, read.absent⟩
        rw [pending]
        rfl

theorem started_windows (started : StartedPlain w) : Windows w := by
  obtain ⟨⟨⟨_, booted⟩, _, _⟩, cache⟩ := started
  have unmarked {what : Prop} (task : String) (pending : (w.row task).pendingReap.isSome = true) :
      what := by
    rw [show (w.row task).pendingReap = none from (booted task).noReap.1] at pending
    cases pending
  exact ⟨fun task d pending => unmarked task (by rw [pending]; rfl),
    fun task => unmarked task, fun task => unmarked task, cache⟩

theorem step_spec {after : Fleet} {action : ReapAction} (inv : Windows w)
    (plain : PlainNames w action) (moved : Reap.step cfg w action = some after) :
    Windows after ∧ ∀ task, Driven (w.row task) (after.row task) →
      match action with
      | .loop _ => True
      | .scan _ updated _ _ _ _ => Confirmed w task (taskNames updated)
      | .followup name generation fresh _ _ _ => FollowupConfirmed w name generation fresh task := by
  cases action with
  | loop action =>
    obtain ⟨next, stepped, rfl⟩ := Option.map_eq_some_iff.mp moved
    exact ⟨inv.stage (reap_step stepped) (cache_step stepped inv.cache plain), fun _ _ => trivial⟩
  | scan previous updated stops now order answers =>
    simp only [Reap.step] at moved
    split_ifs at moved with free
    cases moved
    obtain ⟨plainPrevious, plainUpdated⟩ := Bool.and_eq_true_iff.mp plain
    exact scan_spec inv stops now answers free.2 plainPrevious plainUpdated
  | followup name generation fresh now order answers =>
    simp only [Reap.step] at moved
    split_ifs at moved with free
    cases moved
    exact followup_spec inv name generation now answers free.2 plain

/-- In every run over plain names, a step of the reap path drives a task only when it was absent
from the snapshot that marked it, no snapshot applied since has shown it, and it is absent again:
from the scan at hand, or from the file that its own follow-up has read under the generation of the
mark. -/
theorem reap_needs_two_absences {cfg : Config} {w after : Fleet} {action : ReapAction}
    {task : String} (reached : Reachable StartedPlain (Reap.step cfg) PlainNames w)
    (plain : PlainNames w action) (moved : Reap.step cfg w action = some after)
    (driven : Driven (w.row task) (after.row task)) :
    match action with
    | .loop _ => True
    | .scan _ updated _ _ _ _ =>
      task ∉ taskNames updated ∧ ∃ generation, WindowUnder (Shows task) task generation w.log
    | .followup name generation fresh _ _ _ =>
      canonicalSupervisorTaskName name = task ∧
        (∃ file, fresh = some file ∧ task ∉ taskNames file) ∧
        WindowUnder (Shows task) task generation w.log := by
  have inv : Windows w :=
    reached.invariant (fun _ started => started_windows started)
      (fun _ _ _ inv plain moved => (step_spec inv plain moved).1)
  have confirmed := (step_spec inv plain moved).2 task driven
  cases action with
  | loop action => trivial
  | scan previous updated stops now order answers =>
    obtain ⟨marked, absent⟩ := confirmed
    obtain ⟨d, pending⟩ := Option.isSome_iff_exists.mp marked
    obtain ⟨_, generation, _, window⟩ := inv.window task d pending
    exact ⟨absent, generation, window⟩
  | followup name generation fresh now order answers =>
    obtain ⟨own, current, file, read, marked, absent⟩ := confirmed
    obtain ⟨d, pending⟩ := Option.isSome_iff_exists.mp marked
    obtain ⟨_, gen, held, window⟩ := inv.window task d pending
    rw [current, Option.some.injEq] at held
    subst held
    exact ⟨own, ⟨file, read, absent⟩, window⟩

def filesDaemon : SupervisorDaemon := ⟨"\\files", ["daemon", "files"], false, 9102, none⟩

def bothFile : SupervisorIntentFile := ⟨1, [memoryDaemon, filesDaemon], []⟩

def emptyFile : SupervisorIntentFile := ⟨2, [], []⟩

def bothStarted : Fleet := { supervisor := coldStart bothFile [] }

theorem bothStarted_plain : StartedPlain bothStarted :=
  ⟨⟨coldStart_initial bothFile [], rfl, rfl⟩, by decide +kernel⟩

def bothMarked : List ReapAction :=
  [.loop (.post .start "\\memory" {} (obliging (.started 4711 1))),
    .loop (.selfTurn (obliging .preChild)),
    .loop (.post .start "\\files" {} (obliging (.started 4712 1))),
    .loop (.selfTurn (obliging .preChild)),
    .scan [] (some emptyFile) none 0 [] (fun _ => obliging .preChild)]

def memoryFollowup : ReapAction :=
  .followup "\\memory" 1 (some (some emptyFile)) 0 ["\\files", "\\memory"]
    (fun _ => obliging .preChild)

def drives (w : Fleet) (action : ReapAction) (task : String) : Bool :=
  (Reap.step wiredConfig w action).any (fun after => Driven (w.row task) (after.row task))

theorem reap_needs_two_absences_confirmed :
    ∃ w after, Reachable StartedPlain (Reap.step wiredConfig) PlainNames w ∧
      Reap.step wiredConfig w memoryFollowup = some after ∧
      Driven (w.row "\\memory") (after.row "\\memory") ∧
      WindowUnder (Shows "\\memory") "\\memory" 1 w.log := by
  obtain ⟨w, reached, driven⟩ : ∃ w, Reachable StartedPlain (Reap.step wiredConfig) PlainNames w ∧
      drives w memoryFollowup "\\memory" = true :=
    exists_reachable_under _ bothStarted bothMarked bothStarted_plain (by decide +kernel)
  obtain ⟨after, moved, drove⟩ := (Option.any_eq_true _ _).mp driven
  have plain : plainAction memoryFollowup = true := by decide +kernel
  exact ⟨w, after, reached, moved, of_decide_eq_true drove,
    (reap_needs_two_absences reached plain moved (of_decide_eq_true drove)).2.2⟩

/-- The follow-up of the other daemon reads a file that has the first one back and does not apply
it, so the first daemon is stopped. -/
theorem sibling_read_ignored :
    ∃ w after, Reachable StartedPlain (Reap.step wiredConfig) PlainNames w ∧
      Reap.step wiredConfig w memoryFollowup = some after ∧
      Driven (w.row "\\memory") (after.row "\\memory") ∧
      ∀ generation, ¬WindowUnder (Mentions "\\memory") "\\memory" generation w.log := by
  obtain ⟨w, run, driven, log⟩ := end_of_execUnder (Reap.step wiredConfig) PlainNames bothStarted
    (bothMarked ++ [.followup "\\files" 1 (some (some memoryFile)) 0 ["\\files", "\\memory"]
      (fun _ => obliging .preChild)])
    (fun w => drives w memoryFollowup "\\memory" = true ∧
      w.log = [.marked "\\memory" 1 [], .marked "\\files" 1 [], .scanned []] ++
        [.reread "\\files" 1 ["\\memory"]]) (by decide +kernel)
  obtain ⟨after, moved, drove⟩ := (Option.any_eq_true _ _).mp driven
  refine ⟨w, after, ⟨_, _, bothStarted_plain, run⟩, moved, of_decide_eq_true drove, ?_⟩
  intro generation
  rw [log]
  exact not_windowUnder_of_last (mem_singleton.mpr rfl)

end McpLocalHub.Supervisor.OrphanReap
