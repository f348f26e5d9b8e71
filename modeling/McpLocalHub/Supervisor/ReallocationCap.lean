/- Module: Supervisor/ReallocationCap
   source: internal/cli/supervise_realloc.go
   digest: The loop and the reallocation worker on one task, and the moves that a window can
   hold. -/

import McpLocalHub.Supervisor.BackoffTimers

set_option autoImplicit false

namespace McpLocalHub.Supervisor.ReallocationCap

open Foundation.Runs StateMachine Intents RuntimeTracker Controller BackoffTimers List

structure ReallocReq where
  d : SupervisorDaemon
  attempt : Nat

/-- What waits in the loop's channel: an exit, a foreign holder of the port, or an outcome of the
worker. -/
inductive LoopPost
  | childExit (body : EventBody)
  | preSpawnRealloc
  | reallocApplied (outcome : ReallocOutcome)

inductive Worker
  | idle
  | reallocating (req : ReallocReq)
  | returning

/-- The task's row with both channels and the marker. `completed` records the moves since the window
was dropped. -/
structure Realloc where
  row : TaskRow
  posts : List LoopPost := []
  reallocCh : List ReallocReq := []
  reallocInFlight : Bool := false
  worker : Worker := .idle
  reallocFailCount : Nat := 0
  clock : Int := 0
  completed : List Int := []

def tryDispatchRealloc (full : Bool) (req : ReallocReq) (s : Realloc) : Realloc :=
  if s.reallocInFlight = true ∨ full = true then s
  else { s with reallocInFlight := true, reallocCh := s.reallocCh ++ [req] }

def asksToMove (cfg : Config) (now : Int) (d : SupervisorDaemon) (row : TaskRow) :
    LoopPost → Bool
  | .childExit body =>
    !isStaleExit .childExit body row && !body.cleanExit &&
      takesBindRefusedExit cfg now d row.state .childExit body row
  | .preSpawnRealloc =>
    decide (row.smState = some .backoffWaiting) && isDynamicPoolProxyDescriptor d
  | .reallocApplied _ => false

/-- A turn that may decide on a move. The window is only peeked at here. -/
def decideMove (cfg : Config) (now : Int) (cached : Option SupervisorDaemon) (full : Bool)
    (post : LoopPost) (s : Realloc) : Realloc :=
  match cached.or s.row.reapShadow with
  | none => s
  | some d =>
    if asksToMove cfg now d s.row post then
      match dispatchDynamicPoolRealloc cfg now s.row with
      | none => s
      | some held =>
        let attempt := countInWindow s.row.reallocations now cfg.failureWindow + 1
        tryDispatchRealloc full ⟨d, attempt⟩ { s with row := held }
    else s

/-- `handleReallocApplied`; the descriptor cache that it moves is an input of every turn. -/
def applyOutcome (cfg : Config) (now : Int) (cached : Option SupervisorDaemon) (s : Realloc) :
    ReallocOutcome → Realloc
  | .reallocated _ _ _ =>
    let stamps := (recordAndCountInWindow s.row.reallocations now cfg.failureWindow).1
    { s with
      row := rearmHeld cached { s.row with reallocations := stamps }
      reallocFailCount := 0
      completed := s.completed ++ [now] }
  | .poolExhausted =>
    if s.row.smState = some .backoffWaiting then { s with row := quarantineAfterRealloc now s.row }
    else s
  | .failed =>
    if s.row.smState = some .backoffWaiting ∧ (cached.or s.row.reapShadow).isSome = true then
      if reallocFailedEscalationBound < s.reallocFailCount + 1 then
        { s with row := quarantineAfterRealloc now s.row, reallocFailCount := 0 }
      else
        { s with
          row := armRespawnBackoffTimer s.row
          reallocFailCount := s.reallocFailCount + 1 }
    else s

def handlePost (cfg : Config) (now : Int) (cached : Option SupervisorDaemon) (full : Bool)
    (post : LoopPost) (s : Realloc) : Realloc :=
  match post with
  | .reallocApplied outcome => applyOutcome cfg now cached s outcome
  | post => decideMove cfg now cached full post s

/-- `otherTurn` is everything else that becomes of the row; `clearReallocations` drops the window.
-/
inductive Action
  | childExits (body : EventBody)
  | foreignHolder
  | turn (now : Int) (cached : Option SupervisorDaemon) (full : Bool)
  | workerTakes
  | workerAnswers (outcome : Option ReallocOutcome)
  | workerReturns
  | otherTurn (row : TaskRow)
  | clearReallocations (row : TaskRow)

def step (cfg : Config) (s : Realloc) : Action → Option Realloc
  | .childExits body => some { s with posts := s.posts ++ [.childExit body] }
  | .foreignHolder => some { s with posts := s.posts ++ [.preSpawnRealloc] }
  | .turn now cached full =>
    match s.posts with
    | [] => none
    | post :: rest =>
      if s.clock ≤ now then
        some (handlePost cfg now cached full post { s with posts := rest, clock := now })
      else none
  | .workerTakes =>
    match s.worker, s.reallocCh with
    | .idle, req :: rest => some { s with worker := .reallocating req, reallocCh := rest }
    | _, _ => none
  | .workerAnswers outcome =>
    match s.worker with
    | .reallocating _ =>
      some { s with
        worker := .returning
        posts := s.posts ++ (outcome.map LoopPost.reallocApplied).toList }
    | _ => none
  -- The deferred delete of the marker runs behind the post.
  | .workerReturns =>
    match s.worker with
    | .returning => some { s with worker := .idle, reallocInFlight := false }
    | _ => none
  | .otherTurn row =>
    if row.reallocations = s.row.reallocations then some { s with row := row } else none
  | .clearReallocations row =>
    if row.reallocations = [] then some { s with row := row, completed := [] } else none

/-- The windows start empty with the supervisor, and nothing is under way. -/
def Fresh (s : Realloc) : Prop := s = { row := s.row, clock := s.clock } ∧ s.row.reallocations = []

def movesIn (completed : List Int) (t window : Int) : Nat :=
  (completed.filter (fun ts => t < ts ∧ ts ≤ t + window)).length

def LoopPost.completes : LoopPost → Bool
  | .reallocApplied (.reallocated _ _ _) => true
  | _ => false

def patient (cfg : Config) (s : Realloc) (action : Action) : Bool :=
  match action, s.posts with
  | .turn now cached _, post :: rest =>
    (cached.or s.row.reapShadow).all fun d =>
      !(asksToMove cfg now d s.row post && rest.any LoopPost.completes)
  | _, _ => true

def Patient (cfg : Config) (s : Realloc) (action : Action) : Prop := patient cfg s action = true
  deriving Decidable

variable {cfg : Config} {s after : Realloc} {stamps : List Int} {now later window : Int}

theorem countInWindow_antitone (stamps : List Int) (window : Int) (order : now ≤ later) :
    countInWindow stamps later window ≤ countInWindow stamps now window := by
  refine (monotone_filter_right stamps ?_).length_le
  intro ts kept
  simp only [decide_eq_true_eq] at kept ⊢
  omega

theorem countInWindow_recorded (order : now ≤ later) :
    countInWindow (recordAndCountInWindow stamps now window).1 later window =
      countInWindow (stamps ++ [now]) later window := by
  unfold countInWindow recordAndCountInWindow
  rw [filter_append, filter_append, filter_filter]
  congr 3
  funext ts
  simp only [Bool.and_eq_left_iff_imp, decide_eq_true_eq]
  omega

theorem movesIn_recorded {t : Int} {cap : Nat} (kept : movesIn stamps t window ≤ cap)
    (room : countInWindow stamps now window < cap) : movesIn (stamps ++ [now]) t window ≤ cap := by
  unfold movesIn at kept ⊢
  rw [filter_append, length_append]
  by_cases inside : t < now ∧ now ≤ t + window
  · have fewer : (stamps.filter (fun ts => t < ts ∧ ts ≤ t + window)).length ≤
        countInWindow stamps now window := by
      refine (monotone_filter_right stamps ?_).length_le
      intro ts member
      simp only [decide_eq_true_eq] at member ⊢
      omega
    have one := length_filter_le (fun ts => decide (t < ts ∧ ts ≤ t + window)) [now]
    rw [length_singleton] at one
    omega
  · simpa [inside] using kept

def Worker.present : Worker → Nat
  | .idle => 0
  | .reallocating _ | .returning => 1

def Worker.busy : Worker → Nat
  | .reallocating _ => 1
  | .idle | .returning => 0

theorem Worker.busy_le (worker : Worker) : worker.busy ≤ worker.present := by
  cases worker <;> simp [busy, present]

/-- The moves under way: requested, at work, or completed and not yet recorded. -/
def Realloc.outstanding (s : Realloc) : Nat :=
  s.reallocCh.length + s.worker.busy + s.posts.countP LoopPost.completes

structure Capped (cfg : Config) (s : Realloc) : Prop where
  marked : s.reallocCh.length + s.worker.present ≤ s.reallocInFlight.toNat
  single : s.outstanding ≤ 1
  tells : ∀ now, s.clock ≤ now → countInWindow s.row.reallocations now cfg.failureWindow =
    countInWindow s.completed now cfg.failureWindow
  budget : 0 < s.outstanding → ∀ now, s.clock ≤ now →
    countInWindow s.completed now cfg.failureWindow < reallocationCap
  windows : ∀ t, movesIn s.completed t cfg.failureWindow ≤ reallocationCap

theorem Capped.frame (capped : Capped cfg s)
    (marked : after.reallocCh.length + after.worker.present ≤ after.reallocInFlight.toNat)
    (fewer : after.outstanding ≤ s.outstanding)
    (kept : after.row.reallocations = s.row.reallocations) (done : after.completed = s.completed)
    (order : s.clock ≤ after.clock) : Capped cfg after where
  marked := marked
  single := fewer.trans capped.single
  tells now due := by
    rw [kept, done]
    exact capped.tells now (order.trans due)
  budget busy now due := by
    rw [done]
    exact capped.budget (busy.trans_le fewer) now (order.trans due)
  windows t := by
    rw [done]
    exact capped.windows t

theorem quarantineAfterRealloc_window (now : Int) (row : TaskRow) :
    (quarantineAfterRealloc now row).reallocations = row.reallocations := by
  unfold quarantineAfterRealloc recordQuarantineParoleEligible
  split <;> rfl

theorem rearmHeld_window (cached : Option SupervisorDaemon) (row : TaskRow) :
    (rearmHeld cached row).reallocations = row.reallocations := by
  unfold rearmHeld
  split_ifs <;> rfl

theorem Capped.recorded (capped : Capped cfg s) (order : s.clock ≤ now) {rest : List LoopPost}
    {newPort : Nat} {carried : Option SupervisorIntentFile} {stamps : Option (Int × Int)}
    (waits : s.posts = .reallocApplied (.reallocated newPort carried stamps) :: rest)
    (cached : Option SupervisorDaemon) :
    Capped cfg (applyOutcome cfg now cached { s with posts := rest, clock := now }
      (.reallocated newPort carried stamps)) := by
  have split : s.outstanding =
      s.reallocCh.length + s.worker.busy + rest.countP LoopPost.completes + 1 := by
    unfold Realloc.outstanding
    rw [waits, countP_cons_of_pos rfl]
    rfl
  have none : s.reallocCh.length + s.worker.busy + rest.countP LoopPost.completes = 0 := by
    have := capped.single
    omega
  have room := capped.budget (by omega) now order
  refine ⟨capped.marked, none.trans_le (Nat.zero_le 1), ?_, ?_, ?_⟩
  · intro later due
    have kept := capped.tells later (order.trans due)
    dsimp only [applyOutcome] at due ⊢
    rw [rearmHeld_window, countInWindow_recorded due]
    unfold countInWindow at kept ⊢
    rw [filter_append, filter_append, length_append, length_append, kept]
  · intro busy
    exact absurd none busy.ne'
  · intro t
    exact movesIn_recorded (capped.windows t) room

theorem Capped.dispatched (capped : Capped cfg s) (order : s.clock ≤ now) {post : LoopPost}
    {rest : List LoopPost} (waits : s.posts = post :: rest)
    {cached : Option SupervisorDaemon} (patience : ∀ d, cached.or s.row.reapShadow = some d →
      asksToMove cfg now d s.row post = true → rest.any LoopPost.completes = false) (full : Bool) :
    Capped cfg (decideMove cfg now cached full post { s with posts := rest, clock := now }) := by
  have fewer : Realloc.outstanding { s with posts := rest, clock := now } ≤ s.outstanding := by
    unfold Realloc.outstanding
    rw [waits, countP_cons]
    exact Nat.add_le_add_left (Nat.le_add_right _ _) _
  have same : Capped cfg { s with posts := rest, clock := now } :=
    capped.frame capped.marked fewer rfl rfl order
  unfold decideMove
  dsimp only
  cases known : cached.or s.row.reapShadow with
  | none => exact same
  | some d =>
    dsimp only
    split_ifs with asks
    · have noneWaits : rest.countP LoopPost.completes = 0 := by
        simpa [countP_eq_zero] using patience d known asks
      unfold dispatchDynamicPoolRealloc
      split_ifs with spent
      · exact same
      · unfold tryDispatchRealloc
        dsimp only
        split_ifs with refused
        · exact same.frame capped.marked le_rfl rfl rfl le_rfl
        · have clear : s.reallocInFlight = false := by
            cases marker : s.reallocInFlight with
            | false => rfl
            | true => exact absurd (.inl marker) refused
          have unused := capped.marked
          rw [clear, Bool.toNat_false] at unused
          have quiet := s.worker.busy_le
          refine ⟨?_, ?_, same.tells, ?_, capped.windows⟩
          · simp only [length_append, length_singleton, Bool.toNat_true]
            omega
          · simp only [Realloc.outstanding, length_append, length_singleton, noneWaits]
            omega
          · intro _ later due
            have peeked := capped.tells now order
            have fewerLater := countInWindow_antitone s.completed cfg.failureWindow due
            dsimp only at fewerLater ⊢
            omega
    · exact same

theorem Capped.preserved (capped : Capped cfg s) {action : Action} (patience : Patient cfg s action)
    (moved : step cfg s action = some after) : Capped cfg after := by
  cases action with
  | childExits body | foreignHolder =>
    cases moved
    refine capped.frame capped.marked ?_ rfl rfl le_rfl
    simp [Realloc.outstanding, LoopPost.completes]
  | turn now cached full =>
    unfold step at moved
    cases waits : s.posts with
    | nil => simp [waits] at moved
    | cons post rest =>
      rw [waits] at moved
      dsimp only at moved
      split_ifs at moved with order
      cases moved
      unfold Patient patient at patience
      rw [waits] at patience
      cases post with
      | childExit body | preSpawnRealloc =>
        refine capped.dispatched order waits ?_ full
        intro d known asks
        simpa [known, asks] using patience
      | reallocApplied outcome =>
        cases outcome with
        | reallocated newPort carried stamps => exact capped.recorded order waits cached
        | poolExhausted | failed =>
          have fewer : Realloc.outstanding { s with posts := rest, clock := now } ≤
              s.outstanding := by
            unfold Realloc.outstanding
            rw [waits, countP_cons_of_neg (by simp [LoopPost.completes])]
          unfold handlePost applyOutcome
          split_ifs
          all_goals refine capped.frame capped.marked fewer ?_ rfl order
          all_goals first | rfl | exact quarantineAfterRealloc_window now s.row
  | workerTakes =>
    unfold step at moved
    dsimp only at moved
    split at moved
    next req rest idle requested =>
      cases moved
      have marked := capped.marked
      rw [requested, idle] at marked
      refine capped.frame marked ?_ rfl rfl le_rfl
      simp only [Realloc.outstanding, requested, idle, Worker.busy, length_cons]
      omega
    · cases moved
  | workerAnswers outcome =>
    unfold step at moved
    dsimp only at moved
    split at moved
    next req working =>
      cases moved
      have marked := capped.marked
      rw [working] at marked
      refine capped.frame marked ?_ rfl rfl le_rfl
      have one : (outcome.map LoopPost.reallocApplied).toList.countP LoopPost.completes ≤ 1 := by
        cases outcome with
        | none => exact Nat.zero_le 1
        | some outcome => exact countP_le_length
      simp only [Realloc.outstanding, working, Worker.busy, countP_append]
      omega
    · cases moved
  | workerReturns =>
    unfold step at moved
    dsimp only at moved
    split at moved
    next returning =>
      cases moved
      have marked := capped.marked
      rw [returning] at marked
      have single := s.reallocInFlight.toNat_le
      refine capped.frame ?_ ?_ rfl rfl le_rfl
      · simp only [Worker.present, Bool.toNat_false] at marked ⊢
        omega
      · simp [Realloc.outstanding, returning, Worker.busy]
    · cases moved
  | otherTurn row =>
    unfold step at moved
    dsimp only at moved
    split_ifs at moved with kept
    cases moved
    exact capped.frame capped.marked le_rfl kept rfl le_rfl
  | clearReallocations row =>
    unfold step at moved
    dsimp only at moved
    split_ifs at moved with dropped
    cases moved
    refine ⟨capped.marked, capped.single, ?_, ?_, ?_⟩
    · intro now _
      rw [dropped]
    · intro _ now _
      exact Nat.zero_lt_succ 2
    · intro t
      exact Nat.zero_le _

theorem Capped.of_fresh (fresh : Fresh s) : Capped cfg s := by
  obtain ⟨idle, empty⟩ := fresh
  rw [idle]
  refine ⟨le_rfl, Nat.zero_le 1, ?_, ?_, fun t => Nat.zero_le _⟩
  · intro now _
    rw [empty]
  · intro busy
    exact absurd rfl busy.ne'

/-- No window holds more moves than the cap, in a run that decides on a move only where no completed
one waits. -/
theorem reallocations_capped (cfg : Config) (s : Realloc)
    (reached : Reachable Fresh (step cfg) (Patient cfg) s) (t : Int) :
    movesIn s.completed t cfg.failureWindow ≤ reallocationCap := by
  have capped : Capped cfg s := reached.invariant (fun _ fresh => .of_fresh fresh)
    (fun _ _ _ before patience moved => before.preserved patience moved)
  exact capped.windows t

def halfHour : Config := ⟨1800, 10, true, .unwired⟩

def proxyDescriptor : SupervisorDaemon :=
  ⟨"serena", ["daemon", "serena-proxy", "--port", "9300"], false, 9300, none⟩

def heldRow : Realloc := { row := { smState := some .backoffWaiting } }

def moveRound (now : Int) : List Action :=
  [.foreignHolder, .turn now (some proxyDescriptor) false, .workerTakes,
    .workerAnswers (some (.reallocated 9301 none none)), .workerReturns,
    .turn (now + 1) (some proxyDescriptor) false]

theorem reallocations_capped_in_three_rounds : ∃ s,
    Run (step halfHour) (Patient halfHour) heldRow (moveRound 0 ++ moveRound 100 ++ moveRound 200) s ∧
      s.completed = [1, 101, 201] ∧ movesIn s.completed 0 1800 ≤ reallocationCap := by
  obtain ⟨s, run, recorded⟩ := end_of_execUnder (step halfHour) (Patient halfHour) heldRow
    (moveRound 0 ++ moveRound 100 ++ moveRound 200) (fun s => s.completed = [1, 101, 201])
    (by decide +kernel)
  exact ⟨s, run, recorded, reallocations_capped halfHour s ⟨heldRow, _, ⟨rfl, rfl⟩, run⟩ 0⟩

/-- The worker is held up at the third move, and a second request is decided on before that move is
recorded. -/
theorem fourth_move_in_window : Fresh heldRow ∧ ∃ s,
    exec (step halfHour) heldRow (moveRound 0 ++ moveRound 100 ++
      [.foreignHolder, .turn 200 (some proxyDescriptor) false, .workerTakes, .foreignHolder,
        .workerAnswers (some (.reallocated 9303 none none)), .workerReturns,
        .turn 231 (some proxyDescriptor) false, .turn 232 (some proxyDescriptor) false,
        .workerTakes, .workerAnswers (some (.reallocated 9304 none none)), .workerReturns,
        .turn 233 (some proxyDescriptor) false]) = some s ∧
      reallocationCap < movesIn s.completed 0 1800 := by
  refine ⟨⟨rfl, rfl⟩, ?_⟩
  exact end_of_exec (step halfHour) heldRow _ _ (by decide +kernel)

end McpLocalHub.Supervisor.ReallocationCap
