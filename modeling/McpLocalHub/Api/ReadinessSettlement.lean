/- Module: Api/ReadinessSettlement
   source: internal/api/readiness_consumers.go
   digest: The loop that waits until a command's tasks are up, and what its settled answer is
   worth. -/

import McpLocalHub.Api.Readiness

set_option autoImplicit false

namespace McpLocalHub.Api.ReadinessSettlement

open Readiness

structure DaemonStatus where
  taskName : String
  server : String := ""
  daemon : String := ""
  port : ℤ := 0
  pid : ℤ := 0
  state : String := ""
  readinessObservation : Option DaemonReadinessObservation := none

/-- A carried observation is completed from the row; a row without one is a process fact only. -/
def readinessObservationFromStatusRow (row : DaemonStatus) : DaemonReadinessObservation :=
  match row.readinessObservation with
  | some o =>
    { o with
      taskName := if o.taskName = "" then row.taskName else o.taskName
      server := if o.server = "" then row.server else o.server
      daemon := if o.daemon = "" then row.daemon else o.daemon
      port := if o.port = 0 then row.port else o.port
      pid := if o.pid = 0 then row.pid else o.pid
      processState := if o.processState = "" then row.state else o.processState }
  | none =>
    { taskName := row.taskName
      server := row.server
      daemon := row.daemon
      port := row.port
      pid := row.pid
      processState := row.state
      intentPresent := true
      intentRunnable := true
      wrapperStarted := decide (0 < row.pid)
      stopped := decide (row.state = "Stopped") && decide (row.pid = 0)
      policy := .mcpUpstream }

inductive CommandOperation
  | install | restart

structure ReceivingReadinessRequest where
  operation : CommandOperation
  expectedTasks : List String
  bindingExpectations : List String := []
  requireBindings : Bool := false
  canMigrate : Bool := false

structure Read where
  rows : List DaemonStatus
  bindings : List BindingObservation := []

inductive Cause
  | daclOutsideAllowlist | tooLoose | wrongOwner | irregularFile | statusSetupFailure
  deriving DecidableEq

structure StateReadError where
  causes : List Cause
  repairPath : String
  repairEligible : Bool

structure ReadError where
  stateRead : Option StateReadError := none
  readiness : Option ReadinessError := none
  causes : List Cause := []

inductive ContextError
  | canceled | deadlineExceeded

inductive Waited
  | elapsed
  | context (error : ContextError)
  | failed

/-- What the loop is given in one round: contexts, the read, the clock, and how the pause ends. -/
structure Round where
  expired : Option ContextError := none
  read : Except ReadError Read
  now : ℤ := 0
  cancelled : Bool := false
  waited : Waited := .elapsed

inductive CommitState
  | settled | committedUnverified
  deriving DecidableEq

structure CommandSettlement where
  schemaVersion : String
  operation : CommandOperation
  commitState : CommitState
  snapshot : ReadinessSnapshot
  primaryFailure : Option ReadinessFailure
  failures : List ReadinessFailure

def commandSettlement (operation : CommandOperation) (commitState : CommitState)
    (snapshot : ReadinessSnapshot) : CommandSettlement where
  schemaVersion := "command-settlement-v1"
  operation := operation
  commitState := commitState
  snapshot := snapshot
  primaryFailure := snapshot.primaryFailure
  failures := snapshot.failures

abbrev Answer := CommandSettlement × Option ReadinessError

def supervisorBootstrapFailed : ReadinessError :=
  { stage := .supervisorBootstrap, failureID := "supervisor_bootstrap_failed" }

def receivingReadinessFailureSettlement (request : ReceivingReadinessRequest)
    (snapshot : ReadinessSnapshot) (error : ReadinessError) : Answer :=
  let failure : ReadinessFailure := { stage := error.stage, failureID := error.failureID }
  (commandSettlement request.operation .committedUnverified
    { snapshot with
      schemaVersion :=
        if snapshot.schemaVersion = "" then "readiness-snapshot-v1" else snapshot.schemaVersion
      primaryFailure := some failure
      failures := failure :: snapshot.failures
      settled := false }, some error)

def incompleteBinding (binding : BindingObservation) : Option ReadinessFailure :=
  let failure (failureID : String) : ReadinessFailure :=
    { stage := .clientBinding, failureID := failureID, client := binding.client }
  if !binding.requested then none
  else if !binding.present then some (failure "client_binding_missing")
  else if !binding.readable then some (failure "client_binding_unreadable")
  else if !binding.enabled || binding.disabled || decide (binding.route ≠ .hub) ||
      !binding.exactHubRoute then some (failure "client_binding_mismatch")
  else none

def incompleteReadinessFailureID : ReadinessStage → Option String
  | .taskIntent => some "task_intent_missing"
  | .wrapperStart => some "wrapper_start_timeout"
  | .upstreamListener => some "upstream_listener_unbound"
  | .mcpInitialize => some "mcp_initialize_failed"
  | .mcpToolsList => some "mcp_tools_list_failed"
  | _ => none

def incompleteDaemon (daemon : DaemonReadiness) : Option ReadinessFailure :=
  if daemon.settled then none
  else (incompleteReadinessFailureID daemon.stage).map (fun failureID =>
    { stage := daemon.stage, failureID := failureID, taskName := daemon.taskName,
      port := daemon.port })

def incompleteReadinessFailures (snapshot : ReadinessSnapshot) : List ReadinessFailure :=
  snapshot.bindings.filterMap incompleteBinding ++ snapshot.daemons.filterMap incompleteDaemon

def receivingReadinessTimeoutSettlement (request : ReceivingReadinessRequest)
    (snapshot : ReadinessSnapshot) : Answer :=
  let failures := incompleteReadinessFailures snapshot
  match sortReadinessFailures (snapshot.failures ++ failures), failures with
  | primary :: others, _ :: _ =>
    (commandSettlement request.operation .committedUnverified
      { snapshot with
        failures := primary :: others, primaryFailure := some primary, settled := false },
      some { stage := primary.stage, failureID := primary.failureID })
  | _, _ =>
    receivingReadinessFailureSettlement request snapshot
      { stage := .supervisorBootstrap, failureID := "readiness_timeout" }

def receivingReadinessContextSettlement (request : ReceivingReadinessRequest)
    (snapshot : ReadinessSnapshot) : ContextError → Answer
  | .deadlineExceeded => receivingReadinessTimeoutSettlement request snapshot
  | .canceled =>
    receivingReadinessFailureSettlement request snapshot
      { stage := .supervisorBootstrap, failureID := "readiness_cancelled" }

def stateReadFailure (error : StateReadError) : Option ReadinessError :=
  if Cause.daclOutsideAllowlist ∈ error.causes ∨ Cause.tooLoose ∈ error.causes then
    some {
      stage := .intentAccess
      failureID := "intent_dacl_refused"
      remediation :=
        if error.repairEligible = true ∧ error.repairPath ≠ "" ∧
            Cause.wrongOwner ∉ error.causes ∧ Cause.irregularFile ∉ error.causes then
          [.plain "mcphub repair-state-dacl --path ", .quoted error.repairPath, .plain " --yes"]
        else [] }
  else none

def receivingReadinessReadFailure (error : ReadError) : ReadinessError :=
  match error.stateRead.bind stateReadFailure with
  | some failure => failure
  | none =>
    match error.readiness with
    | some failure => failure
    | none =>
      if Cause.wrongOwner ∈ error.causes then
        { stage := .intentAccess, failureID := "intent_wrong_owner" }
      else if Cause.irregularFile ∈ error.causes then
        { stage := .intentAccess, failureID := "intent_irregular_file" }
      else if Cause.daclOutsideAllowlist ∈ error.causes ∨ Cause.tooLoose ∈ error.causes then
        { stage := .intentAccess, failureID := "intent_dacl_refused" }
      else if Cause.statusSetupFailure ∈ error.causes then
        { stage := .intentAccess, failureID := "intent_unreadable" }
      else supervisorBootstrapFailed

def readinessRequest (request : ReceivingReadinessRequest) (read : Read) (now : ℤ) :
    ReadinessRequest where
  selectors := request.expectedTasks
  bindings := read.bindings
  requireBinding := request.requireBindings
  canMigrate := request.canMigrate
  now := now
  observations := read.rows.map readinessObservationFromStatusRow

inductive Turn
  | returns (answer : Answer)
  | waits (last : ReadinessSnapshot)

def awaitTurn (request : ReceivingReadinessRequest) (last : ReadinessSnapshot) (round : Round) :
    Turn :=
  match round.expired with
  | some error => .returns (receivingReadinessContextSettlement request last error)
  | none =>
    match round.read with
    | .error error =>
      .returns (receivingReadinessFailureSettlement request last
        (receivingReadinessReadFailure error))
    | .ok read =>
      match assessReadiness round.cancelled (readinessRequest request read round.now) with
      | (snapshot, some error) =>
        .returns (receivingReadinessFailureSettlement request snapshot error)
      | (snapshot, none) =>
        if snapshot.settled then
          .returns (commandSettlement request.operation .settled snapshot, none)
        else
          match round.waited with
          | .elapsed => .waits snapshot
          | .context error =>
            .returns (receivingReadinessContextSettlement request snapshot error)
          | .failed =>
            .returns (receivingReadinessFailureSettlement request snapshot
              supervisorBootstrapFailed)

def awaitLoop (request : ReceivingReadinessRequest) :
    ReadinessSnapshot → List Round → Option Answer
  | _, [] => none
  | last, round :: rest =>
    match awaitTurn request last round with
    | .returns answer => some answer
    | .waits snapshot => awaitLoop request snapshot rest

def await (begun : Bool) (request : ReceivingReadinessRequest) (rounds : List Round) :
    Option Answer :=
  if begun then awaitLoop request {} rounds
  else some (receivingReadinessFailureSettlement request {} supervisorBootstrapFailed)

theorem contextSettlement_unverified (request : ReceivingReadinessRequest)
    (snapshot : ReadinessSnapshot) (error : ContextError) :
    (receivingReadinessContextSettlement request snapshot error).1.commitState =
      .committedUnverified := by
  cases error with
  | canceled => rfl
  | deadlineExceeded =>
    unfold receivingReadinessContextSettlement receivingReadinessTimeoutSettlement
    dsimp only
    split <;> rfl

theorem assessReadiness_settled {request : ReadinessRequest}
    (settled : (reduceReadiness request).settled = true) :
    assessReadiness false request = (reduceReadiness request, none) := by
  have noFailure : (reduceReadiness request).primaryFailure = none := by
    have checked : readinessSnapshotSettled _ request.requireBinding = true := settled
    simp only [readinessSnapshotSettled, Bool.and_eq_true, Option.isNone_iff_eq_none] at checked
    exact checked.1.1
  simp [assessReadiness, noFailure]

variable {begun : Bool} {request : ReceivingReadinessRequest} {rounds : List Round}

theorem awaitTurn_settled {last : ReadinessSnapshot} {round : Round} :
    (∃ answer, awaitTurn request last round = .returns answer ∧
        answer.1.commitState = .settled) ↔
      round.expired = none ∧ round.cancelled = false ∧ ∃ read, round.read = .ok read ∧
        (reduceReadiness (readinessRequest request read round.now)).settled = true := by
  constructor
  · rintro ⟨answer, returned, settled⟩
    have unverified (early : Answer) (unsettled : early.1.commitState = .committedUnverified)
        (same : Turn.returns early = .returns answer) : False := by
      obtain rfl := Turn.returns.inj same
      rw [unsettled] at settled
      cases settled
    unfold awaitTurn at returned
    split at returned
    · exact (unverified _ (contextSettlement_unverified request last _) returned).elim
    rename_i current
    split at returned
    · exact (unverified _ rfl returned).elim
    rename_i read gave
    split at returned
    · exact (unverified _ rfl returned).elim
    rename_i snapshot assessed
    split at returned
    · rename_i isSettled
      unfold assessReadiness at assessed
      split_ifs at assessed with cancelled
      · cases assessed
      · obtain rfl := congrArg Prod.fst assessed
        exact ⟨current, by simpa using cancelled, read, gave, isSettled⟩
    · split at returned
      · cases returned
      · exact (unverified _ (contextSettlement_unverified request snapshot _) returned).elim
      · exact (unverified _ rfl returned).elim
  · rintro ⟨current, running, read, gave, isSettled⟩
    refine ⟨(commandSettlement request.operation .settled
      (reduceReadiness (readinessRequest request read round.now)), none), ?_, rfl⟩
    simp only [awaitTurn, current, gave, running, assessReadiness_settled isSettled]
    rw [if_pos isSettled]

theorem awaitLoop_waiting {last : ReadinessSnapshot} {before : List Round}
    (waiting : awaitLoop request last before = none) :
    ∃ latest, ∀ rest, awaitLoop request last (before ++ rest) = awaitLoop request latest rest := by
  induction before generalizing last with
  | nil => exact ⟨last, fun _ => rfl⟩
  | cons round before ih =>
    rw [awaitLoop] at waiting
    cases turn : awaitTurn request last round with
    | returns answer =>
      rw [turn] at waiting
      cases waiting
    | waits snapshot =>
      rw [turn] at waiting
      obtain ⟨latest, same⟩ := ih waiting
      refine ⟨latest, fun rest => ?_⟩
      rw [List.cons_append, awaitLoop, turn]
      exact same rest

theorem await_waiting {before : List Round} (waiting : await begun request before = none) :
    ∃ latest, ∀ rest, await begun request (before ++ rest) = awaitLoop request latest rest := by
  unfold await at waiting ⊢
  split_ifs at waiting ⊢
  exact awaitLoop_waiting waiting

theorem awaitLoop_decided {last : ReadinessSnapshot} {answer : Answer}
    (done : awaitLoop request last rounds = some answer) :
    ∃ before round after, rounds = before ++ round :: after ∧
      awaitLoop request last before = none ∧
      awaitLoop request last (before ++ [round]) = some answer := by
  induction rounds generalizing last with
  | nil => cases done
  | cons round rest ih =>
    rw [awaitLoop] at done
    cases turn : awaitTurn request last round with
    | returns early =>
      rw [turn] at done
      refine ⟨[], round, rest, rfl, rfl, ?_⟩
      rw [List.nil_append, awaitLoop, turn]
      exact done
    | waits snapshot =>
      rw [turn] at done
      obtain ⟨before, decisive, after, rfl, waits, decided⟩ := ih done
      refine ⟨round :: before, decisive, after, rfl, ?_, ?_⟩
      · rw [awaitLoop, turn]
        exact waits
      · rw [List.cons_append, awaitLoop, turn]
        exact decided

theorem awaitLoop_append {last : ReadinessSnapshot} {answer : Answer}
    (done : awaitLoop request last rounds = some answer) (more : List Round) :
    awaitLoop request last (rounds ++ more) = some answer := by
  induction rounds generalizing last with
  | nil => cases done
  | cons round rest ih =>
    rw [awaitLoop] at done
    rw [List.cons_append, awaitLoop]
    cases turn : awaitTurn request last round with
    | returns early =>
      rw [turn] at done
      exact done
    | waits snapshot =>
      rw [turn] at done
      exact ih done

theorem await_append {answer : Answer} (done : await begun request rounds = some answer)
    (more : List Round) : await begun request (rounds ++ more) = some answer := by
  unfold await at done ⊢
  split_ifs at done ⊢
  · exact awaitLoop_append done more
  · exact done

/-- The loop makes the round: it still waits after those before it, and gets the read. -/
structure Reads (begun : Bool) (request : ReceivingReadinessRequest) (rounds before : List Round)
    (round : Round) (read : Read) : Prop where
  listed : ∃ after, rounds = before ++ round :: after
  waiting : await begun request before = none
  gave : round.read = .ok read

theorem Reads.mem {before : List Round} {round : Round} {read : Read}
    (reads : Reads begun request rounds before round read) : round ∈ rounds := by
  obtain ⟨after, rfl⟩ := reads.listed
  simp

theorem Reads.shorter {before other : List Round} {round next : Round} {read told : Read}
    {answer : Answer} (reads : Reads begun request rounds before round read)
    (reads' : Reads begun request rounds other next told)
    (decided : await begun request (before ++ [round]) = some answer) :
    other.length ≤ before.length := by
  by_contra longer
  have starts : before ++ [round] <+: rounds := by
    obtain ⟨after, rfl⟩ := reads.listed
    exact ⟨after, by simp⟩
  have starts' : other <+: rounds := by
    obtain ⟨after, rfl⟩ := reads'.listed
    exact ⟨next :: after, rfl⟩
  obtain ⟨more, rfl⟩ := List.prefix_of_prefix_length_le starts starts' (by simp; omega)
  have waiting := reads'.waiting
  rw [await_append decided more] at waiting
  cases waiting

theorem Reads.unique {before other : List Round} {round next : Round} {read told : Read}
    {answer : Answer} (reads : Reads begun request rounds before round read)
    (reads' : Reads begun request rounds other next told)
    (decided : await begun request (before ++ [round]) = some answer)
    (decided' : await begun request (other ++ [next]) = some answer) : read = told := by
  have sameLength := le_antisymm (reads'.shorter reads decided') (reads.shorter reads' decided)
  obtain ⟨after, listed⟩ := reads.listed
  obtain ⟨after', listed'⟩ := reads'.listed
  obtain ⟨rfl, rest⟩ := List.append_inj (listed.symm.trans listed') sameLength
  obtain ⟨rfl, _⟩ := List.cons.inj rest
  exact Except.ok.inj (reads.gave.symm.trans reads'.gave)

/-- Every expected task has a row, all its rows run, and every expected binding is in place. -/
structure Up (request : ReceivingReadinessRequest) (read : Read) : Prop where
  rows : ∀ task ∈ request.expectedTasks, ∃ row ∈ read.rows, row.taskName = task
  running : ∀ row ∈ read.rows, row.taskName ∈ request.expectedTasks →
    (reduceDaemonReadiness (readinessObservationFromStatusRow row)).1.serviceState = .running ∧
      Complete (readinessObservationFromStatusRow row)
  bound : request.requireBindings = true → ∀ client ∈ request.bindingExpectations,
    ∃ binding ∈ read.bindings, binding.client = client ∧ binding.bound = true

/-- The reader gives one observation for each binding expectation. -/
def Answers (request : ReceivingReadinessRequest) (read : Read) : Prop :=
  List.Forall₂ (fun client binding => binding.client = client ∧ binding.requested = true)
    request.bindingExpectations read.bindings

/-- A task has no row, or a row of it that does not run carries the observation of a task that is
not expected. -/
def Overlooks (request : ReceivingReadinessRequest) (read : Read) : Prop :=
  (∃ task ∈ request.expectedTasks, ∀ row ∈ read.rows, row.taskName ≠ task) ∨
    ∃ row ∈ read.rows, row.taskName ∈ request.expectedTasks ∧
      (readinessObservationFromStatusRow row).taskName ∉ request.expectedTasks ∧
      (reduceDaemonReadiness (readinessObservationFromStatusRow row)).1.serviceState ≠ .running

/-- Something that the verdict does look at is not ready. -/
def Holds (request : ReceivingReadinessRequest) (read : Read) : Prop :=
  (∃ row ∈ read.rows,
      (readinessObservationFromStatusRow row).taskName ∈ request.expectedTasks ∧
      (reduceDaemonReadiness (readinessObservationFromStatusRow row)).1.serviceState ≠ .running) ∨
    request.requireBindings = true ∧
      ∃ binding ∈ read.bindings, binding.requested = true ∧ binding.bound = false

theorem settled_iff_not_holds {read : Read} {now : ℤ} (expects : request.expectedTasks ≠ []) :
    (reduceReadiness (readinessRequest request read now)).settled = true ↔
      ¬ Holds request read := by
  have selected (o : DaemonReadinessObservation) :
      o ∈ selectedReadinessObservations (readinessRequest request read now) ↔
        ∃ row ∈ read.rows, readinessObservationFromStatusRow row = o ∧
          o.taskName ∈ request.expectedTasks := by
    have some : (readinessRequest request read now).selectors ≠ [] := expects
    unfold selectedReadinessObservations
    rw [if_neg some, List.mem_filter, decide_eq_true_iff]
    constructor
    · rintro ⟨listed, expected⟩
      obtain ⟨row, inRows, same⟩ := List.mem_map.mp listed
      exact ⟨row, inRows, same, expected⟩
    · rintro ⟨row, inRows, same, expected⟩
      exact ⟨List.mem_map.mpr ⟨row, inRows, same⟩, expected⟩
  rw [reduceReadiness_settled]
  unfold Holds
  constructor
  · rintro ⟨complete, bound⟩
      (⟨row, listed, expected, waits⟩ | ⟨required, binding, listed, requested, unbound⟩)
    · exact waits ((running_iff_complete _).mpr
        (complete _ ((selected _).mpr ⟨row, listed, rfl, expected⟩)))
    · rw [bound required binding listed requested] at unbound
      cases unbound
  · intro free
    refine ⟨fun o isSelected => ?_, fun required binding listed requested => ?_⟩
    · obtain ⟨row, listed, rfl, expected⟩ := (selected o).mp isSelected
      by_contra incomplete
      exact free (.inl ⟨row, listed, expected, mt (running_iff_complete _).mp incomplete⟩)
    · by_contra unbound
      exact free (.inr ⟨required, binding, listed, requested, by simpa using unbound⟩)

theorem up_iff_not_overlooks {read : Read} (answers : Answers request read)
    (free : ¬ Holds request read) : Up request read ↔ ¬ Overlooks request read := by
  constructor
  · rintro up (⟨task, expected, missing⟩ | ⟨row, listed, expected, _, waits⟩)
    · obtain ⟨row, listed, named⟩ := up.rows task expected
      exact missing row listed named
    · exact waits (up.running row listed expected).1
  · intro seen
    refine ⟨fun task expected => ?_, fun row listed expected => ?_,
      fun required client expected => ?_⟩
    · by_contra missing
      exact seen (.inl ⟨task, expected, fun row listed named => missing ⟨row, listed, named⟩⟩)
    · have running : (reduceDaemonReadiness
          (readinessObservationFromStatusRow row)).1.serviceState = .running := by
        by_contra waits
        by_cases selected :
            (readinessObservationFromStatusRow row).taskName ∈ request.expectedTasks
        · exact free (.inl ⟨row, listed, selected, waits⟩)
        · exact seen (.inr ⟨row, listed, expected, selected, waits⟩)
      exact ⟨running, (running_iff_complete _).mp running⟩
    · obtain ⟨i, inRange, isClient⟩ := List.getElem_of_mem expected
      have sameLength := answers.length_eq
      have observed : read.bindings[i].client = client ∧ read.bindings[i].requested = true := by
        have matched := (List.forall₂_iff_get.mp answers).2 i inRange (sameLength ▸ inRange)
        simpa [isClient] using matched
      refine ⟨read.bindings[i], List.getElem_mem _, observed.1, ?_⟩
      by_contra unbound
      exact free (.inr ⟨required, _, List.getElem_mem _, observed.2, by simpa using unbound⟩)

theorem Reads.settles {before : List Round} {round : Round} {read : Read}
    (reads : Reads begun request rounds before round read) (expects : request.expectedTasks ≠ [])
    (current : round.expired = none) (running : round.cancelled = false)
    (free : ¬ Holds request read) :
    ∃ answer, await begun request (before ++ [round]) = some answer ∧
      await begun request rounds = some answer ∧ answer.1.commitState = .settled := by
  obtain ⟨latest, onward⟩ := await_waiting reads.waiting
  obtain ⟨answer, returned, settled⟩ := (@awaitTurn_settled request latest round).mpr
    ⟨current, running, read, reads.gave, (settled_iff_not_holds expects).mpr free⟩
  have decided : await begun request (before ++ [round]) = some answer := by
    rw [onward, awaitLoop, returned]
  obtain ⟨after, listed⟩ := reads.listed
  have whole := await_append decided after
  rw [List.append_assoc, List.singleton_append, ← listed] at whole
  exact ⟨answer, decided, whole, settled⟩

theorem await_settled {answer : Answer} (expects : request.expectedTasks ≠ [])
    (done : await begun request rounds = some answer)
    (settled : answer.1.commitState = .settled) :
    ∃ before round read, Reads begun request rounds before round read ∧
      round.expired = none ∧ round.cancelled = false ∧
      await begun request (before ++ [round]) = some answer ∧ ¬ Holds request read := by
  cases begun with
  | false =>
    cases done
    cases settled
  | true =>
    obtain ⟨before, round, after, listed, waiting, decided⟩ := awaitLoop_decided done
    obtain ⟨latest, onward⟩ := awaitLoop_waiting waiting
    have last : awaitLoop request latest [round] = some answer := onward [round] ▸ decided
    have returned : awaitTurn request latest round = .returns answer := by
      rw [awaitLoop] at last
      cases turn : awaitTurn request latest round with
      | returns early =>
        rw [turn] at last
        exact congrArg Turn.returns (Option.some.inj last)
      | waits snapshot =>
        rw [turn] at last
        cases last
    obtain ⟨current, running, read, gave, isSettled⟩ :=
      awaitTurn_settled.mp ⟨answer, returned, settled⟩
    exact ⟨before, round, read, ⟨⟨after, listed⟩, waiting, gave⟩, current, running, decided,
      (settled_iff_not_holds expects).mp isSettled⟩

/-- Settled means up exactly when no read that the loop assesses overlooks an expected task while
all that it does look at is ready. -/
theorem settled_means_up {begun : Bool} {request : ReceivingReadinessRequest}
    {rounds : List Round} (expects : request.expectedTasks ≠ [])
    (answers : ∀ round ∈ rounds, ∀ read, round.read = .ok read → Answers request read) :
    (∀ answer, await begun request rounds = some answer → answer.1.commitState = .settled →
        ∃ before round read, Reads begun request rounds before round read ∧
          await begun request (before ++ [round]) = some answer ∧ Up request read) ↔
      ∀ before round read, Reads begun request rounds before round read →
        round.expired = none → round.cancelled = false → Overlooks request read →
          Holds request read := by
  constructor
  · intro sound before round read reads current running overlooks
    by_contra free
    obtain ⟨answer, decided, done, settled⟩ := reads.settles expects current running free
    obtain ⟨other, next, told, reads', decided', up⟩ := sound answer done settled
    obtain rfl := reads.unique reads' decided decided'
    exact (up_iff_not_overlooks (answers round reads.mem read reads.gave) free).mp up overlooks
  · intro held answer done settled
    obtain ⟨before, round, read, reads, current, running, decided, free⟩ :=
      await_settled expects done settled
    refine ⟨before, round, read, reads, decided, ?_⟩
    exact (up_iff_not_overlooks (answers round reads.mem read reads.gave) free).mpr
      (fun overlooks => free (held before round read reads current running overlooks))

def memoryTask : String := "mcp-local-hub-memory-default"

def timeTask : String := "mcp-local-hub-time-default"

def installBoth : ReceivingReadinessRequest where
  operation := .install
  expectedTasks := [memoryTask, timeTask]
  bindingExpectations := ["codex-cli"]
  requireBindings := true

def wrapperOnly : Read where
  rows := [{ taskName := memoryTask, pid := 7, state := "Running" }]
  bindings := [{ client := "codex-cli", requested := true }]

def bothUp : Read where
  rows := [memoryTask, timeTask].map (fun task => {
    taskName := task
    pid := 7
    readinessObservation := some {
      currentPIDGeneration := 1
      observedPIDGeneration := 1
      intentPresent := true
      intentRunnable := true
      wrapperStarted := true
      listenerReady := true
      mcpInitializeReady := true
      mcpToolsListReady := true } })
  bindings := [{
    client := "codex-cli"
    requested := true
    present := true
    readable := true
    enabled := true
    route := .hub
    exactHubRoute := true }]

def startUp : List Round := [{ read := .ok wrapperOnly }, { read := .ok bothUp }]

theorem settled_means_up_start :
    ∃ answer before round read, await true installBoth startUp = some answer ∧
      answer.1.commitState = .settled ∧ Reads true installBoth startUp before round read ∧
      await true installBoth (before ++ [round]) = some answer ∧ Up installBoth read := by
  have settles : (await true installBoth startUp).any
      (fun answer => decide (answer.1.commitState = .settled)) = true := by decide +kernel
  obtain ⟨answer, done, checked⟩ := (Option.any_eq_true _ _).mp settles
  have settled := of_decide_eq_true checked
  have sound := (@settled_means_up true installBoth startUp (by decide) ?_).mpr ?_
  · obtain ⟨before, round, read, reads, decided, up⟩ := sound answer done settled
    exact ⟨answer, before, round, read, done, settled, reads, decided, up⟩
  · intro round listed read gave
    rcases List.mem_pair.mp listed with rfl | rfl
    · cases gave
      exact .cons ⟨rfl, rfl⟩ .nil
    · cases gave
      exact .cons ⟨rfl, rfl⟩ .nil
  · intro before round read reads _ _ overlooks
    have gave := reads.gave
    rcases List.mem_pair.mp reads.mem with rfl | rfl
    · cases gave
      unfold Holds
      decide +kernel
    · cases gave
      refine absurd overlooks ?_
      unfold Overlooks
      decide +kernel

/-- A read without any row selects nothing, and nothing selected is not running: it settles the
command. -/
theorem empty_read_settles :
    ∃ answer, await true { operation := .restart, expectedTasks := [memoryTask] }
        [{ read := .ok { rows := [] } }] = some answer ∧
      answer.1.commitState = .settled ∧ answer.2 = none ∧
      ¬ Up { operation := .restart, expectedTasks := [memoryTask] } { rows := [] } := by
  have settles : (await true { operation := .restart, expectedTasks := [memoryTask] }
      [{ read := .ok { rows := [] } }]).any
      (fun answer => decide (answer.1.commitState = .settled ∧ answer.2 = none)) = true := by
    decide +kernel
  obtain ⟨answer, done, checked⟩ := (Option.any_eq_true _ _).mp settles
  obtain ⟨settled, noError⟩ := of_decide_eq_true checked
  refine ⟨answer, done, settled, noError, fun up => ?_⟩
  obtain ⟨row, listed, _⟩ := up.rows memoryTask (.head _)
  exact List.not_mem_nil listed

end McpLocalHub.Api.ReadinessSettlement
