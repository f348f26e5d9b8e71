/- Module: Api/Readiness
   source: internal/api/readiness_v1.go
   digest: The staged reducer from daemon and binding observations to one readiness snapshot. -/

import McpLocalHub.Foundation.GoText
import Mathlib.Data.List.Sort

set_option autoImplicit false

namespace McpLocalHub.Api.Readiness

open List

inductive ReadinessStage
  | intentAccess | supervisorBootstrap | supervisorIPC | taskIntent | wrapperStart
  | upstreamListener | mcpInitialize | mcpToolsList | clientBinding | complete
  | other (text : String)
  deriving DecidableEq

def ReadinessStage.order : ReadinessStage → ℕ
  | .intentAccess => 1
  | .supervisorBootstrap => 2
  | .supervisorIPC => 3
  | .taskIntent => 4
  | .wrapperStart => 5
  | .upstreamListener => 6
  | .mcpInitialize => 7
  | .mcpToolsList => 8
  | .clientBinding => 9
  | .complete => 10
  | .other _ => 0

inductive ServiceState
  | absent | disabled | starting | running | degraded | failed | stopped
  deriving DecidableEq

inductive MaterializationState
  | absent | intentOnly | starting | ready | degraded | failed | stopped | disabled
  deriving DecidableEq

inductive BindingState
  | none | hub | direct | disabled | mixed | unreadable
  deriving DecidableEq

inductive ReadinessClassification
  | unhealthyDegraded | installedAndBound | installedUnbound | configuredDirectCanMigrate
  | disabled | genuinelyNotInstalled

inductive ReadinessPolicy
  | mcpUpstream | processOnly | syntheticProxy | other (text : String)
  deriving DecidableEq

inductive BindingRoute
  | none | hub | direct | other (text : String)
  deriving DecidableEq

structure ReadinessFailure where
  stage : ReadinessStage
  failureID : String
  retryable : Bool := false
  detail : String := ""
  taskName : String := ""
  client : String := ""
  port : ℤ := 0

structure DaemonReadinessObservation where
  taskName : String := ""
  server : String := ""
  daemon : String := ""
  port : ℤ := 0
  pid : ℤ := 0
  processState : String := ""
  currentPIDGeneration : ℕ := 0
  observedPIDGeneration : ℕ := 0
  intentPresent : Bool := false
  intentRunnable : Bool := false
  intentDisabled : Bool := false
  stopped : Bool := false
  wrapperStarted : Bool := false
  listenerReady : Bool := false
  mcpInitializeReady : Bool := false
  mcpToolsListReady : Bool := false
  deadlineExceeded : Bool := false
  policy : ReadinessPolicy := .mcpUpstream
  failures : List ReadinessFailure := []

structure BindingObservation where
  client : String
  present : Bool := false
  enabled : Bool := false
  disabled : Bool := false
  readable : Bool := false
  route : BindingRoute := .none
  exactHubRoute : Bool := false
  requested : Bool := false

structure ReadinessRequest where
  selectors : List String := []
  bindings : List BindingObservation := []
  requireBinding : Bool := false
  canMigrate : Bool := false
  now : ℤ := 0
  observations : List DaemonReadinessObservation := []

structure DaemonReadiness where
  taskName : String
  server : String
  daemon : String
  port : ℤ
  pid : ℤ
  pidGeneration : ℕ
  processState : String
  serviceState : ServiceState
  stage : ReadinessStage
  settled : Bool := false
  failure : Option ReadinessFailure := none

structure ReadinessSnapshot where
  schemaVersion : String := ""
  observedAt : ℤ := 0
  settled : Bool := false
  daemons : List DaemonReadiness := []
  bindings : List BindingObservation := []
  materializationState : MaterializationState := .absent
  bindingState : BindingState := .none
  classification : ReadinessClassification := .genuinelyNotInstalled
  primaryFailure : Option ReadinessFailure := none
  failures : List ReadinessFailure := []

structure ReadinessError where
  stage : ReadinessStage
  failureID : String
  remediation : Foundation.GoText.Message := []

def validReadinessStage (stage : ReadinessStage) : Bool :=
  decide (0 < stage.order) && decide (stage ≠ .complete)

def ReadinessFailure.admissible (failure : ReadinessFailure) : Bool :=
  validReadinessStage failure.stage && decide (failure.failureID ≠ "")

def ReadinessFailure.before (a b : ReadinessFailure) : Bool :=
  if a.stage.order ≠ b.stage.order then decide (a.stage.order < b.stage.order)
  else if a.taskName ≠ b.taskName then decide (a.taskName < b.taskName)
  else decide (a.client < b.client)

def sortReadinessFailures (failures : List ReadinessFailure) : List ReadinessFailure :=
  failures.insertionSort (fun a b => ¬ b.before a = true)

def safeReadinessFailures (failures : List ReadinessFailure)
    (observation : DaemonReadinessObservation) : List ReadinessFailure :=
  sortReadinessFailures ((failures.filter ReadinessFailure.admissible).map (fun failure =>
    { failure with
      detail := ""
      taskName := if failure.taskName = "" then observation.taskName else failure.taskName
      port := if failure.port = 0 then observation.port else failure.port }))

def settleOrDegrade (daemon : DaemonReadiness) (observation : DaemonReadinessObservation)
    (failureID : String) : DaemonReadiness × List ReadinessFailure :=
  if !observation.deadlineExceeded then (daemon, [])
  else
    let failure : ReadinessFailure :=
      { stage := daemon.stage, failureID := failureID, taskName := daemon.taskName,
        port := daemon.port }
    ({ daemon with serviceState := .degraded, settled := true, failure := some failure }, [failure])

def failedServiceState : ReadinessStage → ServiceState
  | .intentAccess | .supervisorBootstrap | .supervisorIPC | .taskIntent | .wrapperStart => .failed
  | _ => .degraded

def reduceDaemonReadiness (observation : DaemonReadinessObservation) :
    DaemonReadiness × List ReadinessFailure :=
  let report (state : ServiceState) (stage : ReadinessStage) (settled : Bool)
      (failure : Option ReadinessFailure) : DaemonReadiness :=
    { taskName := observation.taskName, server := observation.server, daemon := observation.daemon,
      port := observation.port, pid := observation.pid,
      pidGeneration := observation.observedPIDGeneration,
      processState := observation.processState, serviceState := state, stage := stage,
      settled := settled, failure := failure }
  let starting (stage : ReadinessStage) (failureID : String) :=
    settleOrDegrade (report .starting stage false none) observation failureID
  match safeReadinessFailures observation.failures observation with
  | failure :: rest =>
    if failure.retryable && !observation.deadlineExceeded then
      (report .starting failure.stage false (some failure), failure :: rest)
    else (report (failedServiceState failure.stage) failure.stage true (some failure), failure :: rest)
  | [] =>
    if !observation.intentPresent then (report .absent .intentAccess true none, [])
    else if observation.intentDisabled then (report .disabled .taskIntent true none, [])
    else if observation.stopped then (report .stopped .wrapperStart true none, [])
    else if !observation.intentRunnable then starting .taskIntent "task_intent_missing"
    else if observation.observedPIDGeneration = 0 ∨
        observation.observedPIDGeneration ≠ observation.currentPIDGeneration ∨
        observation.wrapperStarted = false then
      starting .wrapperStart "wrapper_start_timeout"
    else if observation.policy = .syntheticProxy then
      starting .upstreamListener "synthetic_proxy_not_materialized"
    else if !observation.listenerReady then starting .upstreamListener "upstream_listener_unbound"
    else if observation.policy ≠ .processOnly ∧ observation.mcpInitializeReady = false then
      starting .mcpInitialize "mcp_initialize_failed"
    else if observation.policy ≠ .processOnly ∧ observation.mcpToolsListReady = false then
      starting .mcpToolsList "mcp_tools_list_failed"
    else (report .running .complete true none, [])

/-- The observation is of the current process, every required stage is complete, and no failure is
let through. -/
structure Complete (o : DaemonReadinessObservation) : Prop where
  noFailure : ∀ failure ∈ o.failures, failure.admissible = false
  intent : o.intentPresent = true ∧ o.intentRunnable = true
  enabled : o.intentDisabled = false ∧ o.stopped = false
  generation : o.observedPIDGeneration ≠ 0 ∧ o.observedPIDGeneration = o.currentPIDGeneration
  wrapper : o.wrapperStarted = true
  materialized : o.policy ≠ .syntheticProxy
  listener : o.listenerReady = true
  mcp : o.policy ≠ .processOnly → o.mcpInitializeReady = true ∧ o.mcpToolsListReady = true

theorem mem_sortReadinessFailures {failures : List ReadinessFailure} {failure : ReadinessFailure} :
    failure ∈ sortReadinessFailures failures ↔ failure ∈ failures :=
  (perm_insertionSort _ failures).mem_iff

theorem safeReadinessFailures_eq_nil {o : DaemonReadinessObservation} :
    safeReadinessFailures o.failures o = [] ↔
      ∀ failure ∈ o.failures, failure.admissible = false := by
  constructor
  · intro empty failure listed
    by_contra admitted
    have kept : failure ∈ o.failures.filter ReadinessFailure.admissible :=
      mem_filter.mpr ⟨listed, by simpa using admitted⟩
    have shown := mem_sortReadinessFailures.mpr (mem_map_of_mem
      (f := fun failure : ReadinessFailure =>
        { failure with
          detail := ""
          taskName := if failure.taskName = "" then o.taskName else failure.taskName
          port := if failure.port = 0 then o.port else failure.port }) kept)
    unfold safeReadinessFailures at empty
    rw [empty] at shown
    exact not_mem_nil shown
  · intro refused
    have none : o.failures.filter ReadinessFailure.admissible = [] :=
      filter_eq_nil_iff.mpr (fun failure listed => by simp [refused failure listed])
    unfold safeReadinessFailures
    rw [none]
    rfl

theorem settleOrDegrade_not_running {daemon : DaemonReadiness} (o : DaemonReadinessObservation)
    (failureID : String) (waits : daemon.serviceState ≠ .running) :
    (settleOrDegrade daemon o failureID).1.serviceState ≠ .running := by
  unfold settleOrDegrade
  split_ifs
  · exact waits
  · simp

theorem failedServiceState_not_running (stage : ReadinessStage) :
    failedServiceState stage ≠ .running := by
  cases stage <;> simp [failedServiceState]

theorem running_iff_complete (o : DaemonReadinessObservation) :
    (reduceDaemonReadiness o).1.serviceState = .running ↔ Complete o := by
  unfold reduceDaemonReadiness
  cases failures : safeReadinessFailures o.failures o with
  | cons failure rest =>
    have found : ¬ Complete o := fun complete => by
      rw [safeReadinessFailures_eq_nil.mpr complete.noFailure] at failures
      cases failures
    dsimp only
    split_ifs
    · exact iff_of_false (by simp) found
    · exact iff_of_false (failedServiceState_not_running failure.stage) found
  | nil =>
    have none := safeReadinessFailures_eq_nil.mp failures
    split_ifs with absent disabled stopped waiting outdated proxy unbound handshake tools
    · exact iff_of_false (by simp) (fun complete => by simp [complete.intent.1] at absent)
    · exact iff_of_false (by simp) (fun complete => by simp [complete.enabled.1] at disabled)
    · exact iff_of_false (by simp) (fun complete => by simp [complete.enabled.2] at stopped)
    · exact iff_of_false (settleOrDegrade_not_running o _ (by simp))
        (fun complete => by simp [complete.intent.2] at waiting)
    · refine iff_of_false (settleOrDegrade_not_running o _ (by simp)) (fun complete => ?_)
      rcases outdated with zero | other | unstarted
      · exact complete.generation.1 zero
      · exact other complete.generation.2
      · simp [complete.wrapper] at unstarted
    · exact iff_of_false (settleOrDegrade_not_running o _ (by simp))
        (fun complete => complete.materialized proxy)
    · exact iff_of_false (settleOrDegrade_not_running o _ (by simp))
        (fun complete => by simp [complete.listener] at unbound)
    · exact iff_of_false (settleOrDegrade_not_running o _ (by simp))
        (fun complete => by simp [(complete.mcp handshake.1).1] at handshake)
    · exact iff_of_false (settleOrDegrade_not_running o _ (by simp))
        (fun complete => by simp [(complete.mcp tools.1).2] at tools)
    · obtain ⟨nonzero, current, started⟩ : o.observedPIDGeneration ≠ 0 ∧
          o.observedPIDGeneration = o.currentPIDGeneration ∧ o.wrapperStarted = true := by
        simpa [not_or] using outdated
      refine iff_of_true rfl ⟨none, ?_, ?_, ⟨nonzero, current⟩, started, proxy, ?_, ?_⟩
      · exact ⟨by simpa using absent, by simpa using waiting⟩
      · exact ⟨by simpa using disabled, by simpa using stopped⟩
      · simpa using unbound
      · intro required
        exact ⟨by simpa [required] using handshake, by simpa [required] using tools⟩

def materializationPrecedence : MaterializationState → ℕ
  | .failed => 8
  | .degraded => 7
  | .starting => 6
  | .ready => 5
  | .intentOnly => 4
  | .stopped => 3
  | .disabled => 2
  | .absent => 1

def daemonMaterialization (daemon : DaemonReadiness) : MaterializationState :=
  match daemon.serviceState with
  | .running => .ready
  | .degraded => .degraded
  | .failed => .failed
  | .starting => if daemon.stage = .taskIntent then .intentOnly else .starting
  | .stopped => .stopped
  | .disabled => .disabled
  | .absent => .absent

def deriveMaterializationState (daemons : List DaemonReadiness) : MaterializationState :=
  daemons.foldl (fun state daemon =>
    let next := daemonMaterialization daemon
    if materializationPrecedence state < materializationPrecedence next then next else state) .absent

def presentBindingState (binding : BindingObservation) : BindingState :=
  if !binding.readable then .unreadable
  else if binding.disabled || !binding.enabled then .disabled
  else
    match binding.route with
    | .hub => .hub
    | .direct => .direct
    | .none | .other _ => .none

def deriveBindingState (bindings : List BindingObservation) : BindingState :=
  let present := (bindings.filter BindingObservation.present).map presentBindingState
  match (present.filter (fun state => decide (state ≠ .none))).dedup with
  | [] => .none
  | [state] => state
  | _ => .mixed

def deriveReadinessClassification (materialization : MaterializationState) (binding : BindingState)
    (canMigrate : Bool) : ReadinessClassification :=
  if materialization = .starting ∨ materialization = .degraded ∨ materialization = .failed then
    .unhealthyDegraded
  else if materialization = .ready then
    if binding = .hub ∨ binding = .mixed then .installedAndBound else .installedUnbound
  else if (binding = .direct ∨ binding = .mixed) ∧ canMigrate = true then
    .configuredDirectCanMigrate
  else if binding = .disabled then .disabled
  else .genuinelyNotInstalled

def BindingObservation.bound (binding : BindingObservation) : Bool :=
  binding.present && binding.readable && binding.enabled && !binding.disabled &&
    decide (binding.route = .hub) && binding.exactHubRoute

def readinessSnapshotSettled (snapshot : ReadinessSnapshot) (requireBinding : Bool) : Bool :=
  snapshot.primaryFailure.isNone &&
    snapshot.daemons.all (fun daemon => decide (daemon.serviceState = .running)) &&
    (!requireBinding || snapshot.bindings.all (fun binding => !binding.requested || binding.bound))

def selectedReadinessObservations (request : ReadinessRequest) : List DaemonReadinessObservation :=
  if request.selectors = [] then request.observations
  else request.observations.filter (fun observation =>
    decide (observation.taskName ∈ request.selectors))

def reduceReadiness (request : ReadinessRequest) : ReadinessSnapshot :=
  let bindings := request.bindings.insertionSort (fun a b => a.client ≤ b.client)
  let reduced := (selectedReadinessObservations request).map reduceDaemonReadiness
  let daemons := (reduced.map Prod.fst).insertionSort (fun a b => a.taskName ≤ b.taskName)
  let failures := sortReadinessFailures (reduced.flatMap Prod.snd)
  let materialization := deriveMaterializationState daemons
  let binding := deriveBindingState bindings
  let snapshot : ReadinessSnapshot :=
    { schemaVersion := "readiness-snapshot-v1"
      observedAt := request.now
      daemons := daemons
      bindings := bindings
      materializationState := materialization
      bindingState := binding
      classification := deriveReadinessClassification materialization binding request.canMigrate
      primaryFailure := failures.head?
      failures := failures }
  { snapshot with settled := readinessSnapshotSettled snapshot request.requireBinding }

theorem Complete.no_failures {o : DaemonReadinessObservation} (complete : Complete o) :
    (reduceDaemonReadiness o).2 = [] := by
  have running := (running_iff_complete o).mpr complete
  have silent := safeReadinessFailures_eq_nil.mpr complete.noFailure
  revert running
  unfold reduceDaemonReadiness
  rw [silent]
  dsimp only
  split_ifs <;> first
    | exact fun _ => rfl
    | exact fun running => (settleOrDegrade_not_running o _ (by simp) running).elim

/-- Settled means that every selected observation is complete and every binding in place: a task of
which nothing is selected is not looked at. -/
theorem reduceReadiness_settled {request : ReadinessRequest} :
    (reduceReadiness request).settled = true ↔
      (∀ o ∈ selectedReadinessObservations request, Complete o) ∧
        (request.requireBinding = true → ∀ binding ∈ request.bindings,
          binding.requested = true → binding.bound = true) := by
  have daemons : ((((selectedReadinessObservations request).map reduceDaemonReadiness).map
      Prod.fst).insertionSort (fun a b => a.taskName ≤ b.taskName)).all
        (fun daemon => decide (daemon.serviceState = .running)) = true ↔
      ∀ o ∈ selectedReadinessObservations request, Complete o := by
    simp [← running_iff_complete]
  have bindings : (!request.requireBinding ||
      (request.bindings.insertionSort (fun a b => a.client ≤ b.client)).all
        (fun binding => !binding.requested || binding.bound)) = true ↔
      (request.requireBinding = true → ∀ binding ∈ request.bindings,
        binding.requested = true → binding.bound = true) := by
    simp [imp_iff_not_or]
  have quiet (complete : ∀ o ∈ selectedReadinessObservations request, Complete o) :
      sortReadinessFailures
        (((selectedReadinessObservations request).map reduceDaemonReadiness).flatMap Prod.snd) =
          [] := by
    have none : ((selectedReadinessObservations request).map reduceDaemonReadiness).flatMap
        Prod.snd = [] := by
      simpa [flatMap_eq_nil_iff] using fun o selected => (complete o selected).no_failures
    rw [none]
    rfl
  simp only [reduceReadiness, readinessSnapshotSettled, Bool.and_eq_true]
  rw [daemons, bindings]
  constructor
  · rintro ⟨⟨_, complete⟩, bound⟩
    exact ⟨complete, bound⟩
  · rintro ⟨complete, bound⟩
    refine ⟨⟨?_, complete⟩, bound⟩
    rw [quiet complete]
    rfl

/-- `AssessReadiness`; `cancelled` is the state of the context when it begins. -/
def assessReadiness (cancelled : Bool) (request : ReadinessRequest) :
    ReadinessSnapshot × Option ReadinessError :=
  let snapshot := reduceReadiness request
  if cancelled then
    let failure : ReadinessFailure := { stage := .wrapperStart, failureID := "readiness_cancelled" }
    ({ snapshot with
        primaryFailure := some failure
        failures := failure :: snapshot.failures
        settled := false
        materializationState := .degraded
        classification := .unhealthyDegraded },
      some { stage := failure.stage, failureID := failure.failureID })
  else
    (snapshot, snapshot.primaryFailure.map (fun failure =>
      { stage := failure.stage, failureID := failure.failureID }))

end McpLocalHub.Api.Readiness
