/- Module: Supervisor/LazyReadiness
   source: internal/cli/supervisor_runtime_tracker.go, internal/api/status_enrich.go,
   internal/daemon/lazy_proxy_readiness.go
   digest: The readiness states of a lazy proxy, and the tracker row that commits its events. -/

import Mathlib.Data.Prod.Lex
import McpLocalHub.Api.Readiness
import McpLocalHub.Supervisor.Intents
import McpLocalHub.Supervisor.RuntimeTracker

set_option autoImplicit false

namespace McpLocalHub.Supervisor.LazyReadiness

open Api.Readiness Intents RuntimeTracker

inductive Transition
  | starting | ready | idle | failed | unknown
  deriving DecidableEq

def Transition.rank : Transition → ℕ
  | .starting => 1
  | .ready => 2
  | .idle | .failed => 3
  | .unknown => 0

theorem rank_eq_zero_iff
    {transition : Transition} : transition.rank = 0 ↔ transition = .unknown := by
  cases transition <;> simp [Transition.rank]

structure Key where
  epoch : ℕ
  rank : ℕ
  deriving DecidableEq

def compareLazyProxyReadinessKey (a b : Key) : ℤ :=
  if a.epoch < b.epoch then -1
  else if b.epoch < a.epoch then 1
  else if a.rank < b.rank then -1
  else if b.rank < a.rank then 1
  else 0

/-- The order that the comparison decides: the epoch first, the rank within one epoch. -/
instance : LinearOrder Key :=
  LinearOrder.lift' (fun k => toLex (k.epoch, k.rank)) (by
    intro a b same
    cases a
    cases b
    simpa using same)

theorem Key.lt_iff {a b : Key} : a < b ↔ a.epoch < b.epoch ∨ a.epoch = b.epoch ∧ a.rank < b.rank :=
  Prod.Lex.toLex_lt_toLex

theorem Key.le_iff {a b : Key} : a ≤ b ↔ a.epoch < b.epoch ∨ a.epoch = b.epoch ∧ a.rank ≤ b.rank :=
  Prod.Lex.toLex_le_toLex

theorem Key.eq_iff {a b : Key} : a = b ↔ a.epoch = b.epoch ∧ a.rank = b.rank := by
  cases a
  cases b
  simp

theorem compare_neg_iff (a b : Key) : compareLazyProxyReadinessKey a b < 0 ↔ a < b := by
  unfold compareLazyProxyReadinessKey
  rw [Key.lt_iff]
  split_ifs <;> omega

theorem compare_pos_iff (a b : Key) : 0 < compareLazyProxyReadinessKey a b ↔ b < a := by
  unfold compareLazyProxyReadinessKey
  rw [Key.lt_iff]
  split_ifs <;> omega

theorem compare_eq_zero_iff (a b : Key) : compareLazyProxyReadinessKey a b = 0 ↔ a = b := by
  have neither : compareLazyProxyReadinessKey a b = 0 ↔
      ¬ compareLazyProxyReadinessKey a b < 0 ∧ ¬ 0 < compareLazyProxyReadinessKey a b := by omega
  rw [neither, compare_neg_iff, compare_pos_iff, not_lt, not_lt]
  exact ⟨fun both => le_antisymm both.2 both.1, fun same => ⟨same.ge, same.le⟩⟩

structure LazyState where
  epoch : ℕ
  transition : Transition

def LazyState.key (state : LazyState) : Key := ⟨state.epoch, state.transition.rank⟩

/-- The name is the fixed text, eight hexadecimal digits, a dash and a language. -/
def isLazyProxyTaskName (task : String) : Bool :=
  let name := match task.toList with
    | '\\' :: rest => rest
    | chars => chars
  let head := "mcp-local-hub-lsp-".toList
  let rest := name.drop head.length
  decide (name.take head.length = head) &&
    (rest.take 8).all (fun c => decide ('0' ≤ c ∧ c ≤ '9' ∨ 'a' ≤ c ∧ c ≤ 'f')) &&
    decide (rest[8]? = some '-') && decide (rest.drop 9 ≠ [])

structure LazyProxyReadinessEvent where
  protocolVersion : ℕ
  taskName : String
  wrapperPID : ℕ
  wrapperStartedAt : Option ℤ
  backendEpoch : ℕ
  transition : Transition
  observedAt : Option ℤ

inductive Disposition
  | accepted | duplicate | superseded
  deriving DecidableEq

structure LazyProxyReadinessReceipt where
  disposition : Disposition
  wrapperPID : ℕ
  wrapperStartedAt : Option ℤ
  pidGeneration : ℕ
  backendEpoch : ℕ
  transition : Transition

inductive CommitError
  | invalid | incarnationMismatch | transitionRejected | trackerRejection
  deriving DecidableEq

/-- What the tracker has for one task: its entry, its observation and the lazy readiness state. -/
structure LazyRow where
  entry : Option RuntimeEntry
  observation : Option DaemonReadinessObservation := none
  lazyReadiness : Option LazyState := none

def LazyRow.key (row : LazyRow) : Option Key := row.lazyReadiness.map LazyState.key

def markReadinessObservationLocked (row : LazyRow) (taskName : String)
    (observation : DaemonReadinessObservation) : Option LazyRow :=
  match row.entry with
  | none => none
  | some entry =>
    if observation.observedPIDGeneration = 0 ∨
        observation.observedPIDGeneration ≠ entry.pidGeneration ∨
        observation.currentPIDGeneration ≠ observation.observedPIDGeneration ∨
        observation.pid ≤ 0 ∨ (entry.currentPID : ℤ) ≠ observation.pid ∨
        entry.state ≠ .running then none
    else some { row with observation := some { observation with taskName := taskName } }

def lazyObservation (taskName : String) (entry : RuntimeEntry) :
    Transition → Option DaemonReadinessObservation :=
  let observation : DaemonReadinessObservation :=
    { taskName := taskName, pid := entry.currentPID, processState := "Running",
      currentPIDGeneration := entry.pidGeneration, observedPIDGeneration := entry.pidGeneration,
      intentPresent := true, intentRunnable := true, wrapperStarted := true }
  fun
  | .starting | .idle => some { observation with policy := .syntheticProxy }
  | .ready => some
      { observation with
        policy := .mcpUpstream, listenerReady := true, mcpInitializeReady := true,
        mcpToolsListReady := true }
  | .failed => some
      { observation with
        policy := .mcpUpstream
        failures := [{ stage := .upstreamListener, failureID := "lazy_proxy_failed" }] }
  | .unknown => none

/-- The commit behind its identity checks: the order of the states, then the observation. -/
def commitState (row : LazyRow) (entry : RuntimeEntry) (taskName : String) (next : LazyState) :
    Except CommitError (LazyProxyReadinessReceipt × LazyRow) :=
  let current := row.lazyReadiness.getD ⟨0, .unknown⟩
  let receipt (disposition : Disposition) (state : LazyState) : LazyProxyReadinessReceipt :=
    ⟨disposition, entry.currentPID, entry.startedAt, entry.pidGeneration, state.epoch,
      state.transition⟩
  if next.epoch < current.epoch then .ok (receipt .superseded current, row)
  else if current.epoch = next.epoch ∧ current.transition = next.transition then
    .ok (receipt .duplicate current, row)
  else if current.epoch = next.epoch ∧
      (current.transition ≠ .starting ∨ next.transition ≠ .ready) then
    .ok (receipt .superseded current, row)
  else if (current.epoch = 0 ∧ next.transition ≠ .starting) ∨
      (current.epoch < next.epoch ∧ next.transition = .ready) then .error .transitionRejected
  else
    match lazyObservation taskName entry next.transition with
    | none => .error .invalid
    | some observation =>
      match markReadinessObservationLocked row taskName observation with
      | none => .error .trackerRejection
      | some marked =>
        .ok (receipt .accepted next, { marked with lazyReadiness := some next })

def commitLazyProxyReadinessEvent (row : LazyRow) (event : LazyProxyReadinessEvent) :
    Except CommitError (LazyProxyReadinessReceipt × LazyRow) :=
  if event.protocolVersion ≠ 1 ∨ isLazyProxyTaskName event.taskName = false ∨
      event.wrapperPID = 0 ∨ event.backendEpoch = 0 ∨ event.transition.rank = 0 then .error .invalid
  else
    match event.wrapperStartedAt, event.observedAt with
    | some startedAt, some _ =>
      match row.entry with
      | none => .error .incarnationMismatch
      | some entry =>
        if entry.state ≠ .running ∨ entry.currentPID ≠ event.wrapperPID ∨
            entry.startedAt ≠ some startedAt then .error .incarnationMismatch
        else commitState row entry (canonicalSupervisorTaskName event.taskName)
          ⟨event.backendEpoch, event.transition⟩
    | _, _ => .error .invalid

def hydrateFromState (persisted : RuntimeEntry) : LazyRow := { entry := some persisted }

inductive Verdict
  | accept | duplicate | supersede | reject
  deriving DecidableEq

/-- The first state is a start; a later epoch begins with anything but ready; within an epoch only
ready follows a start. -/
def verdict (current : Option LazyState) (next : LazyState) : Verdict :=
  match current with
  | none => if next.transition = .starting then .accept else .reject
  | some held =>
    if next.epoch < held.epoch then .supersede
    else if held.epoch = next.epoch then
      if held.transition = next.transition then .duplicate
      else if held.transition = .starting ∧ next.transition = .ready then .accept
      else .supersede
    else if next.transition = .ready then .reject else .accept

structure Serves (entry : RuntimeEntry) (pid : ℕ) (startedAt : ℤ) : Prop where
  running : entry.state = .running
  pid : entry.currentPID = pid
  startedAt : entry.startedAt = some startedAt
  spawned : 0 < entry.pidGeneration

def LazyRow.Runs (row : LazyRow) (pid : ℕ) (startedAt : ℤ) : Prop :=
  ∃ entry, row.entry = some entry ∧ Serves entry pid startedAt

def LazyRow.Stored (row : LazyRow) : Prop :=
  ∀ held, row.lazyReadiness = some held → held.epoch ≠ 0 ∧ held.transition ≠ .unknown

inductive Answered (row : LazyRow) (next : LazyState) :
    Except CommitError (LazyProxyReadinessReceipt × LazyRow) → Prop
  | accepted {receipt : LazyProxyReadinessReceipt} {after : LazyRow}
      (rule : verdict row.lazyReadiness next = .accept) (said : receipt.disposition = .accepted)
      (entry : after.entry = row.entry) (stored : after.lazyReadiness = some next) :
      Answered row next (.ok (receipt, after))
  | duplicate {receipt : LazyProxyReadinessReceipt}
      (rule : verdict row.lazyReadiness next = .duplicate)
      (said : receipt.disposition = .duplicate) : Answered row next (.ok (receipt, row))
  | superseded {receipt : LazyProxyReadinessReceipt}
      (rule : verdict row.lazyReadiness next = .supersede)
      (said : receipt.disposition = .superseded) : Answered row next (.ok (receipt, row))
  | rejected (rule : verdict row.lazyReadiness next = .reject) :
      Answered row next (.error .transitionRejected)

section

variable {entry : RuntimeEntry} {row : LazyRow} (found : row.entry = some entry)
  (running : entry.state = .running) (process : 0 < entry.currentPID)
  (spawned : 0 < entry.pidGeneration)

include found running process spawned

theorem markReadinessObservation_runs {taskName : String}
    {transition : Transition} {observation : DaemonReadinessObservation}
    (stands : lazyObservation taskName entry transition = some observation) :
    markReadinessObservationLocked row taskName observation =
      some { row with observation := some { observation with taskName := taskName } } := by
  have read : observation.observedPIDGeneration = entry.pidGeneration ∧
      observation.currentPIDGeneration = entry.pidGeneration ∧
      observation.pid = entry.currentPID := by
    cases transition
    case unknown => cases stands
    all_goals
      cases stands
      exact ⟨rfl, rfl, rfl⟩
  obtain ⟨observed, current, pid⟩ := read
  unfold markReadinessObservationLocked
  rw [found]
  refine if_neg ?_
  rw [observed, current, pid, running]
  simp only [ne_eq, not_true_eq_false, or_false, false_or, not_or]
  omega

theorem commitState_answered {taskName : String} {next : LazyState} (stored : row.Stored)
    (named : next.transition ≠ .unknown) (epoch : next.epoch ≠ 0) :
    Answered row next (commitState row entry taskName next) := by
  have marked (rule : verdict row.lazyReadiness next = .accept) :
      Answered row next
        (match lazyObservation taskName entry next.transition with
        | none => .error .invalid
        | some observation =>
          match markReadinessObservationLocked row taskName observation with
          | none => .error .trackerRejection
          | some marked => .ok (⟨.accepted, entry.currentPID, entry.startedAt,
              entry.pidGeneration, next.epoch, next.transition⟩,
              { marked with lazyReadiness := some next })) := by
    cases stands : lazyObservation taskName entry next.transition with
    | none =>
      cases which : next.transition
      case unknown => exact absurd which named
      all_goals rw [which] at stands; cases stands
    | some observation =>
      dsimp only
      rw [markReadinessObservation_runs found running process spawned stands]
      exact .accepted rule rfl rfl rfl
  unfold commitState
  dsimp only
  cases held : row.lazyReadiness with
  | none =>
    have zero : ((none : Option LazyState).getD ⟨0, .unknown⟩).epoch = 0 := rfl
    rw [zero, if_neg (Nat.not_lt_zero _), if_neg (fun same => epoch same.1.symm),
      if_neg (fun same => epoch same.1.symm)]
    by_cases start : next.transition = .starting
    · rw [if_neg (by simp [start])]
      exact marked (by rw [held]; exact if_pos start)
    · rw [if_pos (.inl ⟨rfl, start⟩)]
      exact .rejected (by rw [held]; exact if_neg start)
  | some state =>
    obtain ⟨nonzero, _⟩ := stored state held
    have read : (some state).getD (⟨0, .unknown⟩ : LazyState) = state := rfl
    rw [read]
    by_cases older : next.epoch < state.epoch
    · rw [if_pos older]
      exact .superseded (by rw [held]; exact if_pos older) rfl
    rw [if_neg older]
    by_cases same : state.epoch = next.epoch
    · have rule : verdict row.lazyReadiness next =
          if state.transition = next.transition then .duplicate
          else if state.transition = .starting ∧ next.transition = .ready then .accept
          else .supersede := by
        rw [held]
        exact (if_neg older).trans (if_pos same)
      by_cases repeated : state.transition = next.transition
      · rw [if_pos ⟨same, repeated⟩]
        exact .duplicate (rule.trans (if_pos repeated)) rfl
      rw [if_neg (fun both => repeated both.2)]
      by_cases follows : state.transition = .starting ∧ next.transition = .ready
      · rw [if_neg (by simp [follows]), if_neg (by simp [follows, epoch, same])]
        exact marked (rule.trans ((if_neg repeated).trans (if_pos follows)))
      · rw [if_pos ⟨same, by tauto⟩]
        exact .superseded (rule.trans ((if_neg repeated).trans (if_neg follows))) rfl
    · have rule : verdict row.lazyReadiness next =
          if next.transition = .ready then .reject else .accept := by
        rw [held]
        exact (if_neg older).trans (if_neg same)
      have later : state.epoch < next.epoch := by omega
      rw [if_neg (fun both => same both.1), if_neg (fun both => same both.1)]
      by_cases ready : next.transition = .ready
      · rw [if_pos (.inr ⟨later, ready⟩)]
        exact .rejected (rule.trans (if_pos ready))
      · rw [if_neg (by simp [nonzero, ready])]
        exact marked (rule.trans (if_neg ready))

end

theorem commit_answered {row : LazyRow} {event : LazyProxyReadinessEvent} {startedAt observedAt : ℤ}
    (version : event.protocolVersion = 1) (task : isLazyProxyTaskName event.taskName = true)
    (process : 0 < event.wrapperPID) (epoch : event.backendEpoch ≠ 0)
    (named : event.transition ≠ .unknown) (since : event.wrapperStartedAt = some startedAt)
    (observed : event.observedAt = some observedAt) (runs : row.Runs event.wrapperPID startedAt)
    (stored : row.Stored) :
    Answered row ⟨event.backendEpoch, event.transition⟩
      (commitLazyProxyReadinessEvent row event) := by
  obtain ⟨entry, found, serves⟩ := runs
  have rank : event.transition.rank ≠ 0 := fun zero => named (rank_eq_zero_iff.mp zero)
  unfold commitLazyProxyReadinessEvent
  rw [if_neg (by simp [version, task, process.ne', epoch, rank]), since, observed]
  rw [found]
  dsimp only
  rw [if_neg (by simp [serves.running, serves.pid, serves.startedAt])]
  exact commitState_answered found serves.running (serves.pid ▸ process) serves.spawned stored named
    epoch

theorem verdict_accept_lt {held next : LazyState} (rule : verdict (some held) next = .accept) :
    held.key < next.key := by
  rw [Key.lt_iff]
  unfold verdict at rule
  dsimp only at rule
  split_ifs at rule with older same repeated follows ready
  · exact .inr ⟨same, by simp [LazyState.key, follows, Transition.rank]⟩
  · left
    change held.epoch < next.epoch
    omega

end McpLocalHub.Supervisor.LazyReadiness
