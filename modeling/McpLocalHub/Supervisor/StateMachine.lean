/- Module: Supervisor/StateMachine
   source: internal/api/supervisor_state_machine.go
   digest: The six-state lifecycle table of one daemon and what its side-effect texts stand for.
   -/

import Mathlib.Data.List.Infix

set_option autoImplicit false

namespace McpLocalHub.Supervisor.StateMachine

inductive SMState
  | idle | spawning | running | exiting | backoffWaiting | quarantined
  deriving DecidableEq

inductive SMEvent
  | start | healthOK | childExit | timerDue | intentUpdate | manualRestart
  | requestGraceful | quiesceComplete | supervisorRestart
  deriving DecidableEq

/-- The `Desired` text of a daemon intent; `unset` is the zero value of a task without a row. -/
inductive IntentDesired
  | unset | running | stopped
  deriving DecidableEq

inductive QueuedAction
  | none | stop | respawn
  deriving DecidableEq

structure SMContext where
  intentDesired : IntentDesired
  intentIsActiveStop : Bool
  failures : Nat
  queuedAction : QueuedAction
  gracefulInProgress : Bool

inductive SideEffect
  | none | spawn | intentSuppressesSpawn | restartRefusedIntentStopped | alreadyDrained | clearQuiesce
  | terminateQueuedNone | terminateQueuedRespawn | clearQueued | armTimerAtBackoff | setQueuedStop
  | armTimer | drainWins | deferredViaGraceful | coalesceQueuedRespawn | setQueuedRespawn
  | coalesceQueuedNone | logIgnore | cancelTimerClearQueued | clearTimer | cancelTimer
  | cancelTimerSpawn | resetFailuresSpawn | alreadyNotRunning
  deriving DecidableEq

def SideEffect.text : SideEffect → String
  | .none => ""
  | .spawn => "bump pid_generation, create-process"
  | .intentSuppressesSpawn => "intent suppresses spawn"
  | .restartRefusedIntentStopped => "RESTART_REFUSED_INTENT_STOPPED"
  | .alreadyDrained => "no-op (already drained)"
  | .clearQuiesce => "clear quiesce_in_progress"
  | .terminateQueuedNone => "issue terminate, queued_action=none"
  | .terminateQueuedRespawn => "issue terminate, queued_action=respawn"
  | .clearQueued => "clear queued_action"
  | .armTimerAtBackoff => "arm timer at backoff(failures)"
  | .setQueuedStop => "set queued_action=stop"
  | .armTimer => "arm timer"
  | .drainWins => "drain wins (graceful-exit suppresses respawn)"
  | .deferredViaGraceful => "deferred via graceful-exit"
  | .coalesceQueuedRespawn => "coalesce — set queued_action=respawn"
  | .setQueuedRespawn => "set queued_action=respawn"
  | .coalesceQueuedNone => "coalesce, set queued_action=none (drain wins)"
  | .logIgnore => "log + ignore"
  | .cancelTimerClearQueued => "cancel timer, clear queued_action"
  | .clearTimer => "clear timer"
  | .cancelTimer => "cancel timer"
  | .cancelTimerSpawn => "cancel timer, bump pid_generation, create-process"
  | .resetFailuresSpawn => "reset failures, bump pid_generation, create-process"
  | .alreadyNotRunning => "no-op (already not running)"

structure TransitionResult where
  newState : SMState
  side : SideEffect
  persistBefore : Bool
  matched : Bool

def contains (text needle : String) : Bool := decide (needle.toList <:+: text.toList)

def transitionIdle (ev : SMEvent) (ctx : SMContext) : TransitionResult :=
  let runnable := ctx.intentDesired = .running ∧ ctx.intentIsActiveStop = false
  match ev with
  | .start =>
    if runnable then ⟨.spawning, .spawn, true, true⟩
    else ⟨.idle, .intentSuppressesSpawn, false, true⟩
  | .intentUpdate =>
    if ctx.intentDesired = .stopped then ⟨.idle, .none, false, true⟩
    else if runnable then ⟨.spawning, .spawn, true, true⟩
    else ⟨.idle, .none, false, false⟩
  | .manualRestart =>
    if runnable then ⟨.spawning, .spawn, true, true⟩
    else ⟨.idle, .restartRefusedIntentStopped, false, true⟩
  | .requestGraceful => ⟨.idle, .alreadyDrained, false, true⟩
  | .quiesceComplete => ⟨.idle, .clearQuiesce, false, true⟩
  | _ => ⟨.idle, .none, false, false⟩

def transitionSpawning (ev : SMEvent) (ctx : SMContext) : TransitionResult :=
  match ev with
  | .healthOK =>
    if ctx.queuedAction = .stop then
      ⟨.exiting, .terminateQueuedNone, true, true⟩
    else ⟨.running, .none, false, true⟩
  | .childExit =>
    if ctx.queuedAction = .stop ∨ ctx.intentDesired = .stopped then
      ⟨.idle, .clearQueued, true, true⟩
    else ⟨.backoffWaiting, .armTimerAtBackoff, true, true⟩
  | .intentUpdate =>
    if ctx.intentDesired = .stopped then ⟨.spawning, .setQueuedStop, false, true⟩
    else ⟨.spawning, .clearQueued, false, true⟩
  | .requestGraceful => ⟨.exiting, .terminateQueuedNone, true, true⟩
  | _ => ⟨.spawning, .none, false, false⟩

def transitionRunning (ev : SMEvent) (ctx : SMContext) : TransitionResult :=
  match ev with
  | .childExit => ⟨.backoffWaiting, .armTimer, true, true⟩
  | .intentUpdate =>
    if ctx.intentDesired = .stopped then
      ⟨.exiting, .terminateQueuedNone, true, true⟩
    else ⟨.running, .none, false, false⟩
  | .manualRestart => ⟨.exiting, .terminateQueuedRespawn, true, true⟩
  | .requestGraceful => ⟨.exiting, .terminateQueuedNone, true, true⟩
  | _ => ⟨.running, .none, false, false⟩

def transitionExiting (ev : SMEvent) (ctx : SMContext) : TransitionResult :=
  match ev with
  | .childExit =>
    if ctx.gracefulInProgress then
      ⟨.idle, .drainWins, false, true⟩
    else if ctx.queuedAction = .respawn then
      ⟨.spawning, .spawn, true, true⟩
    else ⟨.idle, .none, false, true⟩
  | .manualRestart =>
    if ctx.gracefulInProgress then ⟨.exiting, .deferredViaGraceful, false, true⟩
    else ⟨.exiting, .coalesceQueuedRespawn, true, true⟩
  | .intentUpdate =>
    if ctx.gracefulInProgress ∧ ctx.intentDesired = .running then
      ⟨.exiting, .deferredViaGraceful, false, true⟩
    else if ctx.intentDesired = .stopped then ⟨.exiting, .clearQueued, true, true⟩
    else if ctx.intentDesired = .running then ⟨.exiting, .setQueuedRespawn, true, true⟩
    else ⟨.exiting, .none, false, false⟩
  | .requestGraceful => ⟨.exiting, .coalesceQueuedNone, true, true⟩
  | .timerDue => ⟨.exiting, .logIgnore, false, true⟩
  | _ => ⟨.exiting, .none, false, false⟩

def transitionBackoffWaiting (ev : SMEvent) (ctx : SMContext) : TransitionResult :=
  match ev with
  | .timerDue =>
    if ctx.queuedAction = .stop ∨ ctx.intentDesired = .stopped then
      ⟨.idle, .cancelTimerClearQueued, true, true⟩
    else if ctx.failures < 10 then
      ⟨.spawning, .spawn, true, true⟩
    else ⟨.quarantined, .clearTimer, true, true⟩
  | .intentUpdate =>
    if ctx.intentDesired = .stopped then ⟨.idle, .cancelTimer, true, true⟩
    else if ctx.intentDesired = .running then
      ⟨.spawning, .cancelTimerSpawn, true, true⟩
    else ⟨.backoffWaiting, .none, false, false⟩
  | .manualRestart =>
    ⟨.spawning, .cancelTimerSpawn, true, true⟩
  | .requestGraceful => ⟨.idle, .cancelTimer, true, true⟩
  | _ => ⟨.backoffWaiting, .none, false, false⟩

def transitionQuarantined (ev : SMEvent) (ctx : SMContext) : TransitionResult :=
  match ev with
  | .intentUpdate =>
    if ctx.intentDesired = .stopped then ⟨.quarantined, .none, false, true⟩
    else if ctx.intentDesired = .running then
      ⟨.spawning, .resetFailuresSpawn, true, true⟩
    else ⟨.quarantined, .none, false, false⟩
  | .manualRestart =>
    ⟨.spawning, .resetFailuresSpawn, true, true⟩
  | .requestGraceful => ⟨.quarantined, .alreadyNotRunning, false, true⟩
  | _ => ⟨.quarantined, .none, false, false⟩

/-- The whole table, one helper for each state. A pair without a row keeps the state. -/
def transition (state : SMState) (ev : SMEvent) (ctx : SMContext) : TransitionResult :=
  match state with
  | .idle => transitionIdle ev ctx
  | .spawning => transitionSpawning ev ctx
  | .running => transitionRunning ev ctx
  | .exiting => transitionExiting ev ctx
  | .backoffWaiting => transitionBackoffWaiting ev ctx
  | .quarantined => transitionQuarantined ev ctx

def createsProcess (side : SideEffect) : Bool := contains side.text "create-process"

def queuedWriteBack (side : SideEffect) (queued : QueuedAction) : QueuedAction :=
  if contains side.text "set queued_action=stop" then .stop
  else if contains side.text "queued_action=respawn" then .respawn
  else if contains side.text "queued_action=none" || contains side.text "clear queued_action" then .none
  else queued

def resetsFailures (side : SideEffect) : Bool := contains side.text "reset failures"

/-! The substring tests, evaluated once for the whole table. -/

private theorem contains_ofList (text needle : List Char) :
    contains (String.ofList text) (String.ofList needle) = decide (needle <:+: text) := by
  simp only [contains, String.toList_ofList]

section

variable (side : SideEffect)

theorem createsProcess_eq :
    createsProcess side =
      match side with
      | .spawn | .cancelTimerSpawn | .resetFailuresSpawn => true
      | _ => false := by
  unfold createsProcess
  cases side <;> exact (contains_ofList _ _).trans (by decide +kernel)

private theorem contains_setStop :
    contains side.text "set queued_action=stop" = decide (side = .setQueuedStop) := by
  cases side <;> exact (contains_ofList _ _).trans (by decide +kernel)

theorem contains_queuedStop :
    contains side.text "queued_action=stop" = decide (side = .setQueuedStop) := by
  cases side <;> exact (contains_ofList _ _).trans (by decide +kernel)

private theorem contains_respawn :
    contains side.text "queued_action=respawn" =
      decide (side ∈ [.terminateQueuedRespawn, .coalesceQueuedRespawn, .setQueuedRespawn]) := by
  cases side <;> exact (contains_ofList _ _).trans (by decide +kernel)

private theorem contains_none :
    contains side.text "queued_action=none" =
      decide (side ∈ [.terminateQueuedNone, .coalesceQueuedNone]) := by
  cases side <;> exact (contains_ofList _ _).trans (by decide +kernel)

private theorem contains_clear :
    contains side.text "clear queued_action" =
      decide (side ∈ [.clearQueued, .cancelTimerClearQueued]) := by
  cases side <;> exact (contains_ofList _ _).trans (by decide +kernel)

theorem queuedWriteBack_eq (queued : QueuedAction) :
    queuedWriteBack side queued =
      match side with
      | .setQueuedStop => .stop
      | .terminateQueuedRespawn | .coalesceQueuedRespawn | .setQueuedRespawn => .respawn
      | .terminateQueuedNone | .coalesceQueuedNone | .clearQueued | .cancelTimerClearQueued => .none
      | _ => queued := by
  unfold queuedWriteBack
  rw [contains_setStop, contains_respawn, contains_none, contains_clear]
  cases side <;> rfl

end

def mayOwnProcess (state : SMState) : Bool :=
  match state with
  | .spawning | .running | .exiting => true
  | _ => false

def QueuedFits (state : SMState) (queued : QueuedAction) : Prop :=
  (queued = .stop → state = .spawning) ∧ (queued = .respawn → state = .exiting)

/-- The side effect's own write-back, and the clear that every departure from the exiting state
makes. -/
def queuedAfter (state : SMState) (result : TransitionResult) (queued : QueuedAction) :
    QueuedAction :=
  if state = .exiting ∧ (result.newState = .idle ∨ result.newState = .spawning) then .none
  else queuedWriteBack result.side queued

def quietSide (side : SideEffect) : Bool :=
  match side with
  | .none | .intentSuppressesSpawn | .restartRefusedIntentStopped | .alreadyDrained | .clearQuiesce
  | .drainWins | .deferredViaGraceful | .clearQueued | .coalesceQueuedNone | .logIgnore
  | .alreadyNotRunning => true
  | _ => false

/-- What a row can be: the event and the guard under which it is taken, and its result. -/
inductive Row (ctx : SMContext) : SMState → SMEvent → TransitionResult → Prop
  | unmatched (state : SMState) (ev : SMEvent)
      (live : ctx.intentDesired = .stopped → ev ≠ .intentUpdate) :
      Row ctx state ev ⟨state, .none, false, false⟩
  | spawnIdle (ev : SMEvent) (running : ctx.intentDesired = .running) :
      Row ctx .idle ev ⟨.spawning, .spawn, true, true⟩
  | stayIdle (ev : SMEvent) (side : SideEffect)
      (quiet : quietSide side = true) :
      Row ctx .idle ev ⟨.idle, side, false, true⟩
  | healthyStopped (queued : ctx.queuedAction = .stop) :
      Row ctx .spawning .healthOK ⟨.exiting, .terminateQueuedNone, true, true⟩
  | healthy (queued : ctx.queuedAction ≠ .stop) :
      Row ctx .spawning .healthOK ⟨.running, .none, false, true⟩
  | diedStopped : Row ctx .spawning .childExit ⟨.idle, .clearQueued, true, true⟩
  | diedSpawning (queued : ctx.queuedAction ≠ .stop) :
      Row ctx .spawning .childExit ⟨.backoffWaiting, .armTimerAtBackoff, true, true⟩
  | queueStop : Row ctx .spawning .intentUpdate ⟨.spawning, .setQueuedStop, false, true⟩
  | unqueueStop : Row ctx .spawning .intentUpdate ⟨.spawning, .clearQueued, false, true⟩
  | drainSpawning : Row ctx .spawning .requestGraceful ⟨.exiting, .terminateQueuedNone, true, true⟩
  | diedRunning : Row ctx .running .childExit ⟨.backoffWaiting, .armTimer, true, true⟩
  | endRunning (ev : SMEvent) (stops : ev ∈ [.intentUpdate, .requestGraceful]) :
      Row ctx .running ev ⟨.exiting, .terminateQueuedNone, true, true⟩
  | restartRunning :
      Row ctx .running .manualRestart ⟨.exiting, .terminateQueuedRespawn, true, true⟩
  | drained (side : SideEffect) (quiet : quietSide side = true) :
      Row ctx .exiting .childExit ⟨.idle, side, false, true⟩
  | respawned (queued : ctx.queuedAction = .respawn) :
      Row ctx .exiting .childExit ⟨.spawning, .spawn, true, true⟩
  | stayExiting (ev : SMEvent) (side : SideEffect) (persist : Bool)
      (quiet : quietSide side = true) :
      Row ctx .exiting ev ⟨.exiting, side, persist, true⟩
  | coalesceRespawn :
      Row ctx .exiting .manualRestart ⟨.exiting, .coalesceQueuedRespawn, true, true⟩
  | queueRespawn (running : ctx.intentDesired = .running) :
      Row ctx .exiting .intentUpdate ⟨.exiting, .setQueuedRespawn, true, true⟩
  | expiredStopped : Row ctx .backoffWaiting .timerDue ⟨.idle, .cancelTimerClearQueued, true, true⟩
  | expired (live : ctx.intentDesired ≠ .stopped) :
      Row ctx .backoffWaiting .timerDue ⟨.spawning, .spawn, true, true⟩
  | exhausted : Row ctx .backoffWaiting .timerDue ⟨.quarantined, .clearTimer, true, true⟩
  | endBackoff (ev : SMEvent) (stops : ev ∈ [.intentUpdate, .requestGraceful]) :
      Row ctx .backoffWaiting ev ⟨.idle, .cancelTimer, true, true⟩
  | wakeBackoff (ev : SMEvent) (live : ctx.intentDesired = .stopped → ev = .manualRestart) :
      Row ctx .backoffWaiting ev ⟨.spawning, .cancelTimerSpawn, true, true⟩
  | stayQuarantined (ev : SMEvent) (side : SideEffect)
      (quiet : quietSide side = true) :
      Row ctx .quarantined ev ⟨.quarantined, side, false, true⟩
  | release (ev : SMEvent) (live : ctx.intentDesired = .stopped → ev = .manualRestart) :
      Row ctx .quarantined ev ⟨.spawning, .resetFailuresSpawn, true, true⟩

section Rows

variable (ev : SMEvent) (ctx : SMContext)

private theorem idle_row : Row ctx .idle ev (transitionIdle ev ctx) := by
  cases ev with
  | start | manualRestart =>
    simp only [transitionIdle]
    split_ifs with runnable
    · exact .spawnIdle _ runnable.1
    · exact .stayIdle _ _ rfl
  | intentUpdate =>
    simp only [transitionIdle]
    split_ifs with stopped runnable
    · exact .stayIdle _ _ rfl
    · exact .spawnIdle _ runnable.1
    · exact .unmatched _ _ (fun still => absurd still stopped)
  | requestGraceful | quiesceComplete => exact .stayIdle _ _ rfl
  | _ => exact .unmatched _ _ (fun _ => nofun)

private theorem spawning_row : Row ctx .spawning ev (transitionSpawning ev ctx) := by
  cases ev with
  | healthOK =>
    simp only [transitionSpawning]
    split_ifs with queued
    · exact .healthyStopped queued
    · exact .healthy queued
  | childExit =>
    simp only [transitionSpawning]
    split_ifs with stopped
    · exact .diedStopped
    · exact .diedSpawning (fun queued => stopped (.inl queued))
  | intentUpdate =>
    simp only [transitionSpawning]
    split_ifs
    · exact .queueStop
    · exact .unqueueStop
  | requestGraceful => exact .drainSpawning
  | _ => exact .unmatched _ _ (fun _ => nofun)

private theorem running_row : Row ctx .running ev (transitionRunning ev ctx) := by
  cases ev with
  | childExit => exact .diedRunning
  | intentUpdate =>
    simp only [transitionRunning]
    split_ifs with stopped
    · exact .endRunning _ (by simp)
    · exact .unmatched _ _ (fun still => absurd still stopped)
  | manualRestart => exact .restartRunning
  | requestGraceful => exact .endRunning _ (by simp)
  | _ => exact .unmatched _ _ (fun _ => nofun)

private theorem exiting_row : Row ctx .exiting ev (transitionExiting ev ctx) := by
  cases ev with
  | childExit =>
    simp only [transitionExiting]
    split_ifs with graceful respawn
    · exact .drained _ rfl
    · exact .respawned respawn
    · exact .drained _ rfl
  | manualRestart =>
    simp only [transitionExiting]
    split_ifs
    · exact .stayExiting _ _ _ rfl
    · exact .coalesceRespawn
  | intentUpdate =>
    simp only [transitionExiting]
    split_ifs with deferred stopped running
    · exact .stayExiting _ _ _ rfl
    · exact .stayExiting _ _ _ rfl
    · exact .queueRespawn running
    · exact .unmatched _ _ (fun still => absurd still stopped)
  | requestGraceful | timerDue => exact .stayExiting _ _ _ rfl
  | _ => exact .unmatched _ _ (fun _ => nofun)

private theorem backoffWaiting_row :
    Row ctx .backoffWaiting ev (transitionBackoffWaiting ev ctx) := by
  cases ev with
  | timerDue =>
    simp only [transitionBackoffWaiting]
    split_ifs with stopped
    · exact .expiredStopped
    · exact .expired (fun still => stopped (.inr still))
    · exact .exhausted
  | intentUpdate =>
    simp only [transitionBackoffWaiting]
    split_ifs with stopped
    · exact .endBackoff _ (by simp)
    · exact .wakeBackoff _ (fun still => absurd still stopped)
    · exact .unmatched _ _ (fun still => absurd still stopped)
  | manualRestart => exact .wakeBackoff _ (fun _ => rfl)
  | requestGraceful => exact .endBackoff _ (by simp)
  | _ => exact .unmatched _ _ (fun _ => nofun)

private theorem quarantined_row : Row ctx .quarantined ev (transitionQuarantined ev ctx) := by
  cases ev with
  | intentUpdate =>
    simp only [transitionQuarantined]
    split_ifs with stopped
    · exact .stayQuarantined _ _ rfl
    · exact .release _ (fun still => absurd still stopped)
    · exact .unmatched _ _ (fun still => absurd still stopped)
  | manualRestart => exact .release _ (fun _ => rfl)
  | requestGraceful => exact .stayQuarantined _ _ rfl
  | _ => exact .unmatched _ _ (fun _ => nofun)

theorem transition_row (state : SMState) : Row ctx state ev (transition state ev ctx) := by
  cases state with
  | idle => exact idle_row ev ctx
  | spawning => exact spawning_row ev ctx
  | running => exact running_row ev ctx
  | exiting => exact exiting_row ev ctx
  | backoffWaiting => exact backoffWaiting_row ev ctx
  | quarantined => exact quarantined_row ev ctx

end Rows

variable (state : SMState) (ev : SMEvent) (ctx : SMContext)

private theorem quiet_createsProcess {side : SideEffect} (quiet : quietSide side = true) :
    createsProcess side = false := by
  rw [createsProcess_eq]
  revert quiet
  cases side <;> decide

private theorem quiet_respawn {side : SideEffect} (quiet : quietSide side = true) :
    queuedWriteBack side .none ≠ .respawn := by
  rw [queuedWriteBack_eq]
  revert quiet
  cases side <;> decide

/-- The rows that ask for a process are exactly those that enter the spawning state. -/
theorem createsProcess_iff : createsProcess (transition state ev ctx).side = true ↔
      (transition state ev ctx).newState = .spawning ∧ state ≠ .spawning := by
  have row := transition_row ev ctx state
  generalize transition state ev ctx = result at row ⊢
  cases row with
  | stayIdle _ _ quiet | drained _ quiet | stayExiting _ _ _ quiet | stayQuarantined _ _ quiet =>
    simp [quiet_createsProcess quiet]
  | unmatched =>
    rw [createsProcess_eq]
    exact ⟨nofun, fun enters => absurd enters.1 enters.2⟩
  | _ =>
    rw [createsProcess_eq]
    decide

theorem mayOwnProcess_of_not_childExit
    (owns : mayOwnProcess state = true) (notExit : ev ≠ .childExit) :
    mayOwnProcess (transition state ev ctx).newState = true ∧
      createsProcess (transition state ev ctx).side = false := by
  have row := transition_row ev ctx state
  generalize transition state ev ctx = result at row ⊢
  rw [createsProcess_eq]
  cases row with
  | unmatched => exact ⟨owns, rfl⟩
  | stayExiting _ _ _ quiet => exact ⟨rfl, createsProcess_eq _ ▸ quiet_createsProcess quiet⟩
  | diedStopped | diedSpawning | diedRunning | drained | respawned => exact absurd rfl notExit
  | healthyStopped | healthy | queueStop | unqueueStop | drainSpawning | endRunning | restartRunning
  | coalesceRespawn | queueRespawn => exact ⟨rfl, rfl⟩
  | _ => cases owns

theorem spawning_stays (matched : (transition .spawning ev ctx).matched = true)
    (stays : (transition .spawning ev ctx).newState = .spawning) : ev = .intentUpdate := by
  have row := transition_row ev ctx .spawning
  generalize transition .spawning ev ctx = result at row matched stays
  cases row with
  | unmatched => cases matched
  | queueStop | unqueueStop => rfl
  | _ => cases stays

theorem stopped_intentUpdate_newState (stopped : ctx.intentDesired = .stopped) :
    (transition state .intentUpdate ctx).newState =
      match state with
      | .running => .exiting
      | .backoffWaiting => .idle
      | other => other := by
  have row := transition_row .intentUpdate ctx state
  generalize transition state .intentUpdate ctx = result at row ⊢
  cases row with
  | unmatched _ _ live => exact absurd rfl (live stopped)
  | spawnIdle _ running => exact absurd (stopped.symm.trans running) nofun
  | wakeBackoff _ live | release _ live => exact absurd (live stopped) nofun
  | _ => rfl

theorem stopped_intentUpdate_spawns_nothing (stopped : ctx.intentDesired = .stopped) :
    createsProcess (transition state .intentUpdate ctx).side = false := by
  by_contra asks
  obtain ⟨enters, outside⟩ := (createsProcess_iff _ _ _).mp (Bool.not_eq_false _ ▸ asks)
  rw [stopped_intentUpdate_newState state ctx stopped] at enters
  cases state <;> first | exact outside rfl | cases enters

theorem newState_of_setQueuedStop (writes : (transition state ev ctx).side = .setQueuedStop) :
    (transition state ev ctx).newState = .spawning := by
  have row := transition_row ev ctx state
  generalize transition state ev ctx = result at row writes ⊢
  cases row with
  | queueStop => rfl
  | stayIdle _ _ quiet | drained _ quiet | stayExiting _ _ _ quiet | stayQuarantined _ _ quiet =>
    obtain rfl := writes
    cases quiet
  | _ => cases writes

private theorem newState_of_queuedRespawn
    (writes : queuedWriteBack (transition state ev ctx).side .none = .respawn) :
    (transition state ev ctx).newState = .exiting := by
  have row := transition_row ev ctx state
  generalize transition state ev ctx = result at row writes ⊢
  cases row with
  | restartRunning | coalesceRespawn | queueRespawn | healthyStopped | drainSpawning | endRunning => rfl
  | stayIdle _ _ quiet | drained _ quiet | stayExiting _ _ _ quiet | stayQuarantined _ _ quiet =>
    exact absurd writes (quiet_respawn quiet)
  | _ =>
    rw [queuedWriteBack_eq] at writes
    cases writes

private theorem clears_queued_stop (queued : ctx.queuedAction = .stop)
    (leaves : (transition .spawning ev ctx).newState ≠ .spawning) :
    queuedWriteBack (transition .spawning ev ctx).side .stop = .none := by
  have row := transition_row ev ctx .spawning
  generalize transition .spawning ev ctx = result at row leaves ⊢
  rw [queuedWriteBack_eq]
  cases row with
  | unmatched | queueStop | unqueueStop => exact absurd rfl leaves
  | healthy other | diedSpawning other => exact absurd queued other
  | healthyStopped | diedStopped | drainSpawning => rfl

theorem exiting_next : (transition .exiting ev ctx).newState = .exiting ∨
      (transition .exiting ev ctx).newState = .idle ∨
      (transition .exiting ev ctx).newState = .spawning := by
  have row := transition_row ev ctx .exiting
  generalize transition .exiting ev ctx = result at row ⊢
  cases row with
  | unmatched | stayExiting | coalesceRespawn | queueRespawn => exact .inl rfl
  | drained => exact .inr (.inl rfl)
  | respawned => exact .inr (.inr rfl)

theorem queuedAfter_fits (fits : QueuedFits state ctx.queuedAction) :
    QueuedFits (transition state ev ctx).newState
      (queuedAfter state (transition state ev ctx) ctx.queuedAction) := by
  unfold queuedAfter
  split_ifs with departs
  · exact ⟨nofun, nofun⟩
  · constructor
    · intro stop
      by_cases kept : ctx.queuedAction = .stop
      · obtain rfl := fits.1 kept
        by_contra leaves
        rw [kept, clears_queued_stop ev ctx kept leaves] at stop
        cases stop
      · apply newState_of_setQueuedStop
        rw [queuedWriteBack_eq] at stop
        split at stop <;> first | assumption | cases stop | exact absurd stop kept
    · intro respawn
      by_cases kept : ctx.queuedAction = .respawn
      · obtain rfl := fits.2 kept
        exact (exiting_next ev ctx).resolve_right (fun next => departs ⟨rfl, next⟩)
      · apply newState_of_queuedRespawn
        rw [queuedWriteBack_eq] at respawn ⊢
        split at respawn <;> first | rfl | cases respawn | exact absurd respawn kept

theorem QueuedFits.eq_none {state : SMState} {queued : QueuedAction}
    (fits : QueuedFits state queued) (notSpawning : state ≠ .spawning)
    (notExiting : state ≠ .exiting) : queued = .none := by
  cases queued with
  | none => rfl
  | stop => exact absurd (fits.1 rfl) notSpawning
  | respawn => exact absurd (fits.2 rfl) notExiting

theorem queuedFits_none (state : SMState) : QueuedFits state .none := ⟨nofun, nofun⟩

theorem QueuedFits.elsewhere {state : SMState} {queued : QueuedAction}
    (fits : QueuedFits state queued) (notSpawning : state ≠ .spawning)
    (notExiting : state ≠ .exiting) (other : SMState) : QueuedFits other queued := by
  rw [fits.eq_none notSpawning notExiting]
  exact queuedFits_none other

theorem queuedAfter_creates (fits : QueuedFits state ctx.queuedAction)
    (creates : createsProcess (transition state ev ctx).side = true) :
    queuedAfter state (transition state ev ctx) ctx.queuedAction = .none := by
  obtain ⟨enters, outside⟩ := (createsProcess_iff state ev ctx).mp creates
  unfold queuedAfter
  split_ifs with departs
  · rfl
  · have notExiting : state ≠ .exiting := fun exiting => departs ⟨exiting, .inr enters⟩
    rw [fits.eq_none outside notExiting, queuedWriteBack_eq]
    rw [createsProcess_eq] at creates
    split at creates
    · next side => rw [side]
    · next side => rw [side]
    · next side => rw [side]
    · cases creates

section

variable (stopped : ctx.intentDesired = .stopped) (noRestart : ev ≠ .manualRestart)
  (noRespawn : ctx.queuedAction ≠ .respawn)

include stopped noRestart noRespawn

/-- Under a stopped intent only a queued respawn or a restart asks for a process, and only a restart
queues one. -/
theorem stopped_spawns_nothing : createsProcess (transition state ev ctx).side = false ∧
      queuedWriteBack (transition state ev ctx).side .none ≠ .respawn := by
  have row := transition_row ev ctx state
  generalize transition state ev ctx = result at row ⊢
  cases row with
  | stayIdle _ _ quiet | drained _ quiet | stayExiting _ _ _ quiet | stayQuarantined _ _ quiet =>
    exact ⟨quiet_createsProcess quiet, quiet_respawn quiet⟩
  | spawnIdle _ running | queueRespawn running => exact absurd (stopped.symm.trans running) nofun
  | wakeBackoff _ live | release _ live => exact absurd (live stopped) noRestart
  | expired live => exact absurd stopped live
  | respawned queued => exact absurd queued noRespawn
  | restartRunning | coalesceRespawn => exact absurd rfl noRestart
  | _ =>
    rw [createsProcess_eq, queuedWriteBack_eq]
    exact ⟨rfl, nofun⟩

theorem queuedAfter_stopped :
    queuedAfter state (transition state ev ctx) ctx.queuedAction ≠ .respawn := by
  have quiet := (stopped_spawns_nothing state ev ctx stopped noRestart noRespawn).2
  rw [queuedWriteBack_eq] at quiet
  unfold queuedAfter
  split_ifs
  · nofun
  · rw [queuedWriteBack_eq]
    split at quiet <;> first | exact noRespawn | exact quiet

end

theorem queuedAfter_stop
    (stopped : ctx.intentDesired = .stopped) (fits : QueuedFits state ctx.queuedAction) :
    queuedAfter state (transition state .intentUpdate ctx) ctx.queuedAction ≠ .respawn := by
  by_cases respawn : ctx.queuedAction = .respawn
  · obtain rfl := fits.2 respawn
    have side : (transition .exiting .intentUpdate ctx).side = .clearQueued := by
      simp [transition, transitionExiting, stopped]
    unfold queuedAfter
    rw [side, queuedWriteBack_eq]
    split_ifs <;> nofun
  · exact queuedAfter_stopped state .intentUpdate ctx stopped nofun respawn

end McpLocalHub.Supervisor.StateMachine
