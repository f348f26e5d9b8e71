/- Module: Supervisor/Intents
   source: internal/api/daemon_intent.go, internal/api/supervisor_intent.go,
   internal/cli/supervise_status.go, internal/cli/supervisor_controller.go
   digest: Task names, daemon descriptors and stop directives, and the snapshots that hold them.
   -/

import McpLocalHub.Supervisor.StateMachine
import Mathlib.Algebra.Order.Ring.Int

set_option autoImplicit false

namespace McpLocalHub.Supervisor.Intents

open StateMachine (IntentDesired)

def hasBackslash (name : String) : Bool := decide (name.toList.head? = some '\\')

def canonicalSupervisorTaskName (name : String) : String :=
  if name = "" ∨ hasBackslash name = true then name else "\\" ++ name

def alternateTaskName (name : String) : String :=
  if hasBackslash name then String.ofList name.toList.tail else "\\" ++ name

theorem hasBackslash_cons (name : String) : hasBackslash ("\\" ++ name) = true := by
  simp [hasBackslash, String.toList_append]

@[simp] theorem canonical_idem (name : String) :
    canonicalSupervisorTaskName (canonicalSupervisorTaskName name) =
      canonicalSupervisorTaskName name := by
  by_cases plain : name = "" ∨ hasBackslash name = true
  · have fixed : canonicalSupervisorTaskName name = name := if_pos plain
    rw [fixed, fixed]
  · have prefixed : canonicalSupervisorTaskName name = "\\" ++ name := if_neg plain
    rw [prefixed]
    exact if_pos (.inr (hasBackslash_cons name))

inductive IntentReason
  | none | userStop | userDisabled | chronicFailure | uninstalled | install | register | idle
  deriving DecidableEq

/-- One row of the stop file. The zero row, of a task without a directive, has `desired = unset`. -/
structure DaemonIntent where
  desired : IntentDesired
  reason : IntentReason
  updatedAt : Int
  deriving DecidableEq

def DaemonIntent.zero : DaemonIntent := ⟨.unset, .none, 0⟩

def clockSkewFutureTolerance : Int := 300 * 10 ^ 9
def clockSkewStaleBound : Int := 31536000 * 10 ^ 9
def stopIntentTTL : Int := 86400 * 10 ^ 9

/-- A stop from the future holds, a very old one does not, and only an operator's plain stop expires
after a day. -/
def DaemonIntent.isActiveStop (intent : DaemonIntent) (now : Int) : Bool :=
  if intent.desired ≠ .stopped then false
  else if now < intent.updatedAt - clockSkewFutureTolerance then true
  else if clockSkewStaleBound < now - intent.updatedAt then false
  else if intent.reason = .userStop ∧ stopIntentTTL < now - intent.updatedAt then false
  else true

def DaemonIntent.effectiveDesired (intent : DaemonIntent) : IntentDesired :=
  if intent.desired = .unset then .running else intent.desired

def DaemonIntent.suppressesAutomaticStart (intent : DaemonIntent) (now : Int) : Bool :=
  decide (intent.effectiveDesired ≠ .running) || intent.isActiveStop now

variable {intent : DaemonIntent} {now : Int}

theorem DaemonIntent.desired_of_activeStop
    (active : intent.isActiveStop now = true) : intent.desired = .stopped := by
  unfold isActiveStop at active
  split_ifs at active with running <;> exact not_not.mp running

theorem DaemonIntent.effectiveDesired_of_activeStop
    (active : intent.isActiveStop now = true) : intent.effectiveDesired = .stopped := by
  simp [effectiveDesired, desired_of_activeStop active]

theorem DaemonIntent.suppresses_of_activeStop
    (active : intent.isActiveStop now = true) : intent.suppressesAutomaticStart now = true := by
  simp [suppressesAutomaticStart, active]

/-- The fields of a row that the handlers read. `resolvedPort` is what `EffectiveDaemonPort` finds
without its own port. -/
structure SupervisorDaemon where
  taskName : String
  args : List String
  hasRuntimeSpec : Bool
  port : Nat
  resolvedPort : Option Nat
  deriving DecidableEq

def effectiveDaemonPort (d : SupervisorDaemon) : Option Nat :=
  if 0 < d.port then some d.port else d.resolvedPort.filter (0 < ·)

def isSerenaProxyDescriptor (d : SupervisorDaemon) : Bool :=
  decide (d.args.take 2 = ["daemon", "serena-proxy"])

def isWorkspaceLSPProxyDescriptor (d : SupervisorDaemon) : Bool :=
  decide (d.args.take 2 = ["daemon", "workspace-proxy"])

def isDynamicPoolProxyDescriptor (d : SupervisorDaemon) : Bool :=
  isSerenaProxyDescriptor d || isWorkspaceLSPProxyDescriptor d

structure SupervisorIntentFile where
  intentGeneration : Nat
  daemons : List SupervisorDaemon
  stops : List (String × DaemonIntent)

def SupervisorIntentFile.findSupervisorDaemonByTaskName (file : SupervisorIntentFile)
    (name : String) : Option SupervisorDaemon :=
  file.daemons.find? (fun d => d.taskName = name)

/-- The intent cache's map is filled in file order, so the last row of a name stays. -/
def SupervisorIntentFile.lookup (file : SupervisorIntentFile) (name : String) :
    Option SupervisorDaemon :=
  file.daemons.reverse.find? (fun d => d.taskName = name)

def lookupCanonical (cache : Option SupervisorIntentFile) (name : String) :
    Option SupervisorDaemon :=
  match cache with
  | none => none
  | some file => (file.lookup name).or (file.lookup (alternateTaskName name))

def taskNames (cache : Option SupervisorIntentFile) : List String :=
  match cache with
  | none => []
  | some file => file.daemons.map (fun d => canonicalSupervisorTaskName d.taskName)

def lookupStop (stops : List (String × DaemonIntent)) (name : String) : DaemonIntent :=
  (stops.lookup name).getD .zero

end McpLocalHub.Supervisor.Intents
