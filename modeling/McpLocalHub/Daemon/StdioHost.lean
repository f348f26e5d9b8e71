/- Module: Daemon/StdioHost
   source: internal/daemon/host.go, internal/daemon/protocol_bridge.go
   digest: HTTP requests multiplexed onto the stdin and stdout of one subprocess, as interleaved
   steps. -/

import McpLocalHub.Foundation.RawJSON
import McpLocalHub.Foundation.Runs
import Mathlib.Algebra.Order.Ring.Int

set_option autoImplicit false

namespace McpLocalHub.Daemon.StdioHost

open Foundation.RawJSON

def decimal (digits : List Char) : Option Int :=
  if digits ≠ [] ∧ digits.all Char.isDigit = true then
    some (digits.foldl (fun n c => 10 * n + (c.toNat - '0'.toNat : Nat)) 0)
  else none

def parseInt64 (text : String) : Option Int :=
  let parsed :=
    match text.toList with
    | '-' :: digits => (decimal digits).map (fun n => -n)
    | digits => decimal digits
  parsed.filter (fun n => decide (-2 ^ 63 ≤ n ∧ n < 2 ^ 63))

def toInt64 (raw : RawMessage) : Option Int :=
  match raw with
  | .null => some 0
  | .number text => parseInt64 text
  | _ => none

structure Peek where
  id : Option RawMessage
  method : String

def names (key field : String) : Bool := decide (key.toLower = field)

/-- One member decoded into the reader's struct; a method that is no string fails the decoding. -/
def peekField (peek : Peek) (field : String × RawMessage) : Option Peek :=
  if names field.1 "id" then some { peek with id := some field.2 }
  else if names field.1 "method" then
    match field.2 with
    | .string method => some { peek with method := method }
    | .null => some peek
    | _ => none
  else some peek

def peekLine (line : Line) : Option Peek :=
  match line with
  | .malformed => none
  | .object fields => fields.foldlM peekField ⟨none, ""⟩

def lineID (line : Line) : Option Int :=
  (peekLine line).bind (fun peek => peek.id.bind toInt64)

def hasMethod (line : Line) : Bool :=
  match line with
  | .malformed => false
  | .object fields => fields.any (fun field => names field.1 "method")

structure BridgeAction where
  active : Option String
  synthError : Option String
  message : Fields

/-- The bridge's registry as a parameter: what it makes of requests and results is not looked into.
-/
structure ProtocolBridge where
  transformRequest : Option Fields → Fields → BridgeAction
  mapResult : String → Fields → Line
  injectTools : Option Fields → Fields → Fields

def ProtocolBridge.transformResponse (bridge : ProtocolBridge) (initCached : Option Fields)
    (origMethod : String) (active : Option String) (body : Fields) : Line :=
  match active with
  | some tool => bridge.mapResult tool body
  | none =>
    if origMethod = "tools/list" then .object (bridge.injectTools initCached body)
    else .object body

inductive Outcome
  | json (body : Fields)
  | error (status : Nat)
  | accepted
  deriving DecidableEq

/-- The bridge, and what decides about initialize responses. -/
structure Host where
  bridge : ProtocolBridge
  initializeStatus : Fields → Option Nat
  validInitialize : Fields → Bool

def Host.writeStdioJSONResponse (host : Host) (origMethod : String) (body : Fields) : Outcome :=
  if origMethod = "initialize" then
    match host.initializeStatus body with
    | some status => .error status
    | none => .json body
  else .json body

/-- The life of a request's handler behind the allocation of its id. -/
inductive Phase
  | allocated | registered | waiting
  | finished (outcome : Outcome)
  | closed (outcome : Outcome)
  deriving DecidableEq

/-- A request under its internal id. The buffer is its reply channel of capacity one. -/
structure Request where
  origID : RawMessage
  origMethod : String
  active : Option String
  phase : Phase
  buffer : Option (Nat × Line)

def Host.reply (host : Host) (initCached : Option Fields) (request : Request) (line : Line) :
    Outcome :=
  match line with
  | .malformed => .error 502
  | .object fields =>
    match host.bridge.transformResponse initCached request.origMethod request.active fields with
    | .malformed => .error 502
    | .object body => host.writeStdioJSONResponse request.origMethod (setMember "id" request.origID body)

/-- A `POST` as it reaches the handler, with the answers of the session checks: the status of the
one that failed. -/
structure Post where
  jsonContentType : Bool
  bodyStatus : Option Nat
  body : Line
  versionStatus : Option Nat
  sessionStatus : Option Nat
  sessionHeader : Bool

inductive Admission
  | answered (outcome : Outcome)
  | allocates (request : Request)

def rawMethod (fields : Fields) : String :=
  match member fields "method" with
  | some (.string method) => method
  | _ => ""

/-- The part of `handlePOST` behind the session checks. Only what is left gets an internal id. -/
def Host.admitMessage (host : Host) (initCached : Option Fields) (fields : Fields) : Admission :=
  let origMethod := rawMethod fields
  match member fields "id" with
  | none => .answered .accepted
  | some origID =>
    match (if origMethod = "initialize" then initCached else none) with
    | some cached => .answered (host.writeStdioJSONResponse origMethod (setMember "id" origID cached))
    | none =>
      let action := host.bridge.transformRequest initCached fields
      match action.synthError with
      | some message =>
        .answered (.json
          [("jsonrpc", .string "2.0"), ("result", .other message), ("id", origID)])
      | none => .allocates ⟨origID, origMethod, action.active, .allocated, none⟩

def Host.admit (host : Host) (initCached : Option Fields) (post : Post) : Admission :=
  if post.jsonContentType = false then .answered (.error 415)
  else
    match post.bodyStatus, post.body with
    | some status, _ => .answered (.error status)
    | none, .malformed => .answered (.error 400)
    | none, .object fields =>
      if rawMethod fields = "initialize" then
        match post.versionStatus with
        | some status => .answered (.error status)
        | none =>
          if post.sessionHeader then .answered (.error 400)
          else host.admitMessage initCached fields
      else
        match post.sessionStatus with
        | some status => .answered (.error status)
        | none => host.admitMessage initCached fields

/-- The stdout reader: between two lines, with a line it has not looked up, or about to send one. -/
inductive Reader
  | scanning
  | peeked (line : Line)
  | sending (id : Nat) (line : Line)
  deriving DecidableEq

structure Handed where
  request : Nat
  lineNo : Nat
  line : Line

structure Answer where
  request : Nat
  lineNo : Nat
  line : Line
  outcome : Outcome

structure State where
  nextInternalID : Nat
  requests : Nat → Option Request
  pending : List Nat
  initCached : Option Fields
  printed : Nat
  reader : Reader
  handed : List Handed
  answered : List Answer

def State.initial : State := ⟨0, fun _ => none, [], none, 0, .scanning, [], []⟩

inductive GivesUp
  | shutdown | childExited | canceled | timeout

def GivesUp.status : GivesUp → Nat
  | .shutdown => 503
  | .childExited => 502
  | .canceled => 408
  | .timeout => 504

def GivesUp.rechecks : GivesUp → Bool
  | .shutdown | .childExited => true
  | _ => false

inductive Action
  | post (post : Post)
  | register (id : Nat)
  | writeStdin (id : Nat) (ok : Bool)
  | receive (id : Nat)
  | giveUp (id : Nat) (cause : GivesUp)
  | deregister (id : Nat)
  | scan (line : Line)
  | lookup
  | send

def maxPendingRequests : Nat := 128

def State.setRequest (s : State) (id : Nat) (request : Request) : State :=
  { s with requests := Function.update s.requests id (some request) }

def Host.cacheInitialize (host : Host) (request : Request) (line : Line)
    (initCached : Option Fields) : Option Fields :=
  match line, initCached with
  | .object fields, none =>
    if request.origMethod = "initialize" ∧ host.validInitialize fields = true then some fields
    else none
  | _, cached => cached

def Host.take (host : Host) (s : State) (id : Nat) (request : Request) (lineNo : Nat) (line : Line)
    (caches : Bool) : State :=
  let cached := if caches then host.cacheInitialize request line s.initCached else s.initCached
  let outcome := host.reply cached request line
  { s.setRequest id { request with phase := .finished outcome, buffer := none } with
    initCached := cached
    answered := s.answered ++ [⟨id, lineNo, line, outcome⟩] }

def State.addressee (s : State) (line : Line) : Option Nat :=
  (lineID line).bind (fun id => if 0 ≤ id ∧ id.toNat ∈ s.pending then some id.toNat else none)

def Host.step (host : Host) (s : State) (action : Action) : Option State :=
  match action with
  | .post post =>
    match host.admit s.initCached post with
    | .answered _ => some s
    | .allocates request =>
      let id := s.nextInternalID + 1
      some { s.setRequest id request with nextInternalID := id }
  | .register id =>
    match s.requests id with
    | some request =>
      if request.phase ≠ .allocated then none
      else if maxPendingRequests ≤ s.pending.length then
        some (s.setRequest id { request with phase := .closed (.error 429) })
      else
        some { s.setRequest id { request with phase := .registered } with
          pending := id :: s.pending }
    | none => none
  | .writeStdin id ok =>
    match s.requests id with
    | some request =>
      if request.phase ≠ .registered then none
      else if ok then some (s.setRequest id { request with phase := .waiting })
      else some (s.setRequest id { request with phase := .finished (.error 500) })
    | none => none
  | .receive id =>
    match s.requests id with
    | some request =>
      match request.phase, request.buffer with
      | .waiting, some (lineNo, line) => some (host.take s id request lineNo line true)
      | _, _ => none
    | none => none
  | .giveUp id cause =>
    match s.requests id with
    | some request =>
      if request.phase ≠ .waiting then none
      else
        match (if cause.rechecks then request.buffer else none) with
        | some (lineNo, line) => some (host.take s id request lineNo line false)
        | none => some (s.setRequest id { request with phase := .finished (.error cause.status) })
    | none => none
  | .deregister id =>
    match s.requests id with
    | some request =>
      match request.phase with
      | .finished outcome =>
        some { s.setRequest id { request with phase := .closed outcome } with
          pending := s.pending.filter (· ≠ id) }
      | _ => none
    | none => none
  | .scan line =>
    if s.reader = .scanning then
      some { s with reader := .peeked line, printed := s.printed + 1 }
    else none
  | .lookup =>
    match s.reader with
    | .peeked line =>
      match s.addressee line with
      | some id => some { s with reader := .sending id line }
      | none => some { s with reader := .scanning }
    | _ => none
  | .send =>
    match s.reader with
    | .sending id line =>
      match s.requests id with
      | some request =>
        match request.buffer with
        | some _ => some { s with reader := .scanning }
        | none =>
          some { s.setRequest id { request with buffer := some (s.printed, line) } with
            reader := .scanning
            handed := s.handed ++ [⟨id, s.printed, line⟩] }
      | none => none
    | _ => none

end McpLocalHub.Daemon.StdioHost
