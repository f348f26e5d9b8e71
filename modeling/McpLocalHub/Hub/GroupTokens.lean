/- Module: Hub/GroupTokens
   source: internal/api/hub_mcp_tokens.go, internal/api/hub_mcp_groups.go,
   internal/api/hub_mcp_resolver.go
   digest: The groups file, the token file, the live table and the snapshot, and what changes
   them. -/

import McpLocalHub.Foundation.Maps
import McpLocalHub.Foundation.Runs
import Mathlib.Data.List.Sort

set_option autoImplicit false

namespace McpLocalHub.Hub.GroupTokens

open Foundation.Maps

def maxGroupNameLen : ℕ := 64

def groupNameChar (c : Char) : Bool :=
  c.isAlphanum || c = '.' || c = '_' || c = '-'

def validGroupName (name : String) : Bool :=
  decide (name ≠ "") && name.toList.all groupNameChar && decide (name ≠ ".") &&
    decide (name ≠ "..") && decide (name.utf8ByteSize ≤ maxGroupNameLen)

def groupNamesUnique (names : List String) : Bool := decide (names.map String.toLower).Nodup

def groupScopeKey (name : String) : String := "g:" ++ name

def groupScopeKeys (names : List String) : List String :=
  ((names.filter validGroupName).map groupScopeKey).insertionSort (· ≤ ·)

def hexDigit (c : Char) : Bool :=
  c.isDigit || (decide ('a' ≤ c) && decide (c ≤ 'f')) || (decide ('A' ≤ c) && decide (c ≤ 'F'))

def isValidHexToken (token : String) : Bool :=
  decide (token.toList.length = 64) && token.toList.all hexDigit

abbrev TokenTable := Map String String

inductive ActiveSetStatus
  | cold | knownGood | indeterminate
  deriving DecidableEq

structure State where
  groups : List String := []
  tokenFile : Option TokenTable := none
  liveTokens : Option TokenTable := none
  snapshot : Option (List String) := none
  status : ActiveSetStatus := .cold
  /-- Every token that was on disk when the process started or was generated since. -/
  seen : List String := []

def State.routable (s : State) (name : String) : Bool :=
  validGroupName name && decide (groupScopeKey name ∈ s.snapshot.getD [])

def State.fileRow (s : State) (key : String) : Option String := s.tokenFile.bind (·.lookup key)

def State.liveRow (s : State) (key : String) : Option String := s.liveTokens.bind (·.lookup key)

def constantTimeCompareToken (s : State) (key header : String) : Bool :=
  decide (header.utf8ByteSize = 64) &&
    match s.liveRow key with
    | none => false
    | some stored => decide (stored.utf8ByteSize = 64) && decide (stored = header)

inductive LoadError
  | missing | failed

def loadHubTokensLocked (s : State) (readable : Bool) : Except LoadError TokenTable :=
  if !readable then .error .failed
  else
    match s.tokenFile with
    | none => .error .missing
    | some table =>
      if table.entries.all (fun row => isValidHexToken row.2) then .ok table else .error .failed

def loadGroupsLocked (s : State) (readable : Bool) : Option (List String) :=
  if readable && s.groups.all validGroupName && groupNamesUnique s.groups then some s.groups
  else none

def storeTokens (s : State) (table : TokenTable) : State :=
  { s with tokenFile := some table, liveTokens := some table }

/-- A new token for every key that needs one, `none` when the generation fails, and whether anything
changed. -/
def mintRows (needs : TokenTable → String → Bool) :
    List String → TokenTable → Bool → List String → Option (TokenTable × Bool × List String)
  | [], table, changed, supply => some (table, changed, supply)
  | key :: keys, table, changed, supply =>
    if needs table key then
      match supply with
      | [] => none
      | token :: rest => mintRows needs keys (table.insert key token) true rest
    else mintRows needs keys table changed supply

/-- What a publish meets: which reads and writes succeed, and the tokens that are generated. -/
structure PublishInput where
  scan : Bool := true
  groupsLoad : Bool := true
  rotateLoad : Bool := true
  rotateWrite : Bool := true
  ensureLoad : Bool := true
  ensureWrite : Bool := true
  supply : List String := []

inductive TokenError
  | indeterminate | load | generate | write

inductive PublishError
  | scan | groups | rotate (cause : TokenError) | ensure (cause : TokenError)

def reintroduced (active : List String) (table : TokenTable) (key : String) : Bool :=
  (table.lookup key).isSome && decide (key ∉ active)

def rotateReusedGroupTokensLocked (s : State) (declared active : List String)
    (priorActiveSetKnownGood genuineColdStart : Bool) (input : PublishInput) :
    Except TokenError (State × List String) :=
  if declared = [] ∨ genuineColdStart = true then .ok (s, input.supply)
  else
    match loadHubTokensLocked s input.rotateLoad with
    | .error .missing => .ok (s, input.supply)
    | .error .failed => .error .load
    | .ok table =>
      if !priorActiveSetKnownGood then
        if declared.any (fun key => (table.lookup key).isSome) then .error .indeterminate
        else .ok (s, input.supply)
      else
        match mintRows (reintroduced active) declared table false input.supply with
        | none => .error .generate
        | some (_, false, rest) => .ok (s, rest)
        | some (rotated, true, rest) =>
          if input.rotateWrite then .ok (storeTokens s rotated, rest) else .error .write

def unminted (table : TokenTable) (key : String) : Bool :=
  decide (key ≠ "") && (table.lookup key).isNone

def ensureTable (s : State) (keys supply : List String) (input : PublishInput)
    (table : TokenTable) : Except TokenError State :=
  match mintRows unminted keys table false supply with
  | none => .error .generate
  | some (ensured, false, _) => .ok { s with liveTokens := some ensured }
  | some (ensured, true, _) =>
    if input.ensureWrite then .ok (storeTokens s ensured) else .error .write

def ensureHubTokensLocked (s : State) (keys : List String) (supply : List String)
    (input : PublishInput) : Except TokenError State :=
  match loadHubTokensLocked s input.ensureLoad with
  | .error .failed => .error .load
  | .error .missing => ensureTable s keys supply input ∅
  | .ok table => ensureTable s keys supply input table

def groupTokensAlreadyPublished (s : State) (declared active : List String) (knownGood : Bool) :
    Bool :=
  decide (declared ≠ []) && decide (active ≠ []) && knownGood &&
    declared.all (fun key => decide (key ∈ active) && (s.liveRow key).any isValidHexToken)

def publishSnapshot (s : State) (names : List String) : State :=
  { s with
    snapshot := some ((names.filter validGroupName).map groupScopeKey)
    status := .knownGood }

/-- A rotation that fails keeps the old snapshot; missing rows are reported after the new one is
out. -/
def publishGroupsSnapshotLocked (s : State) (input : PublishInput) : State × Option PublishError :=
  if !input.scan then (s, some .scan)
  else
    match loadGroupsLocked s input.groupsLoad with
    | none => (s, some .groups)
    | some names =>
      let genuineColdStart := s.snapshot.isNone && decide (s.status = .cold)
      let knownGood := s.snapshot.isSome && decide (s.status = .knownGood)
      let active := if knownGood then s.snapshot.getD [] else []
      let keys := groupScopeKeys names
      if keys = [] ∨ groupTokensAlreadyPublished s keys active knownGood = true then
        (publishSnapshot s names, none)
      else
        match rotateReusedGroupTokensLocked s keys active knownGood genuineColdStart input with
        | .error cause => ({ s with status := .indeterminate }, some (.rotate cause))
        | .ok (rotated, rest) =>
          match ensureHubTokensLocked rotated keys rest input with
          | .error cause => (publishSnapshot rotated names, some (.ensure cause))
          | .ok ensured => (publishSnapshot ensured names, none)

structure ModifyInput where
  load : Bool := true
  deleted : List String := []
  added : List String := []
  write : Bool := true
  pruneLoad : Bool := true
  pruneWrite : Bool := true

inductive ModifyError
  | load | write | tokenPrune

def pruneHubTokensLocked (s : State) (keys : List String) (input : ModifyInput) : Option State :=
  match loadHubTokensLocked s input.pruneLoad with
  | .error .missing => some s
  | .error .failed => none
  | .ok table =>
    if keys.any (fun key => (table.lookup key).isSome) then
      if input.pruneWrite then
        some (storeTokens s (keys.foldl (fun rows key => rows.erase key) table))
      else none
    else some s

def readModifyWriteGroups (s : State) (input : ModifyInput) : State × Option ModifyError :=
  match loadGroupsLocked s input.load with
  | none => (s, some .load)
  | some names =>
    let changed := names.filter (fun name => decide (name ∉ input.deleted)) ++ input.added
    if input.write && changed.all validGroupName && groupNamesUnique changed then
      let committed := { s with groups := changed }
      let keys := (input.deleted.filter validGroupName).map groupScopeKey
      if keys = [] then (committed, none)
      else
        match pruneHubTokensLocked committed keys input with
        | some pruned => (pruned, none)
        | none => (committed, some .tokenPrune)
    else (s, some .write)

inductive Action
  | publish (input : PublishInput)
  | modify (input : ModifyInput)

/-- What `generateHexToken` returns is well formed and was never used before. -/
def freshSupply (s : State) (supply : List String) : Bool :=
  supply.all (fun token => isValidHexToken token && decide (token ∉ s.seen)) &&
    decide supply.Nodup

def publish (s : State) (input : PublishInput) : Option (State × Option PublishError) :=
  if freshSupply s input.supply then
    let published := publishGroupsSnapshotLocked s input
    some ({ published.1 with seen := input.supply ++ s.seen }, published.2)
  else none

def step (s : State) : Action → Option State
  | .publish input => (publish s input).map Prod.fst
  | .modify input => some (readModifyWriteGroups s input).1

/-- A process that has published nothing: its token table is that of the file, or not yet loaded. -/
structure Booted (s : State) : Prop where
  unpublished : s.snapshot = none ∧ s.status = .cold
  live : ∀ key token, s.liveRow key = some token → s.fileRow key = some token
  seen : ∀ key token, s.fileRow key = some token → token ∈ s.seen

def Started (s : State) : Prop :=
  ∃ boot input, Booted boot ∧ publish boot input = some (s, none)

end McpLocalHub.Hub.GroupTokens
