/- Module: Daemon/DocLifecycle
   source: internal/daemon/lazy_proxy.go
   digest: The open counts of documents in front of one shared language server, and what runs
   past them. -/

import McpLocalHub.Foundation.Maps
import McpLocalHub.Foundation.Runs

set_option autoImplicit false

namespace McpLocalHub.Daemon.DocLifecycle

open Foundation.Maps

def maxTrackedDocRefs : ℕ := 4096
def maxDocURIBytes : ℕ := 4096

structure DocRefs where
  counts : Map String ℕ := ∅
  epoch : ℕ := 0

def DocRefs.count (refs : DocRefs) (uri : String) : ℕ := (refs.counts.lookup uri).getD 0

inductive DocRefError
  | uriTooLong
  | tooManyDocuments

/-- `applyDocRef`: whether the notification is forwarded, and the epoch that its change landed in. -/
def applyDocRef (refs : DocRefs) (uri : String) (isOpen : Bool) :
    Except DocRefError (Bool × ℕ) × DocRefs :=
  let prev := refs.count uri
  if maxDocURIBytes < uri.utf8ByteSize then (.error .uriTooLong, refs)
  else if isOpen then
    if prev = 0 ∧ maxTrackedDocRefs ≤ size refs.counts then (.error .tooManyDocuments, refs)
    else (.ok (decide (prev = 0), refs.epoch),
      { refs with counts := refs.counts.insert uri (prev + 1) })
  else if prev = 0 then (.ok (false, refs.epoch), refs)
  else if prev = 1 then (.ok (true, refs.epoch), { refs with counts := refs.counts.erase uri })
  else (.ok (false, refs.epoch), { refs with counts := refs.counts.insert uri (prev - 1) })

def rollbackDocRef (refs : DocRefs) (uri : String) (isOpen : Bool) (epoch : ℕ) : DocRefs :=
  let cur := refs.count uri
  if refs.epoch ≠ epoch then refs
  else if isOpen then
    if cur ≤ 1 then { refs with counts := refs.counts.erase uri }
    else { refs with counts := refs.counts.insert uri (cur - 1) }
  else { refs with counts := refs.counts.insert uri (cur + 1) }

def resetDocRefs (refs : DocRefs) : DocRefs where
  counts := ∅
  epoch := refs.epoch + 1

@[simp] theorem DocRefs.count_insert (refs : DocRefs) (uri : String) (n : ℕ) :
    ({ refs with counts := refs.counts.insert uri n } : DocRefs).count uri = n := by
  simp [DocRefs.count]

@[simp] theorem DocRefs.count_erase (refs : DocRefs) (uri : String) :
    ({ refs with counts := refs.counts.erase uri } : DocRefs).count uri = 0 := by
  simp [DocRefs.count]

variable {uri other : String}

theorem DocRefs.count_insert_ne (refs : DocRefs) (n : ℕ) (differs : other ≠ uri) :
    ({ refs with counts := refs.counts.insert uri n } : DocRefs).count other = refs.count other := by
  simp [DocRefs.count, AList.lookup_insert_ne differs]

theorem DocRefs.count_erase_ne (refs : DocRefs) (differs : other ≠ uri) :
    ({ refs with counts := refs.counts.erase uri } : DocRefs).count other = refs.count other := by
  simp [DocRefs.count, AList.lookup_erase_ne differs]

/-- Everything that `applyDocRef` can do. A forwarded notification moves the count between 0 and 1. -/
inductive Applied (refs : DocRefs) (uri : String) (isOpen : Bool) :
    Except DocRefError (Bool × ℕ) → DocRefs → Prop
  | refused (error : DocRefError) : Applied refs uri isOpen (.error error) refs
  | absorbed {after : DocRefs} (sameEpoch : after.epoch = refs.epoch)
      (others : ∀ other, other ≠ uri → after.count other = refs.count other)
      (positive : 0 < after.count uri ↔ 0 < refs.count uri) :
      Applied refs uri isOpen (.ok (false, refs.epoch)) after
  | forwarded {after : DocRefs} (sameEpoch : after.epoch = refs.epoch)
      (others : ∀ other, other ≠ uri → after.count other = refs.count other)
      (before : refs.count uri = if isOpen then 0 else 1)
      (now : after.count uri = if isOpen then 1 else 0) :
      Applied refs uri isOpen (.ok (true, refs.epoch)) after

theorem applyDocRef_applied (refs : DocRefs) (uri : String) (isOpen : Bool) :
    Applied refs uri isOpen (applyDocRef refs uri isOpen).1 (applyDocRef refs uri isOpen).2 := by
  unfold applyDocRef
  dsimp only
  split
  · exact .refused _
  · split
    · rename_i opens
      subst opens
      split
      · exact .refused _
      · by_cases first : refs.count uri = 0
        · simp only [first, decide_true]
          exact .forwarded rfl (fun other differs => refs.count_insert_ne _ differs) first (by simp)
        · simp only [first, decide_false]
          refine .absorbed rfl (fun other differs => refs.count_insert_ne _ differs) ?_
          rw [DocRefs.count_insert]
          omega
    · rename_i closes
      obtain rfl : isOpen = false := by simpa using closes
      split
      · exact .absorbed rfl (fun _ _ => rfl) Iff.rfl
      · split
        · rename_i last
          exact .forwarded rfl (fun other differs => refs.count_erase_ne differs) last (by simp)
        · refine .absorbed rfl (fun other differs => refs.count_insert_ne _ differs) ?_
          rw [DocRefs.count_insert]
          omega

theorem rollbackDocRef_stale {refs : DocRefs} {epoch : ℕ} (uri : String) (isOpen : Bool)
    (stale : refs.epoch ≠ epoch) : rollbackDocRef refs uri isOpen epoch = refs :=
  if_pos stale

theorem rollbackDocRef_epoch (refs : DocRefs) (uri : String) (isOpen : Bool) (epoch : ℕ) :
    (rollbackDocRef refs uri isOpen epoch).epoch = refs.epoch := by
  unfold rollbackDocRef
  dsimp only
  split_ifs <;> rfl

theorem rollbackDocRef_others (refs : DocRefs) (isOpen : Bool) (epoch : ℕ) (differs : other ≠ uri) :
    (rollbackDocRef refs uri isOpen epoch).count other = refs.count other := by
  unfold rollbackDocRef
  dsimp only
  split_ifs
  · rfl
  · exact refs.count_erase_ne differs
  · exact refs.count_insert_ne _ differs
  · exact refs.count_insert_ne _ differs

theorem rollbackDocRef_undoes {refs : DocRefs} {isOpen : Bool}
    (counted : refs.count uri = if isOpen then 1 else 0) :
    (rollbackDocRef refs uri isOpen refs.epoch).count uri = if isOpen then 0 else 1 := by
  unfold rollbackDocRef
  cases isOpen with
  | false => simp_all
  | true => simp_all

/-- A running language server, with a record of the opens (`true`) and closes that it accepted. -/
structure Backend where
  id : ℕ
  accepted : List (String × Bool) := []

def Backend.history (b : Backend) (uri : String) : List Bool :=
  (b.accepted.filter (fun event => decide (event.1 = uri))).map Prod.snd

def Backend.holds (b : Backend) (uri : String) : Bool :=
  decide ((b.history uri).getLast? = some true)

def Backend.accept (b : Backend) (uri : String) (isOpen : Bool) : Backend :=
  { b with accepted := b.accepted ++ [(uri, isOpen)] }

inductive Alternating : List Bool → Bool → Prop
  | nil : Alternating [] true
  | snoc {events : List Bool} {event : Bool} (before : Alternating events event) :
      Alternating (events ++ [event]) (!event)

theorem Alternating.last {events : List Bool} {next : Bool} (turns : Alternating events next) :
    decide (events.getLast? = some true) = !next := by
  cases turns with
  | nil => rfl
  | @snoc events event before => cases event <;> simp

theorem Backend.history_accept (b : Backend) (uri : String) (isOpen : Bool) :
    (b.accept uri isOpen).history uri = b.history uri ++ [isOpen] := by
  simp [Backend.history, Backend.accept, List.filter_append]

theorem Backend.history_accept_ne (b : Backend) (isOpen : Bool)
    (differs : other ≠ uri) : (b.accept uri isOpen).history other = b.history other := by
  simp [Backend.history, Backend.accept, List.filter_append, Ne.symm differs]

theorem Backend.holds_accept (b : Backend) (uri : String) (isOpen : Bool) :
    (b.accept uri isOpen).holds uri = isOpen := by
  unfold Backend.holds
  rw [b.history_accept]
  cases isOpen <;> simp

theorem Backend.holds_accept_ne (b : Backend) (isOpen : Bool)
    (differs : other ≠ uri) : (b.accept uri isOpen).holds other = b.holds other := by
  unfold Backend.holds
  rw [b.history_accept_ne isOpen differs]

inductive Stage
  /-- The count is changed; `ensureMaterialized` has not returned. -/
  | counted
  /-- An endpoint of this backend is at hand, under this generation. -/
  | materialized (backend generation : ℕ)
  | rollingBack (failed : Option ℕ)
  | severing (generation : ℕ)
  deriving DecidableEq

structure Notification where
  uri : String
  isOpen : Bool
  docEpoch : ℕ
  stage : Stage

/-- How `SendRequest` ends: the notification is taken, refused unread, answered with an error, or
the backend is found dead. -/
inductive SendOutcome
  | delivered | tooManyPending | rejected | failed

inductive Teardown
  /-- The endpoint is taken away and closed. -/
  | closing
  /-- The counts are reset; `Lifecycle.Stop` has not returned. -/
  | stopping
  /-- The lifecycle is stopped; `reaping` is still set. -/
  | stopped
  deriving DecidableEq

structure System where
  docRefs : DocRefs := {}
  endpoint : Option ℕ := none
  endpointGeneration : ℕ := 0
  teardown : Option Teardown := none
  backend : Option Backend := none
  nextBackend : ℕ := 0
  notifications : Map ℕ Notification := ∅

def System.reaping (s : System) : Bool := s.teardown.isSome

def System.holds (s : System) (uri : String) : Bool := s.backend.any (fun b => b.holds uri)

inductive Action
  | notify (n : ℕ) (uri : String) (isOpen : Bool)
  | materialize (n : ℕ) (ok : Bool)
  | send (n : ℕ) (outcome : SendOutcome)
  | rollback (n : ℕ)
  | sever (n : ℕ)
  /-- The idle reaper, the probation watchdog (its second branch finds no endpoint) or the exit
  watch begins a teardown. -/
  | reap
  | resetDocRefs
  | stopLifecycle
  | endTeardown

def System.put (s : System) (n : ℕ) (a : Notification) : System :=
  { s with notifications := s.notifications.insert n a }

def System.done (s : System) (n : ℕ) : System :=
  { s with notifications := s.notifications.erase n }

/-- A notification without a uri, one over a limit and one that the counts absorb are answered at
once. -/
def notify (s : System) (n : ℕ) (uri : String) (isOpen : Bool) : System :=
  if uri = "" then s
  else
    match applyDocRef s.docRefs uri isOpen with
    | (.error _, _) => s
    | (.ok (false, _), refs) => { s with docRefs := refs }
    | (.ok (true, docEpoch), refs) =>
      { s with docRefs := refs }.put n ⟨uri, isOpen, docEpoch, .counted⟩

def materializeBackend (s : System) : Backend × System :=
  match s.backend with
  | some b => (b, s)
  | none =>
    let b : Backend := { id := s.nextBackend }
    (b, { s with backend := some b, nextBackend := s.nextBackend + 1 })

def ensureMaterialized (s : System) : Option (ℕ × ℕ × System) :=
  match s.endpoint with
  | some id => some (id, s.endpointGeneration, s)
  | none =>
    if s.reaping then none
    else
      let (b, started) := materializeBackend s
      let generation := s.endpointGeneration + 1
      some (b.id, generation,
        { started with endpoint := some b.id, endpointGeneration := generation })

def takeEndpoint (s : System) : System :=
  { s with
    endpoint := none, teardown := some .closing, endpointGeneration := s.endpointGeneration + 1 }

/-- `onSendFailure`: a teardown, unless one is under way or the failure is of an older endpoint. -/
def onSendFailure (s : System) (generation : ℕ) : System :=
  if s.reaping = true ∨ s.endpointGeneration ≠ generation then s else takeEndpoint s

def send (s : System) (n : ℕ) (a : Notification) (id generation : ℕ) (outcome : SendOutcome) :
    Option System :=
  match outcome with
  | .delivered =>
    match s.backend with
    | some b =>
      if b.id = id then some ({ s with backend := some (b.accept a.uri a.isOpen) }.done n)
      else none
    | none => none
  | .tooManyPending | .rejected => some (s.put n { a with stage := .rollingBack none })
  | .failed => some (s.put n { a with stage := .rollingBack (some generation) })

def rollback (s : System) (n : ℕ) (a : Notification) (failed : Option ℕ) : System :=
  let undone := { s with docRefs := rollbackDocRef s.docRefs a.uri a.isOpen a.docEpoch }
  match failed with
  | none => undone.done n
  | some generation => undone.put n { a with stage := .severing generation }

def stepNotification (s : System) (n : ℕ) (a : Notification) : Action → Option System
  | .materialize _ ok =>
    match a.stage with
    | .counted =>
      if ok then
        (ensureMaterialized s).map (fun (id, generation, t) =>
          t.put n { a with stage := .materialized id generation })
      else some (s.put n { a with stage := .rollingBack none })
    | _ => none
  | .send _ outcome =>
    match a.stage with
    | .materialized id generation => send s n a id generation outcome
    | _ => none
  | .rollback _ =>
    match a.stage with
    | .rollingBack failed => some (rollback s n a failed)
    | _ => none
  | .sever _ =>
    match a.stage with
    | .severing generation => some ((onSendFailure s generation).done n)
    | _ => none
  | _ => none

def step (s : System) (action : Action) : Option System :=
  match action with
  | .notify n uri isOpen =>
    if (s.notifications.lookup n).isSome then none else some (notify s n uri isOpen)
  | .materialize n _ | .send n _ | .rollback n | .sever n =>
    (s.notifications.lookup n).bind (fun a => stepNotification s n a action)
  | .reap => if s.reaping then none else some (takeEndpoint s)
  | .resetDocRefs =>
    if s.teardown = some .closing then
      some { s with docRefs := resetDocRefs s.docRefs, teardown := some .stopping }
    else none
  | .stopLifecycle =>
    if s.teardown = some .stopping then some { s with backend := none, teardown := some .stopped }
    else none
  | .endTeardown => if s.teardown = some .stopped then some { s with teardown := none } else none

def Started (s : System) : Prop := s = {}

end McpLocalHub.Daemon.DocLifecycle
