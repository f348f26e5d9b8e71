/- Module: Daemon/ResponseAttribution
   digest: A request is answered by at most one line, under its internal id, and no line answers
   two. -/

import McpLocalHub.Daemon.StdioHost
import Mathlib.Data.List.Nodup

set_option autoImplicit false

namespace McpLocalHub.Daemon.ResponseAttribution

open Foundation.Runs Foundation.RawJSON StdioHost List

/-- The outcome is the line's payload, as the bridge passes it on, under the caller's own id. -/
def Carries (host : Host) (cached : Option Fields) (request : Request) (line : Line)
    (outcome : Outcome) : Prop :=
  ∀ body, outcome = .json body →
    member body "id" = some request.origID ∧
      ∃ fields payload, line = .object fields ∧
        host.bridge.transformResponse cached request.origMethod request.active fields =
          .object payload ∧
        ∀ key, key ≠ "id" → member body key = member payload key

theorem reply_carries (host : Host) (cached : Option Fields) (request : Request) (line : Line) :
    Carries host cached request line (host.reply cached request line) := by
  intro body replied
  unfold Host.reply at replied
  split at replied
  · cases replied
  next fields =>
    split at replied
    · cases replied
    next payload transformed =>
      have same : body = setMember "id" request.origID payload := by
        unfold Host.writeStdioJSONResponse at replied
        split_ifs at replied
        · split at replied
          · cases replied
          · exact (Outcome.json.inj replied).symm
        · exact (Outcome.json.inj replied).symm
      subst same
      exact ⟨member_setMember_self _ _ _, fields, payload, rfl, transformed,
        fun key other => member_setMember_other _ _ other⟩

def Phase.ended : Phase → Bool
  | .finished _ | .closed _ => true
  | _ => false

/-- The request that a record is about exists, has its outcome, and the outcome was made from the
recorded line. -/
def Settled (host : Host) (s : State) (a : Answer) : Prop :=
  ∃ request cached, s.requests a.request = some request ∧ Phase.ended request.phase = true ∧
    a.outcome = host.reply cached request a.line

structure Attributed (host : Host) (s : State) : Prop where
  fresh : ∀ id request, s.requests id = some request → id ≤ s.nextInternalID
  pending : ∀ id ∈ s.pending, (s.requests id).isSome = true
  sending : ∀ id line, s.reader = .sending id line →
    lineID line = some (id : Int) ∧ hasMethod line = false ∧ (s.requests id).isSome = true
  handed : ∀ h ∈ s.handed, lineID h.line = some (h.request : Int) ∧ hasMethod h.line = false
  addressed : ∀ h ∈ s.handed, (s.requests h.request).isSome = true
  ordered : s.handed.Pairwise (fun first second => first.lineNo < second.lineNo)
  seen : ∀ h ∈ s.handed, h.lineNo ≤ s.printed ∧ (s.reader ≠ .scanning → h.lineNo < s.printed)
  buffered : ∀ id request lineNo line, s.requests id = some request →
    request.buffer = some (lineNo, line) → ⟨id, lineNo, line⟩ ∈ s.handed
  recorded : ∀ a ∈ s.answered, ⟨a.request, a.lineNo, a.line⟩ ∈ s.handed
  settled : ∀ a ∈ s.answered, Settled host s a
  once : (s.answered.map Answer.request).Nodup

theorem initial_attributed (host : Host) : Attributed host State.initial := by
  constructor
  case ordered => exact List.Pairwise.nil
  case once => exact nodup_nil
  all_goals exact nofun

/-- What a step may change about a request: its phase, forwards, and its buffer, to nothing. -/
structure Advances (old new : Request) : Prop where
  origID : new.origID = old.origID
  origMethod : new.origMethod = old.origMethod
  active : new.active = old.active
  buffer : new.buffer = none ∨ new.buffer = old.buffer
  phase : Phase.ended old.phase = true → Phase.ended new.phase = true

variable {old new request : Request} {id : Nat} {s : State} {host : Host}

theorem Advances.reply (advances : Advances old new) (host : Host)
    (cached : Option Fields) (line : Line) :
    host.reply cached new line = host.reply cached old line := by
  unfold Host.reply
  rw [advances.origID, advances.origMethod, advances.active]

private theorem setRequest_own (s : State) (id : Nat) (request : Request) :
    (s.setRequest id request).requests id = some request := Function.update_self ..

private theorem setRequest_other (s : State) {other : Nat} (request : Request)
    (different : other ≠ id) : (s.setRequest id request).requests other = s.requests other :=
  Function.update_of_ne different ..

private theorem setRequest_isSome {other : Nat} (request : Request)
    (known : (s.requests other).isSome = true) :
    ((s.setRequest id request).requests other).isSome = true := by
  by_cases same : other = id
  · subst same
    rw [setRequest_own]
    rfl
  · rw [setRequest_other s request same]
    exact known

theorem Settled.update {a : Answer}
    (settled : Settled host s a) (known : s.requests id = some old) (advances : Advances old new) :
    Settled host (s.setRequest id new) a := by
  obtain ⟨request, cached, found, ended, outcome⟩ := settled
  by_cases same : a.request = id
  · rw [same] at found
    obtain rfl : old = request := Option.some.inj (known.symm.trans found)
    refine ⟨new, cached, ?_, advances.phase ended, ?_⟩
    · rw [same]
      exact setRequest_own s id new
    · rw [advances.reply host cached a.line]
      exact outcome
  · exact ⟨request, cached, (setRequest_other s new same).trans found, ended, outcome⟩

theorem Attributed.replace (inv : Attributed host s) (bound : id ≤ s.nextInternalID)
    (settles : ∀ a, Settled host s a → Settled host (s.setRequest id new) a)
    (holds : ∀ lineNo line, new.buffer = some (lineNo, line) → ⟨id, lineNo, line⟩ ∈ s.handed) :
    Attributed host (s.setRequest id new) := by
  refine { inv with
    fresh := ?_
    pending := ?_
    sending := ?_
    addressed := ?_
    buffered := ?_
    settled := fun a listed => settles a (inv.settled a listed) }
  · intro other request found
    by_cases same : other = id
    · rw [same]
      exact bound
    · rw [setRequest_other s new same] at found
      exact inv.fresh other request found
  · intro other listed
    exact setRequest_isSome new (inv.pending other listed)
  · intro other line busy
    obtain ⟨addressed, response, present⟩ := inv.sending other line busy
    exact ⟨addressed, response, setRequest_isSome new present⟩
  · intro h listed
    exact setRequest_isSome new (inv.addressed h listed)
  · intro other request lineNo line found buffered
    by_cases same : other = id
    · subst same
      obtain rfl : new = request := Option.some.inj ((setRequest_own s other new).symm.trans found)
      exact holds lineNo line buffered
    · rw [setRequest_other s new same] at found
      exact inv.buffered other request lineNo line found buffered

theorem Attributed.update
    (inv : Attributed host s) (known : s.requests id = some old) (advances : Advances old new) :
    Attributed host (s.setRequest id new) := by
  refine inv.replace (inv.fresh id old known) (fun a settled => settled.update known advances) ?_
  intro lineNo line holds
  rcases advances.buffer with empty | kept
  · rw [empty] at holds
    cases holds
  · exact inv.buffered id old lineNo line known (kept ▸ holds)

theorem Attributed.allocate (inv : Attributed host s) (empty : request.buffer = none) :
    Attributed host { s.setRequest (s.nextInternalID + 1) request with
      nextInternalID := s.nextInternalID + 1 } := by
  have counted : Attributed host { s with nextInternalID := s.nextInternalID + 1 } :=
    { inv with
      fresh := fun other old found => Nat.le_succ_of_le (inv.fresh other old found)
      settled := inv.settled }
  refine counted.replace (Nat.le_refl _) ?_ ?_
  · rintro a ⟨old, cached, found, ended, outcome⟩
    have different : a.request ≠ s.nextInternalID + 1 :=
      Nat.ne_of_lt (Nat.lt_succ_of_le (inv.fresh _ old found))
    exact ⟨old, cached, (setRequest_other s request different).trans found, ended, outcome⟩
  · intro lineNo line holds
    rw [empty] at holds
    cases holds

theorem Attributed.take {host : Host} {s : State} {id : Nat} {request : Request} {lineNo : Nat}
    {line : Line} (inv : Attributed host s) (known : s.requests id = some request)
    (waits : Phase.ended request.phase = false) (holds : request.buffer = some (lineNo, line))
    (caches : Bool) : Attributed host (host.take s id request lineNo line caches) := by
  unfold Host.take
  generalize (if caches then host.cacheInitialize request line s.initCached else s.initCached)
    = cached
  have advances : Advances request
      { request with phase := .finished (host.reply cached request line), buffer := none } :=
    ⟨rfl, rfl, rfl, .inl rfl, fun _ => rfl⟩
  have moved := inv.update known advances
  have unanswered : ∀ a ∈ s.answered, a.request ≠ id := by
    intro a listed same
    obtain ⟨old, _, found, ended, _⟩ := inv.settled a listed
    rw [same, known] at found
    cases found
    rw [waits] at ended
    cases ended
  refine { moved with recorded := ?_, settled := ?_, once := ?_ }
  · refine forall_mem_append.mpr ⟨inv.recorded, forall_mem_singleton.mpr ?_⟩
    exact inv.buffered id request lineNo line known holds
  · refine forall_mem_append.mpr ⟨moved.settled, forall_mem_singleton.mpr ?_⟩
    exact ⟨_, cached, setRequest_own s id _, rfl, (advances.reply host cached line).symm⟩
  · rw [map_append]
    refine nodup_append.mpr ⟨inv.once, pairwise_singleton _ _, ?_⟩
    intro answeredID listed own last same
    obtain ⟨a, member, rfl⟩ := mem_map.mp listed
    exact unanswered a member (same.trans (mem_singleton.mp last))

theorem Attributed.rest (inv : Attributed host s) :
    Attributed host { s with reader := .scanning } :=
  { inv with
    sending := nofun
    seen := fun h listed => ⟨(inv.seen h listed).1, fun busy => absurd rfl busy⟩
    settled := inv.settled }

theorem Attributed.send {line : Line} (inv : Attributed host s) (busy : s.reader = .sending id line)
    (known : s.requests id = some request) :
    Attributed host { s.setRequest id { request with buffer := some (s.printed, line) } with
      reader := .scanning
      handed := s.handed ++ [⟨id, s.printed, line⟩] } := by
  obtain ⟨addressed, response, present⟩ := inv.sending id line busy
  have reading : s.reader ≠ .scanning := by
    rw [busy]
    nofun
  have handed : Attributed host { s with
      reader := .scanning
      handed := s.handed ++ [⟨id, s.printed, line⟩] } := by
    refine { inv.rest with
      handed := forall_mem_append.mpr
        ⟨inv.handed, forall_mem_singleton.mpr ⟨addressed, response⟩⟩
      addressed := forall_mem_append.mpr
        ⟨inv.addressed, forall_mem_singleton.mpr present⟩
      ordered := ?_
      seen := ?_
      buffered := fun other old lineNo held found holds =>
        mem_append_left _ (inv.buffered other old lineNo held found holds)
      recorded := fun a listed => mem_append_left _ (inv.recorded a listed)
      settled := inv.settled }
    · refine pairwise_append.mpr ⟨inv.ordered, pairwise_singleton _ _, ?_⟩
      intro h listed last isLast
      rw [mem_singleton.mp isLast]
      exact (inv.seen h listed).2 reading
    · exact forall_mem_append.mpr ⟨inv.rest.seen,
        forall_mem_singleton.mpr ⟨Nat.le_refl _, fun idle => absurd rfl idle⟩⟩
  refine handed.replace (inv.fresh id request known) ?_ ?_
  · rintro a ⟨old, cached, found, ended, outcome⟩
    by_cases same : a.request = id
    · rw [same] at found
      obtain rfl := Option.some.inj (known.symm.trans found)
      refine ⟨{ request with buffer := some (s.printed, line) }, cached, ?_, ended, outcome⟩
      rw [same]
      exact setRequest_own _ id _
    · exact ⟨old, cached, (setRequest_other s _ same).trans found, ended, outcome⟩
  · intro lineNo held holds
    obtain ⟨rfl, rfl⟩ := Prod.mk.inj (Option.some.inj holds)
    exact mem_append_right _ (.head _)

theorem addressee_spec {line : Line} (found : s.addressee line = some id) :
    lineID line = some (id : Int) ∧ id ∈ s.pending := by
  obtain ⟨number, decoded, matched⟩ := Option.bind_eq_some_iff.mp found
  split_ifs at matched with listed
  cases matched
  rw [decoded, Int.toNat_of_nonneg listed.1]
  exact ⟨rfl, listed.2⟩

/-- A line with a method does not carry the id of a request that is pending when the reader looks it
up. -/
def MethodsUnpaired (s : State) (action : Action) : Prop :=
  match action, s.reader with
  | .lookup, .peeked line => hasMethod line = true → s.addressee line = none
  | _, _ => True

instance (s : State) (action : Action) : Decidable (MethodsUnpaired s action) := by
  unfold MethodsUnpaired
  split <;> infer_instance

private theorem admit_buffer {cached : Option Fields} {post : Post}
    (allocates : host.admit cached post = .allocates request) :
    request.buffer = none ∧ request.phase = .allocated := by
  have message : ∀ fields, host.admitMessage cached fields = .allocates request →
      request.buffer = none ∧ request.phase = .allocated := by
    intro fields admitted
    unfold Host.admitMessage at admitted
    dsimp only at admitted
    split at admitted
    · cases admitted
    · split at admitted
      · cases admitted
      · split at admitted
        · cases admitted
        · cases admitted
          exact ⟨rfl, rfl⟩
  unfold Host.admit at allocates
  split at allocates
  · cases allocates
  · split at allocates
    · cases allocates
    · cases allocates
    · split at allocates
      · split at allocates
        · cases allocates
        · split at allocates
          · cases allocates
          · exact message _ allocates
      · split at allocates
        · cases allocates
        · exact message _ allocates

theorem step_attributed (s : State) (action : Action) (next : State)
    (inv : Attributed host s) (unpaired : MethodsUnpaired s action)
    (moved : host.step s action = some next) : Attributed host next := by
  cases action with
  | post post =>
    simp only [Host.step] at moved
    split at moved
    · cases moved
      exact inv
    next request allocates =>
      cases moved
      exact inv.allocate (admit_buffer allocates).1
  | register id =>
    simp only [Host.step] at moved
    split at moved
    · next request known =>
      split_ifs at moved with allocated full
      · cases moved
        exact inv.update known ⟨rfl, rfl, rfl, .inr rfl, fun _ => rfl⟩
      · cases moved
        have phase : request.phase = .allocated := not_not.mp allocated
        have advances : Advances request { request with phase := .registered } :=
          ⟨rfl, rfl, rfl, .inr rfl, fun ended => by rw [phase] at ended; cases ended⟩
        have registered := inv.update known advances
        have present : ((s.setRequest id { request with phase := .registered }).requests
            id).isSome = true := by
          rw [setRequest_own]
          rfl
        exact { registered with
          pending := fun other listed => by
            rcases mem_cons.mp listed with rfl | earlier
            · exact present
            · exact registered.pending other earlier }
    · cases moved
  | writeStdin id ok =>
    simp only [Host.step] at moved
    split at moved
    · next request known =>
      split_ifs at moved with registered written
      all_goals
        have phase : request.phase = .registered := not_not.mp registered
        cases moved
      · exact inv.update known
          ⟨rfl, rfl, rfl, .inr rfl, fun ended => by rw [phase] at ended; cases ended⟩
      · exact inv.update known ⟨rfl, rfl, rfl, .inr rfl, fun _ => rfl⟩
    · cases moved
  | receive id =>
    simp only [Host.step] at moved
    split at moved
    · next request known =>
      split at moved
      · next lineNo line phase holds =>
        cases moved
        exact inv.take known (by rw [phase]; rfl) holds true
      · cases moved
    · cases moved
  | giveUp id cause =>
    simp only [Host.step] at moved
    split at moved
    · next request known =>
      split_ifs at moved with waiting rechecks
      · have phase : request.phase = .waiting := not_not.mp waiting
        split at moved
        · next lineNo line holds =>
          cases moved
          exact inv.take known (by rw [phase]; rfl) holds false
        · cases moved
          exact inv.update known ⟨rfl, rfl, rfl, .inr rfl, fun _ => rfl⟩
      · cases moved
        exact inv.update known ⟨rfl, rfl, rfl, .inr rfl, fun _ => rfl⟩
    · cases moved
  | deregister id =>
    simp only [Host.step] at moved
    split at moved
    · next request known =>
      split at moved
      · next outcome phase =>
        cases moved
        have advances : Advances request { request with phase := .closed outcome } :=
          ⟨rfl, rfl, rfl, .inr rfl, fun _ => rfl⟩
        have closed := inv.update known advances
        exact { closed with
          pending := fun other listed =>
            closed.pending other (mem_filter.mp listed).1 }
      · cases moved
    · cases moved
  | scan line =>
    simp only [Host.step] at moved
    split_ifs at moved with idle
    cases moved
    exact { inv with
      sending := nofun
      seen := fun h listed => by
        have before := (inv.seen h listed).1
        exact ⟨Nat.le_succ_of_le before, fun _ => Nat.lt_succ_of_le before⟩ }
  | lookup =>
    simp only [Host.step] at moved
    split at moved
    · next line peeked =>
      have reading : s.reader ≠ .scanning := by
        rw [peeked]
        nofun
      split at moved
      · next id found =>
        cases moved
        obtain ⟨addressed, listed⟩ := addressee_spec found
        have response : hasMethod line = false := by
          by_contra method
          simp only [MethodsUnpaired, peeked] at unpaired
          rw [unpaired (by simpa using method)] at found
          cases found
        exact { inv with
          sending := fun other held busy => by
            obtain ⟨rfl, rfl⟩ := Reader.sending.inj busy
            exact ⟨addressed, response, inv.pending _ listed⟩
          seen := fun h member =>
            ⟨(inv.seen h member).1, fun _ => (inv.seen h member).2 reading⟩ }
      · cases moved
        exact inv.rest
    · cases moved
  | send =>
    simp only [Host.step] at moved
    split at moved
    · next id line busy =>
      split at moved
      · next request known =>
        split at moved
        · cases moved
          exact inv.rest
        · cases moved
          exact inv.send busy known
      · cases moved
    · cases moved

theorem handed_unique (inv : Attributed host s) {first second : Handed}
    (firstListed : first ∈ s.handed) (secondListed : second ∈ s.handed)
    (same : first.lineNo = second.lineNo) : first = second := by
  have distinct : (s.handed.map Handed.lineNo).Nodup :=
    pairwise_map.mpr (inv.ordered.imp (fun less => Nat.ne_of_lt less))
  exact inj_on_of_nodup_map distinct firstListed secondListed same

theorem answered_lines_distinct (inv : Attributed host s) :
    (s.answered.map Answer.lineNo).Nodup := by
  refine List.Nodup.map_on ?_ inv.once.of_map
  intro first firstListed second secondListed sameLine
  have sameEntry := handed_unique inv (inv.recorded first firstListed)
    (inv.recorded second secondListed) sameLine
  have sameRequest : first.request = second.request := congrArg Handed.request sameEntry
  exact inj_on_of_nodup_map inv.once firstListed secondListed sameRequest

/-- In every run in which no line with a method carries a pending id: a line is handed only to the
request whose id it carries; a reply is made from the line its request took, under the caller's own
id; and nothing is taken twice. -/
theorem responses_attributed {host : Host} {s : State}
    (reached : Reachable (· = State.initial) host.step MethodsUnpaired s) :
    (∀ h ∈ s.handed, hasMethod h.line = false ∧ lineID h.line = some (h.request : Int) ∧
        (s.requests h.request).isSome = true) ∧
      (∀ a ∈ s.answered, ⟨a.request, a.lineNo, a.line⟩ ∈ s.handed ∧
        ∃ request cached, s.requests a.request = some request ∧
          a.outcome = host.reply cached request a.line ∧
          Carries host cached request a.line a.outcome) ∧
      (s.answered.map Answer.request).Nodup ∧ (s.answered.map Answer.lineNo).Nodup := by
  have inv : Attributed host s :=
    reached.invariant (fun _ starts => starts ▸ initial_attributed host) step_attributed
  refine ⟨?_, ?_, inv.once, answered_lines_distinct inv⟩
  · intro h listed
    obtain ⟨carried, response⟩ := inv.handed h listed
    exact ⟨response, carried, inv.addressed h listed⟩
  · intro a listed
    obtain ⟨request, cached, found, _, outcome⟩ := inv.settled a listed
    refine ⟨inv.recorded a listed, request, cached, found, outcome, ?_⟩
    rw [outcome]
    exact reply_carries host cached request a.line

def plainHost : Host where
  bridge := ⟨fun _ message => ⟨none, none, message⟩, fun _ body => .object body, fun _ body => body⟩
  initializeStatus := fun _ => none
  validInitialize := fun _ => false

def callPost : Post where
  jsonContentType := true
  bodyStatus := none
  body := .object [("jsonrpc", .string "2.0"), ("id", .number "7"), ("method", .string "tools/call")]
  versionStatus := none
  sessionStatus := none
  sessionHeader := true

def callAnsweredBy (line : Line) : List Action :=
  [.post callPost, .register 1, .writeStdin 1 true, .scan line, .lookup, .send, .receive 1,
    .deregister 1]

theorem responses_attributed_to_caller :
    ∃ s, Reachable (· = State.initial) plainHost.step MethodsUnpaired s ∧
      s.answered.map Answer.outcome = [.json [("result", .other "ok"), ("id", .number "7")]] ∧
      ((∀ h ∈ s.handed, hasMethod h.line = false ∧ lineID h.line = some (h.request : Int) ∧
          (s.requests h.request).isSome = true) ∧
        (∀ a ∈ s.answered, ⟨a.request, a.lineNo, a.line⟩ ∈ s.handed ∧
          ∃ request cached, s.requests a.request = some request ∧
            a.outcome = plainHost.reply cached request a.line ∧
            Carries plainHost cached request a.line a.outcome) ∧
        (s.answered.map Answer.request).Nodup ∧ (s.answered.map Answer.lineNo).Nodup) := by
  refine (exists_reachable_under plainHost.step State.initial
    (callAnsweredBy (.object [("id", .number "1"), ("result", .other "ok")])) (by rfl) ?_).imp
    (fun s found => ⟨found.1, found.2, responses_attributed found.1⟩)
  decide +kernel

/-- A request that the server makes of the client under a pending number is taken for the reply. -/
theorem server_request_taken_for_reply :
    ¬∀ s, Reachable (· = State.initial) plainHost.step always s →
      ∀ h ∈ s.handed, hasMethod h.line = false ∧ lineID h.line = some (h.request : Int) := by
  intro claimed
  obtain ⟨s, reached, handed⟩ : ∃ s, Reachable (· = State.initial) plainHost.step always s ∧
      s.handed.any (fun h => hasMethod h.line) = true :=
    exists_reachable _ State.initial (callAnsweredBy (.object [("id", .number "1"),
      ("method", .string "sampling/createMessage")])) rfl (by decide +kernel)
  obtain ⟨h, listed, method⟩ := any_eq_true.mp handed
  have response := (claimed s reached h listed).1
  rw [method] at response
  cases response

end McpLocalHub.Daemon.ResponseAttribution
