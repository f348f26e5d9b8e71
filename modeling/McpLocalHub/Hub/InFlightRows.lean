/- Module: Hub/InFlightRows
   source: internal/api/hub_mcp_aggregator.go, internal/api/hub_mcp_session.go
   digest: One dispatch for each request id, its row, and the gap that the self-heal opens. -/

import McpLocalHub.Hub.CallRules
import McpLocalHub.Hub.CanonicalNumbers

set_option autoImplicit false

/-! The self-heal takes the row of a dispatch out and puts it back in two critical sections, and
does not look at the result of the second one. Between the two the key is free, so a second call
with the same id is let in. -/

namespace McpLocalHub.Hub.InFlightRows

open Foundation.Maps Foundation.Runs RequestId ToolsList Aggregator CallRules

def holds : CallPhase → Option RequestIDKey
  | .posting _ key _ => some key
  | .reinit _ (.heal key _) => some key
  | .join _ (.heal key _) _ => some key
  | .waiting _ (.heal key _) _ _ => some key
  | .healed _ key _ => some key
  | .removed _ key _ _ => some key
  | .retrying _ key _ _ => some key
  | .finishing key _ => some key
  | _ => none

def inGap : CallPhase → Bool
  | .removed _ _ _ _ => true
  | _ => false

def outstanding : CallPhase → Option (RequestIDKey × Text)
  | .posting _ key daemonReqID => some (key, daemonReqID)
  | .retrying _ key _ retryReqID => some (key, retryReqID)
  | _ => none

variable {key : RequestIDKey} {rows : InFlight} {calls : Map ℕ Call} {id : ℕ} {new old : Call}

variable {reqID : Text} {rows' : InFlight} {call : Call}

theorem holds_of_outstanding {phase : CallPhase}
    (sent : outstanding phase = some (key, reqID)) : holds phase = some key ∧ inGap phase = false := by
  cases phase <;> cases sent <;> exact ⟨rfl, rfl⟩

theorem lookup_removeInFlight_self (rows : InFlight) (key : RequestIDKey) :
    (rows.removeInFlight key).requests.lookup key = none := by
  unfold InFlight.removeInFlight
  split
  · exact AList.lookup_erase _ _
  · next absent => exact absent

theorem lookup_removeInFlight_other (rows : InFlight) {other : RequestIDKey}
    (different : other ≠ key) :
    (rows.removeInFlight key).requests.lookup other = rows.requests.lookup other := by
  unfold InFlight.removeInFlight
  split
  · exact AList.lookup_erase_ne different
  · rfl

def Counted (rows : InFlight) : Prop := rows.count = size rows.requests

theorem Counted.insert (counted : Counted rows)
    (entry : InflightEntry) (absent : rows.requests.lookup key = none) :
    Counted ⟨rows.requests.insert key entry, rows.count + 1⟩ := by
  have grown := size_insert_of_absent entry absent
  unfold Counted at counted ⊢
  simp only [grown, counted]
  omega

theorem Counted.remove {rows : InFlight} (counted : Counted rows) (key : RequestIDKey) :
    Counted (rows.removeInFlight key) := by
  unfold InFlight.removeInFlight
  split
  · next entry present =>
    have shrunk := size_erase_of_present present
    unfold Counted at counted ⊢
    simp only [counted]
    omega
  · exact counted

/-- Each holder owns the row of its key, except in the gap, where there is no row; and a key has
one holder. -/
structure Exclusive (calls : Map ℕ Call) (rows : InFlight) : Prop where
  owned : ∀ id call key, calls.lookup id = some call → holds call.phase = some key →
    inGap call.phase = false → ∃ entry, rows.requests.lookup key = some entry ∧
      ∀ reqID, outstanding call.phase = some (key, reqID) → entry.daemonRequestID = reqID
  gap : ∀ id call key, calls.lookup id = some call → holds call.phase = some key →
    inGap call.phase = true → rows.requests.lookup key = none
  single : ∀ id id' call call' key, calls.lookup id = some call → calls.lookup id' = some call' →
    holds call.phase = some key → holds call'.phase = some key → id = id'
  counted : Counted rows

theorem exclusive_empty : Exclusive ∅ {} := by
  constructor
  case owned => intro id call key found; cases found
  case gap => intro id call key found; cases found
  case single => intro id id' call call' key found; cases found
  case counted => rfl

/-- What a call owes for the key that it holds. -/
def Owns (rows : InFlight) (phase : CallPhase) : Prop :=
  ∀ key, holds phase = some key → if inGap phase then rows.requests.lookup key = none
    else ∃ entry, rows.requests.lookup key = some entry ∧
      ∀ reqID, outstanding phase = some (key, reqID) → entry.daemonRequestID = reqID

theorem Exclusive.move
    (inv : Exclusive calls rows)
    (others : ∀ other call key, other ≠ id → calls.lookup other = some call →
      holds call.phase = some key →
      rows'.requests.lookup key = rows.requests.lookup key ∧ holds new.phase ≠ some key)
    (owns : Owns rows' new.phase) (counted : Counted rows') :
    Exclusive (calls.insert id new) rows' := by
  constructor
  case owned =>
    intro other call key found held free
    rcases lookup_insert_cases found with ⟨_, rfl⟩ | ⟨different, old⟩
    · simpa [free] using owns key held
    · rw [(others other call key different old held).1]
      exact inv.owned other call key old held free
  case gap =>
    intro other call key found held inside
    rcases lookup_insert_cases found with ⟨_, rfl⟩ | ⟨different, old⟩
    · simpa [inside] using owns key held
    · rw [(others other call key different old held).1]
      exact inv.gap other call key old held inside
  case single =>
    intro first second call call' key found found' held held'
    rcases lookup_insert_cases found with ⟨here, rfl⟩ | ⟨different, old⟩ <;>
      rcases lookup_insert_cases found' with ⟨here', rfl⟩ | ⟨different', old'⟩
    · exact here.trans here'.symm
    · exact absurd held (others second call' key different' old' held').2
    · exact absurd held' (others first call key different old held).2
    · exact inv.single first second call call' key old old' held held'
  case counted => exact counted

theorem Exclusive.idle (inv : Exclusive calls rows) (free : holds new.phase = none) :
    Exclusive (calls.insert id new) rows := by
  refine inv.move ?_ ?_ inv.counted
  · intro other call key _ _ _
    exact ⟨rfl, by rw [free]; nofun⟩
  · intro key held
    rw [free] at held
    cases held

section

variable (inv : Exclusive calls rows) (found : calls.lookup id = some old)
  (held : holds old.phase = some key)

include inv found held

theorem Exclusive.apart {other : ℕ} {key' : RequestIDKey}
    (different : other ≠ id) (found' : calls.lookup other = some call)
    (held' : holds call.phase = some key') : key' ≠ key := by
  rintro rfl
  exact different (inv.single other id call old key' found' found held' held)

theorem Exclusive.keep (outside : inGap old.phase = false)
    (still : holds new.phase = some key) (outside' : inGap new.phase = false)
    (home : outstanding new.phase = none) : Exclusive (calls.insert id new) rows := by
  refine inv.move ?_ ?_ inv.counted
  · intro other call key' different found' held'
    have apart := inv.apart found held different found' held'
    exact ⟨rfl, by rw [still]; simpa using apart.symm⟩
  · intro key' held'
    obtain rfl : key = key' := by rwa [still, Option.some.injEq] at held'
    obtain ⟨entry, present, _⟩ := inv.owned id old key found held outside
    rw [if_neg (by simp [outside'])]
    exact ⟨entry, present, by rw [home]; nofun⟩

theorem Exclusive.change
    (elsewhere : ∀ other, other ≠ key → rows'.requests.lookup other = rows.requests.lookup other)
    (within : ∀ key', holds new.phase = some key' → key' = key) (owns : Owns rows' new.phase)
    (counted : Counted rows') : Exclusive (calls.insert id new) rows' := by
  refine inv.move ?_ owns counted
  intro other call key' different found' held'
  have apart := inv.apart found held different found' held'
  exact ⟨elsewhere key' apart, fun same => apart (within key' same)⟩

end

theorem holds_routeCall (routeMap : Option (Map String ToolRef)) (params : Except String String) :
    holds (routeCall routeMap params) = none := by
  unfold routeCall
  split
  · rfl
  · split_ifs
    · rfl
    · split <;> rfl

theorem holds_revalidate (sess : Session) (current : Option Published) (ref : ToolRef) :
    holds (revalidate sess current ref) = none := by
  rcases revalidate_cases sess current ref with refused | ⟨passed, _⟩ | ⟨live, moved, _, _, passed⟩
  · rw [refused]; rfl
  · rw [passed]; rfl
  · rw [passed]; rfl

def NoneInGap (calls : Map ℕ Call) (key : RequestIDKey) : Prop :=
  ∀ entry ∈ calls.entries, holds entry.2.phase = some key → inGap entry.2.phase = false
  deriving Decidable

theorem NoneInGap.of_lookup (clear : NoneInGap calls key) (found : calls.lookup id = some call)
    (held : holds call.phase = some key) : inGap call.phase = false :=
  clear ⟨id, call⟩ (AList.mem_lookup_iff.mp found) held

/-- A call enters under its key only while no dispatch of the key is between the two critical
sections of its self-heal. -/
def EntersOutsideGap (json : JSON) (s : State) (action : Action) : Prop :=
  match action with
  | .dispatch id _ =>
    match s.calls.lookup id with
    | some call =>
      match newRequestIDKey json call.clientReqID with
      | .ok key => NoneInGap s.calls key
      | .error _ => True
    | none => True
  | _ => True

instance (json : JSON) (s : State) (action : Action) : Decidable (EntersOutsideGap json s action) := by
  unfold EntersOutsideGap
  split
  · split
    · split <;> infer_instance
    · infer_instance
  · infer_instance

variable {json : JSON} {sess : Session} {s t : State} {action : Action}

theorem rule_exclusive {base : State}
    (rule : CallRule json sess s id (s.calls.lookup id) base new)
    (clear : ∀ reqID target key, s.calls.lookup id = some ⟨reqID, .ready target⟩ →
      newRequestIDKey json reqID = .ok key → NoneInGap s.calls key)
    (inv : Exclusive s.calls s.inFlight) :
    Exclusive (base.setCall id new).calls (base.setCall id new).inFlight := by
  generalize found : s.calls.lookup id = old at rule clear
  cases rule with
  | start => exact inv.idle (holds_routeCall _ _)
  | load => exact inv.idle (holds_revalidate _ _ _)
  | unbound | bind | unrestarted | restarted | resolvePort | readCache | reuse | exhausted
  | exhaustedWithoutSession | stale | refreshAgain | refreshFailed | refuse => exact inv.idle rfl
  | @reinit _ _ purpose | @follow _ _ purpose | @lead _ _ purpose =>
    cases purpose with
    | refresh attempt => exact inv.idle rfl
    | heal key err => exact inv.keep found rfl rfl rfl rfl rfl
  | healReady | healFailed | heal | posted | unprepared | retried =>
    exact inv.keep found rfl rfl rfl rfl rfl
  | @enter reqID daemonReqID target key named absent =>
    refine inv.move ?_ ?_ (inv.counted.insert _ absent)
    · intro other call key' _ found' held
      have apart : key' ≠ key := by
        rintro rfl
        have outside := (clear reqID target key' rfl named).of_lookup found' held
        obtain ⟨entry, present, _⟩ := inv.owned other call key' found' held outside
        rw [absent] at present
        cases present
      exact ⟨AList.lookup_insert_ne apart, fun same => apart (Option.some.inj same).symm⟩
    · rintro key' ⟨⟩
      refine ⟨target.entry daemonReqID, AList.lookup_insert _, ?_⟩
      rintro reqID' ⟨⟩
      rfl
  | @removeRow _ _ _ key =>
    refine inv.change found rfl (fun other different => lookup_removeInFlight_other _ different)
      (fun key' held => (Option.some.inj held).symm) ?_ (inv.counted.remove key)
    rintro key' ⟨⟩
    exact lookup_removeInFlight_self _ _
  | @reinsertRow _ retryReqID target key =>
    have absent := inv.gap id _ key found rfl rfl
    have inserted : (s.inFlight.insertInFlight key (target.entry retryReqID)).1 =
        ⟨s.inFlight.requests.insert key (target.entry retryReqID), s.inFlight.count + 1⟩ := by
      simp only [InFlight.insertInFlight, absent]
    simp only [inserted]
    refine inv.change found rfl (fun other different => AList.lookup_insert_ne different)
      (fun key' held => (Option.some.inj held).symm) ?_ (inv.counted.insert _ absent)
    rintro key' ⟨⟩
    refine ⟨target.entry retryReqID, AList.lookup_insert _, ?_⟩
    rintro reqID' ⟨⟩
    rfl
  | @finish _ key outcome =>
    refine inv.change found rfl (fun other different => lookup_removeInFlight_other _ different)
      nofun ?_ (inv.counted.remove key)
    nofun

theorem step_exclusive (inv : Exclusive s.calls s.inFlight)
    (outside : EntersOutsideGap json s action) (moved : step json sess s action = some t) :
    Exclusive t.calls t.inFlight := by
  rcases step_cases moved with moved | moved | moved | moved
  · have kept := (stepSession_keeps moved).1
    rwa [kept.calls, kept.inFlight]
  · obtain ⟨lists, routeMap, rfl⟩ := stepList_keeps moved
    exact inv
  · obtain ⟨id, old, base, new, _, rule, rfl⟩ := stepFlight_ruled moved
    cases rule <;> exact inv
  · obtain ⟨id, base, new, rule, rfl, dispatched⟩ := stepCall_ruled moved
    refine rule_exclusive rule ?_ inv
    intro reqID target key found named
    obtain ⟨prepared, rfl⟩ := dispatched reqID target found
    simpa only [EntersOutsideGap, found, named] using outside

/-- In every run in which no call enters under a key whose holder is in the gap: two calls at
daemons have different keys; a call at a daemon owns the row of its key, with its current daemon
request id; and the counter is the number of rows. -/
theorem inFlight_exclusive
    (reached : Reachable (Created sess) (step json sess) (EntersOutsideGap json) s) :
    (∀ id id' call call' key reqID reqID', s.calls.lookup id = some call →
        s.calls.lookup id' = some call' → outstanding call.phase = some (key, reqID) →
        outstanding call'.phase = some (key, reqID') → id = id') ∧
      (∀ id call key reqID raw, s.calls.lookup id = some call →
        outstanding call.phase = some (key, reqID) → newRequestIDKey json raw = .ok key →
        ∃ entry, s.inFlight.requests.lookup key = some entry ∧ entry.daemonRequestID = reqID ∧
          forwardCancellation json s raw = some entry) ∧
      s.inFlight.count = size s.inFlight.requests := by
  have inv : Exclusive s.calls s.inFlight := by
    have started : ∀ s, Created sess s → Exclusive s.calls s.inFlight := by
      rintro _ ⟨current, nextStamp, _, _, _, rfl⟩
      exact exclusive_empty
    exact reached.invariant started (fun _ _ _ => step_exclusive)
  refine ⟨?_, ?_, inv.counted⟩
  · intro id id' call call' key reqID reqID' found found' sent sent'
    exact inv.single id id' call call' key found found' (holds_of_outstanding sent).1
      (holds_of_outstanding sent').1
  · intro id call key reqID raw found sent named
    obtain ⟨held, outside⟩ := holds_of_outstanding sent
    obtain ⟨entry, present, current⟩ := inv.owned id call key found held outside
    refine ⟨entry, present, current reqID sent, ?_⟩
    simp only [forwardCancellation, named, present]

def sentAs (s : State) (id : ℕ) : Option (RequestIDKey × Text) :=
  (s.calls.lookup id).bind (fun call => outstanding call.phase)

theorem sentAs_spec (sent : sentAs s id = some (key, reqID)) :
    ∃ call, s.calls.lookup id = some call ∧ outstanding call.phase = some (key, reqID) :=
  Option.bind_eq_some_iff.mp sent

def rowOf (s : State) (key : RequestIDKey) : Option Text :=
  (s.inFlight.requests.lookup key).map InflightEntry.daemonRequestID

theorem inFlight_exclusive_healed :
    ∃ s, Reachable (Created memorySession) (step CanonicalNumbers.plainJSON memorySession)
        (EntersOutsideGap CanonicalNumbers.plainJSON) s ∧
      sentAs s 1 = some ("n:7".toList, ['b']) ∧
      (∃ entry, s.inFlight.requests.lookup "n:7".toList = some entry ∧
        entry.daemonRequestID = ['b'] ∧
        forwardCancellation CanonicalNumbers.plainJSON s ['7'] = some entry) ∧
      s.inFlight.count = size s.inFlight.requests := by
  refine (exists_reachable_under (step CanonicalNumbers.plainJSON memorySession) memoryStart
    (opened ++ called 1 ['a'] ++ [.posted 1 (.retriable "refused")] ++ reinitialized 1 0 "second" ++
      [.removeRow 1 (.ok ['b']), .reinsertRow 1]) memoryStart_created ?_).imp
    (fun s ran => ⟨ran.1, ran.2, ?_⟩)
  · decide +kernel
  · obtain ⟨_, owns, counted⟩ := inFlight_exclusive ran.1
    obtain ⟨call, found, out⟩ := sentAs_spec ran.2
    exact ⟨owns 1 call _ _ ['7'] found out (by decide +kernel), counted⟩

/-- While the first call heals, a second one with its id is let in, and a cancellation reaches the
second one's request. -/
theorem healing_call_loses_row :
    ∃ s, Reachable (Created memorySession) (step CanonicalNumbers.plainJSON memorySession) always s ∧
      sentAs s 1 = some ("n:7".toList, ['b']) ∧ sentAs s 2 = some ("n:7".toList, ['c']) ∧
      rowOf s "n:7".toList = some ['c'] := by
  exact exists_reachable _ memoryStart
    (opened ++ called 1 ['a'] ++ [.posted 1 (.retriable "refused")] ++ reinitialized 1 0 "second" ++
      [.removeRow 1 (.ok ['b'])] ++ called 2 ['c'] ++ [.reinsertRow 1]) memoryStart_created
    (by decide +kernel)

end McpLocalHub.Hub.InFlightRows
