/- Module: Daemon/ReadinessOrder
   source: internal/daemon/lazy_proxy_readiness.go, internal/cli/supervisor_runtime_tracker.go
   digest: What each step of publisher, callers and supervisor does, and the order of what is
   accepted. -/

import McpLocalHub.Daemon.ReadinessPublisher

set_option autoImplicit false

namespace McpLocalHub.Daemon.ReadinessPublisher

open Foundation.Maps Foundation.Runs Supervisor.LazyReadiness Supervisor.RuntimeTracker

structure SameFlight (s t : System) : Prop where
  worker : t.worker = s.worker
  row : t.row = s.row
  accepted : t.accepted = s.accepted
  lastSent : t.lastSent = s.lastSent
  delivered : t.delivered = s.delivered
  fatals : t.fatals = s.fatals

variable {s t : System} {key : Key} {r : Request} {w : Wrapper}

theorem SameFlight.trans {u : System} (first : SameFlight s t) (second : SameFlight t u) :
    SameFlight s u where
  worker := second.worker.trans first.worker
  row := second.row.trans first.row
  accepted := second.accepted.trans first.accepted
  lastSent := second.lastSent.trans first.lastSent
  delivered := second.delivered.trans first.delivered
  fatals := second.fatals.trans first.fatals

structure Aside (s t : System) : Prop extends SameFlight s t where
  pending : t.pending = s.pending
  latest : t.latest = s.latest

theorem returns_aside (s : System) (key : Key) (ok : Bool) : Aside s (s.returns key ok) := by
  unfold System.returns
  split <;> exact ⟨⟨rfl, rfl, rfl, rfl, rfl, rfl⟩, rfl, rfl⟩

theorem complete_aside (s : System) (r : Request) (ok : Bool) : Aside s (s.complete r ok) := by
  unfold System.complete
  split <;> exact ⟨⟨rfl, rfl, rfl, rfl, rfl, rfl⟩, rfl, rfl⟩

theorem await_aside (s : System) (c : ℕ) (key : Key) (r : Request) (waitLimit : ℤ) :
    Aside s (s.await c key r waitLimit) := by
  unfold System.await
  split
  · exact returns_aside s key true
  · exact ⟨⟨rfl, rfl, rfl, rfl, rfl, rfl⟩, rfl, rfl⟩

theorem submit_pending (s : System) (r : Request) : (s.submit r).pending = some r := by
  unfold System.submit
  split
  · rfl
  · exact (complete_aside _ _ _).pending

theorem submit_sameFlight (s : System) (r : Request) : SameFlight s (s.submit r) := by
  unfold System.submit
  split
  · constructor <;> rfl
  · exact .trans (by constructor <;> rfl) (complete_aside _ _ _).toSameFlight

inductive Posted (s : System) (c : ℕ) (request : Request) (waitLimit : ℤ) : System → Prop
  | settled {latest : Key} (known : s.latest = some latest)
      (old : request.key < latest ∨ request.key = latest ∧ s.delivered = some request.key) :
      Posted s c request waitLimit (s.returns request.key true)
  | joined {other : Request} {latest : Key} (known : s.latest = some latest)
      (same : request.key = latest) (key : other.key = request.key) :
      Posted s c request waitLimit (s.await c request.key other waitLimit)
  | submitted (rises : ∀ latest, s.latest = some latest → latest ≤ request.key)
      (free : ∀ r, s.pending = some r → r.key ≠ request.key) :
      Posted s c request waitLimit ((s.submit request).await c request.key request waitLimit)

theorem joinable_some (found : s.joinable key = some r) : r.key = key := by
  unfold System.joinable at found
  split at found
  · split at found
    · rename_i same
      exact Option.some.inj found ▸ same
    · exact of_decide_eq_true (Option.filter_eq_some_iff.mp found).2
  · exact of_decide_eq_true (Option.filter_eq_some_iff.mp found).2

theorem joinable_none (missing : s.joinable key = none) :
    ∀ r, s.pending = some r → r.key ≠ key := by
  intro r waits same
  unfold System.joinable at missing
  rw [waits] at missing
  dsimp only at missing
  rw [if_pos same] at missing
  cases missing

theorem post_posted (c : ℕ) (request : Request) (waitLimit : ℤ)
    (slot : ∀ r, s.pending = some r → s.latest = some r.key) :
    Posted s c request waitLimit (s.post c request waitLimit) := by
  unfold System.post
  cases known : s.latest with
  | none =>
    refine .submitted (fun latest found => ?_) (fun r waits => ?_)
    · rw [known] at found
      cases found
    · have found := slot r waits
      rw [known] at found
      cases found
  | some latest =>
    simp only [compare_neg_iff, compare_eq_zero_iff]
    by_cases old : request.key < latest ∨ request.key = latest ∧ s.delivered = some request.key
    · rw [if_pos old]
      exact .settled known old
    rw [if_neg old]
    have rises (other : Key) (found : s.latest = some other) : other ≤ request.key := by
      obtain rfl : latest = other := Option.some.inj (known.symm.trans found)
      exact not_lt.mp (fun less => old (.inl less))
    by_cases same : request.key = latest
    · rw [if_pos same]
      split
      · rename_i other found
        exact .joined known same (joinable_some found)
      · rename_i missing
        exact .submitted rises (joinable_none missing)
    · rw [if_neg same]
      refine .submitted rises (fun r waits equal => same ?_)
      exact equal.symm.trans (Option.some.inj ((slot r waits).symm.trans known))

def Request.Valid (r : Request) : Prop := r.epoch ≠ 0 ∧ r.transition ≠ .unknown

theorem event_answered {row : LazyRow} (valid : r.Valid)
    (runs : row.Runs w.wrapperPID w.wrapperStartedAt) (stored : row.Stored) :
    Answered row r.state (commitLazyProxyReadinessEvent row (r.event w)) :=
  @commit_answered row (r.event w) w.wrapperStartedAt r.observedAt rfl w.lazyProxy w.process valid.1
    valid.2 rfl rfl runs stored

/-- What holds in every run: the slot holds the greatest state, and the accepted states go up to
that of the row. -/
structure Wired (w : Wrapper) (s : System) : Prop where
  runs : s.row.Runs w.wrapperPID w.wrapperStartedAt
  stored : s.row.Stored
  slot : ∀ r, s.pending = some r → s.latest = some r.key
  pending : ∀ r, s.pending = some r → r.Valid
  sending : ∀ r outcomes, s.worker.send = some (r, outcomes) → r.Valid
  increasing : s.accepted.Pairwise (· < ·)
  bounded : ∀ k ∈ s.accepted, ∃ held, s.row.lazyReadiness = some held ∧ k ≤ held.key

theorem Wired.flight (holds : Wired w s) (same : SameFlight s t)
    (slot : ∀ r, t.pending = some r → t.latest = some r.key)
    (pending : ∀ r, t.pending = some r → r.Valid) : Wired w t where
  runs := by rw [same.row]; exact holds.runs
  stored := by rw [same.row]; exact holds.stored
  slot := slot
  pending := pending
  sending := by rw [same.worker]; exact holds.sending
  increasing := by rw [same.accepted]; exact holds.increasing
  bounded := by rw [same.accepted, same.row]; exact holds.bounded

theorem Wired.aside (holds : Wired w s) (same : Aside s t) : Wired w t := by
  refine holds.flight same.toSameFlight ?_ ?_
  · rw [same.pending, same.latest]
    exact holds.slot
  · rw [same.pending]
    exact holds.pending

theorem raised_eq
    (rises : ∀ latest, s.latest = some latest → latest ≤ key) : s.raised key = key := by
  unfold System.raised
  cases known : s.latest with
  | none => rfl
  | some latest =>
    dsimp only
    split
    · rfl
    · rename_i below
      rw [compare_pos_iff, not_lt] at below
      exact le_antisymm (rises latest known) below

theorem submit_eq (rises : ∀ latest, s.latest = some latest → latest ≤ r.key) :
    s.submit r =
      match s.pending with
      | none => { s with latest := some r.key, pending := some r, nextRequest := s.nextRequest + 1 }
      | some replaced =>
        { s with latest := some r.key, pending := some r,
                 nextRequest := s.nextRequest + 1 }.complete replaced true := by
  cases waiting : s.pending with
  | none | some replaced => simp only [System.submit, raised_eq rises, waiting]

theorem submit_latest (rises : ∀ latest, s.latest = some latest → latest ≤ r.key) :
    (s.submit r).latest = some r.key := by
  rw [submit_eq rises]
  split
  · rfl
  · exact (complete_aside _ _ _).latest

theorem Wired.post (holds : Wired w s) (c : ℕ)
    (valid : r.Valid) (waitLimit : ℤ) : Wired w (s.post c r waitLimit) := by
  have posted := post_posted c r waitLimit holds.slot
  revert posted
  generalize s.post c r waitLimit = t
  intro posted
  cases posted with
  | settled known old => exact holds.aside (returns_aside _ _ _)
  | joined known same key => exact holds.aside (await_aside _ _ _ _ _)
  | submitted rises free =>
    refine Wired.aside ?_ (await_aside _ _ _ _ _)
    refine holds.flight (submit_sameFlight _ _) ?_ ?_
    · rw [submit_pending, submit_latest rises]
      intro other same
      rw [Option.some.inj same]
    · rw [submit_pending]
      intro other same
      exact Option.some.inj same ▸ valid

theorem Wired.commit (holds : Wired w s)
    {outcomes : List Outcome} (sends : s.worker = .attempting r outcomes) (lost : Bool) :
    Wired w (s.commit w r outcomes lost) := by
  have valid : r.Valid := holds.sending r outcomes (by rw [sends]; rfl)
  have sending (other : Request) (now tried : List Outcome)
      (same : some (r, now) = some (other, tried)) : other.Valid := by
    obtain ⟨rfl, _⟩ := Prod.mk.inj (Option.some.inj same)
    exact valid
  unfold System.commit
  split
  · exact { holds with sending := fun other tried => sending other _ tried }
  have answered := event_answered valid holds.runs holds.stored
  revert answered
  cases commitLazyProxyReadinessEvent s.row (r.event w) with
  | error e =>
    intro _
    exact { holds with sending := fun other tried => sending other _ tried }
  | ok answer =>
    obtain ⟨receipt, row⟩ := answer
    intro answered
    cases answered with
    | accepted rule said entry stored =>
      dsimp only
      rw [if_pos said]
      refine ⟨?_, ?_, holds.slot, holds.pending, fun other tried => sending other _ tried, ?_, ?_⟩
      · obtain ⟨running, found, serves⟩ := holds.runs
        exact ⟨running, entry.trans found, serves⟩
      · intro held same
        obtain rfl : r.state = held := Option.some.inj (stored.symm.trans same)
        exact valid
      · refine List.pairwise_append.mpr ⟨holds.increasing, List.pairwise_singleton _ _, ?_⟩
        intro k listed new one
        obtain rfl := List.mem_singleton.mp one
        obtain ⟨held, same, below⟩ := holds.bounded k listed
        rw [same] at rule
        exact lt_of_le_of_lt below (verdict_accept_lt rule)
      · intro k listed
        refine ⟨r.state, stored, ?_⟩
        rcases List.mem_append.mp listed with earlier | one
        · obtain ⟨held, same, below⟩ := holds.bounded k earlier
          rw [same] at rule
          exact (lt_of_le_of_lt below (verdict_accept_lt rule)).le
        · exact (List.mem_singleton.mp one).le
    | duplicate rule said | superseded rule said =>
      dsimp only
      rw [if_neg (by rw [said]; decide)]
      exact { holds with sending := fun other tried => sending other _ tried }

inductive Moved (w : Wrapper) (s : System) : Action → System → Prop
  | invalid {c epoch : ℕ} {transition : Transition} {waitLimit now : ℤ} :
      Moved w s (.publish c epoch transition waitLimit now) s
  | publish {c epoch : ℕ} {transition : Transition} {waitLimit now : ℤ} {r : Request}
      (made : r = ⟨s.nextRequest, epoch, transition, now⟩) (valid : r.Valid) :
      Moved w s (.publish c epoch transition waitLimit now)
        ({ s with published := r.key :: s.published }.post c r waitLimit)
  | wake {c : ℕ} {waiter : Waiter} {ok : Bool} (waits : s.callers.lookup c = some waiter)
      (done : s.results.lookup waiter.request = some ok) :
      Moved w s (.wake c) ({ s with callers := s.callers.erase c }.returns waiter.key ok)
  | timeout {c : ℕ} {waiter : Waiter} :
      Moved w s (.timeout c) ({ s with callers := s.callers.erase c }.returns waiter.key false)
  | take {r : Request} (rests : s.worker = .waiting) (waits : s.pending = some r) :
      Moved w s .take { s with pending := none, worker := .attempting r [] }
  | commit {r : Request} {outcomes : List Outcome} {lost : Bool}
      (sends : s.worker = .attempting r outcomes) :
      Moved w s (.commit lost) (s.commit w r outcomes lost)
  | retry {r : Request} {outcomes : List Outcome} (failed : s.worker = .checking r outcomes)
      (current : s.latest = some r.key) (short : outcomes.length < 2) :
      Moved w s .check { s with worker := .attempting r outcomes }
  | giveUp {r : Request} {outcomes : List Outcome} (failed : s.worker = .checking r outcomes)
      (outlived : s.latest ≠ some r.key ∨ 2 ≤ outcomes.length) :
      Moved w s .check { s with worker := .returned r outcomes }
  | land {r : Request} {outcomes : List Outcome} {delivered : Option Key} {fatal : Bool}
      (sent : s.worker = .returned r outcomes)
      (kept : delivered = s.delivered ∨ sendOk outcomes = true ∧ delivered = some r.key)
      (alarm : fatal = true → sendOk outcomes = false) :
      Moved w s .land { s with delivered := delivered, worker := .finishing r outcomes fatal }
  | signal {r : Request} {outcomes : List Outcome} (ends : s.worker = .finishing r outcomes true)
      (current : s.latest = some r.key) :
      Moved w s .signal
        { s with fatals := outcomes :: s.fatals, worker := .finishing r outcomes false }
  | silent {r : Request} {outcomes : List Outcome} (ends : s.worker = .finishing r outcomes true) :
      Moved w s .signal { s with worker := .finishing r outcomes false }
  | complete {r : Request} {outcomes : List Outcome}
      (ends : s.worker = .finishing r outcomes false) :
      Moved w s .complete ({ s with worker := .waiting }.complete r (sendOk outcomes))
  | restart {pidGeneration : ℕ} (spawned : 0 < pidGeneration) :
      Moved w s (.restart pidGeneration)
        { s with
          row := hydrateFromState ⟨.running, w.wrapperPID, some w.wrapperStartedAt, pidGeneration⟩
          accepted := [] }

theorem step_moved {action : Action} (moved : step w s action = some t) : Moved w s action t := by
  cases action with
  | publish c epoch transition waitLimit now =>
    rw [step] at moved
    split at moved
    · cases moved
    cases moved
    unfold System.publish
    split
    · exact .invalid
    · rename_i good
      rw [not_or, rank_eq_zero_iff] at good
      exact .publish rfl good
  | wake c =>
    obtain ⟨waiter, waits, rest⟩ := Option.bind_eq_some_iff.mp moved
    obtain ⟨ok, done, ended⟩ := Option.bind_eq_some_iff.mp rest
    cases ended
    exact .wake waits done
  | timeout c =>
    obtain ⟨waiter, waits, rest⟩ := Option.bind_eq_some_iff.mp moved
    split at rest
    · cases rest
      exact .timeout
    · cases rest
  | take =>
    rw [step] at moved
    split at moved
    · rename_i rests waits
      cases moved
      exact .take rests waits
    · cases moved
  | commit lost =>
    rw [step] at moved
    split at moved
    · rename_i sends
      cases moved
      exact .commit sends
    · cases moved
  | check =>
    rw [step] at moved
    split at moved
    · rename_i r outcomes failed
      cases moved
      by_cases again : s.isCurrent r.key = true ∧ outcomes.length < 2
      · rw [if_pos again]
        exact .retry failed (of_decide_eq_true again.1) again.2
      · rw [if_neg again]
        refine .giveUp failed ?_
        by_cases current : s.latest = some r.key
        · exact .inr (not_lt.mp (fun short => again ⟨decide_eq_true current, short⟩))
        · exact .inl current
    · cases moved
  | land =>
    rw [step] at moved
    split at moved
    · rename_i r outcomes sent
      cases moved
      refine .land sent ?_ ?_
      · split
        · rename_i both
          exact .inr ⟨both.1, rfl⟩
        · exact .inl rfl
      · intro alarm
        simp only [Bool.and_eq_true, Bool.not_eq_true'] at alarm
        exact alarm.1.1
    · cases moved
  | signal =>
    rw [step] at moved
    split at moved
    · rename_i r outcomes ends
      cases moved
      by_cases current : s.isCurrent r.key = true
      · rw [if_pos current]
        exact .signal ends (of_decide_eq_true current)
      · rw [if_neg current]
        exact .silent ends
    · cases moved
  | complete =>
    rw [step] at moved
    split at moved
    · rename_i ends
      cases moved
      exact .complete ends
    · cases moved
  | restart pidGeneration =>
    rw [step] at moved
    split at moved
    · cases moved
    · rename_i spawned
      cases moved
      exact .restart (Nat.pos_of_ne_zero spawned)

theorem wired_start (starts : Starts w s) : Wired w s := by
  obtain ⟨prior, rfl⟩ := starts
  refine ⟨⟨_, rfl, rfl, rfl, rfl, Nat.succ_pos _⟩, ?_, ?_, ?_, ?_, List.Pairwise.nil, ?_⟩
  all_goals exact nofun

theorem wired_step {action : Action} (holds : Wired w s)
    (moved : step w s action = some t) : Wired w t := by
  have keeps {before : Worker} {r : Request} {outcomes : List Outcome} (was : s.worker = before)
      (same : before.send = some (r, outcomes)) {after : List Outcome} :
      ∀ other tried, some (r, after) = some (other, tried) → Request.Valid other := by
    intro other tried now
    obtain ⟨rfl, _⟩ := Prod.mk.inj (Option.some.inj now)
    exact holds.sending r outcomes (by rw [was]; exact same)
  cases step_moved moved with
  | invalid => exact holds
  | @publish c _ _ waitLimit _ r made valid =>
    have logged : Wired w { s with published := r.key :: s.published } := { holds with }
    exact logged.post c valid waitLimit
  | wake waits done | timeout =>
    refine Wired.aside ?_ (returns_aside _ _ _)
    exact { holds with }
  | @take r rests waits =>
    refine { holds with slot := nofun, pending := nofun, sending := ?_ }
    intro other tried now
    obtain ⟨rfl, _⟩ := Prod.mk.inj (Option.some.inj now)
    exact holds.pending r waits
  | commit sends => exact holds.commit sends _
  | retry failed current short | giveUp failed outlived =>
    exact { holds with sending := keeps failed rfl }
  | land sent kept alarm => exact { holds with sending := keeps sent rfl }
  | signal ends current | silent ends => exact { holds with sending := keeps ends rfl }
  | complete ends =>
    have idle : Wired w { s with worker := .waiting } :=
      { holds with sending := nofun }
    exact idle.aside (complete_aside _ _ _)
  | restart spawned =>
    exact { holds with
      runs := ⟨_, rfl, rfl, rfl, rfl, spawned⟩, stored := nofun, increasing := .nil, bounded := nofun }

theorem wired_reachable {allow : System → Action → Prop}
    (reached : Reachable (Starts w) (step w) allow s) : Wired w s := by
  have preserve (a : System) (action : Action) (b : System) (holds : Wired w a)
      (_ : allow a action) (moved : step w a action = some b) : Wired w b := wired_step holds moved
  exact reached.invariant (fun _ => wired_start) preserve

end McpLocalHub.Daemon.ReadinessPublisher
