/- Module: Daemon/ReadinessProtocol
   source: internal/daemon/lazy_proxy_readiness.go, internal/cli/supervisor_runtime_tracker.go
   digest: Orderly runs: the supervisor ends up with the greatest state that was published. -/

import Mathlib.Order.Bounds.Basic
import McpLocalHub.Daemon.ReadinessOrder

set_option autoImplicit false

namespace McpLocalHub.Daemon.ReadinessPublisher

open Foundation.Maps Foundation.Runs Supervisor.LazyReadiness Supervisor.RuntimeTracker List

/-- A starting state is waited for. An invalidation is old, or opens an epoch of its own while the
row holds a state. The supervisor restarts only while the row holds nothing, or has yet to hold the
greatest state, a starting. -/
def Orderly (s : System) : Action → Prop
  | .publish _ _ .starting waitLimit _ => waitLimit ≠ 0
  | .publish _ epoch .idle _ _ | .publish _ epoch .failed _ _ =>
    s.latest.any (fun latest => decide (⟨epoch, 3⟩ ≤ latest ∨
      latest.epoch < epoch ∧ s.row.lazyReadiness.isSome = true)) = true
  | .restart _ =>
    s.row.lazyReadiness = none ∨
      s.latest.any (fun latest => decide (latest.rank = 1 ∧ s.row.key ≠ some latest)) = true
  | _ => True

instance (s : System) (action : Action) : Decidable (Orderly s action) := by
  unfold Orderly
  split <;> infer_instance

def Conforms (s : System) (action : Action) : Prop := ReadyAfterStarting s action ∧ Orderly s action
  deriving Decidable

def Overtaken (s : System) (k : Key) : Prop := ∃ latest, s.latest = some latest ∧ k < latest

def Held (s : System) (k : Key) : Prop :=
  ∃ latest, s.latest = some latest ∧ (k < latest ∨ k = latest ∧ s.row.key = some latest)

variable {s : System} {k key : Key} {r : Request} {waitLimit : ℤ} {row : LazyRow} {next : LazyState}
  {outcomes : List Outcome} {w : Wrapper}

theorem Overtaken.held (passed : Overtaken s k) : Held s k := by
  obtain ⟨latest, known, less⟩ := passed
  exact ⟨latest, known, .inl less⟩

/-- Where a state that was sent stands to the greatest one: the epoch of an invalidation has no
other state. -/
def Trails (k latest : Key) : Prop :=
  k ≤ latest ∧ (k.epoch = latest.epoch → latest.rank = 3 → k = latest)

/-- The attempts failed, and an answer was an error only for a state that is overtaken. -/
def Failing (s : System) (r : Request) (outcomes : List Outcome) : Prop :=
  ∀ outcome ∈ outcomes, outcome = .lost ∨ outcome.ok = false ∧ Overtaken s r.key

/-- The state is held, or all attempts failed, and there were two unless the state is overtaken. -/
def Ended (s : System) (r : Request) (outcomes : List Outcome) : Prop :=
  sendOk outcomes = true ∧ Held s r.key ∨
    sendOk outcomes = false ∧ Failing s r outcomes ∧ (outcomes.length = 2 ∨ Overtaken s r.key)

def WorkerSound (s : System) : Worker → Prop
  | .waiting => True
  | .attempting r outcomes => Failing s r outcomes ∧ outcomes.length < 2
  | .checking r outcomes =>
    Failing s r outcomes ∧ outcomes.length ≤ 2 ∧ ∃ outcome, s.lastSent = some (r.key, outcome)
  | .returned r outcomes =>
    Ended s r outcomes ∧ ∃ outcome, s.lastSent = some (r.key, outcome)
  | .finishing r outcomes fatal => Ended s r outcomes ∧ (fatal = true → sendOk outcomes = false)

/-- What the row holds trails the greatest state, and one that cannot be the first of its task has
something below it. -/
structure Based (latest : Option Key) (row : LazyRow) : Prop where
  trails : ∀ held, row.lazyReadiness = some held →
    ∃ greatest, latest = some greatest ∧ Trails held.key greatest
  base : ∀ greatest, latest = some greatest → 1 < greatest.rank →
    ∃ held, row.lazyReadiness = some held ∧ (greatest.rank = 2 → held.epoch = greatest.epoch)

structure Sound (s : System) : Prop where
  based : Based s.latest s.row
  trails : ∀ r outcomes, s.worker.send = some (r, outcomes) →
    ∃ latest, s.latest = some latest ∧ Trails r.key latest
  flying : ∀ latest r, s.latest = some latest → s.pending = none → s.worker.inFlight = some r →
    r.key = latest
  landed : ∀ latest, s.latest = some latest → s.pending = none → s.worker.inFlight = none →
    ∃ outcome, s.lastSent = some (latest, outcome)
  worker : WorkerSound s s.worker
  sent : ∀ k outcome, s.lastSent = some (k, outcome) → outcome ≠ .lost → Held s k
  delivered : ∀ k, s.delivered = some k → Held s k
  started : ∀ e ∈ s.started, Held s ⟨e, 1⟩
  results : ∀ r, s.results.lookup r = some true → Held s r.key
  waiters : ∀ c waiter, s.callers.lookup c = some waiter → waiter.key = waiter.request.key
  published : ∀ k ∈ s.published, ∃ latest, s.latest = some latest ∧ k ≤ latest
  greatest : ∀ latest, s.latest = some latest → latest ∈ s.published
  fatals : ∀ outcomes ∈ s.fatals, outcomes = [.lost, .lost]

structure Advances (s t : System) : Prop where
  held : ∀ k, Held s k → Held t k
  overtaken : ∀ k, Overtaken s k → Overtaken t k

variable {t : System} {latest greatest : Key} {after : LazyRow}
  {receipt : LazyProxyReadinessReceipt} {outcome : Outcome}

theorem advances_of
    (ahead : ∀ latest, s.latest = some latest → ∃ next, t.latest = some next ∧
      (latest < next ∨ latest = next ∧ (s.row.key = some latest → t.row.key = some latest))) :
    Advances s t where
  held := by
    rintro k ⟨latest, known, less | ⟨same, holds⟩⟩
    · obtain ⟨next, later, above | ⟨equal, _⟩⟩ := ahead latest known
      · exact ⟨next, later, .inl (less.trans above)⟩
      · exact ⟨next, later, .inl (equal ▸ less)⟩
    · obtain ⟨next, later, above | ⟨equal, keeps⟩⟩ := ahead latest known
      · exact ⟨next, later, .inl (same ▸ above)⟩
      · exact ⟨next, later, .inr ⟨same.trans equal, equal ▸ keeps holds⟩⟩
  overtaken := by
    rintro k ⟨latest, known, less⟩
    obtain ⟨next, later, above | ⟨equal, _⟩⟩ := ahead latest known
    · exact ⟨next, later, less.trans above⟩
    · exact ⟨next, later, equal ▸ less⟩

theorem Failing.advance {s t : System} (ahead : Advances s t) {r : Request}
    {outcomes : List Outcome} (failing : Failing s r outcomes) : Failing t r outcomes :=
  fun outcome listed => (failing outcome listed).imp id (And.imp id (ahead.overtaken r.key))

theorem Ended.advance {s t : System} (ahead : Advances s t) {r : Request}
    {outcomes : List Outcome} (ended : Ended s r outcomes) : Ended t r outcomes := by
  rcases ended with ⟨ok, held⟩ | ⟨failed, failing, short⟩
  · exact .inl ⟨ok, ahead.held r.key held⟩
  · exact .inr ⟨failed, failing.advance ahead, short.imp id (ahead.overtaken r.key)⟩

theorem WorkerSound.advance {s t : System} (ahead : Advances s t) (same : t.lastSent = s.lastSent)
    {worker : Worker} (sound : WorkerSound s worker) : WorkerSound t worker := by
  cases worker with
  | waiting => trivial
  | attempting r outcomes => exact ⟨sound.1.advance ahead, sound.2⟩
  | checking r outcomes => exact ⟨sound.1.advance ahead, sound.2.1, same ▸ sound.2.2⟩
  | returned r outcomes => exact ⟨Ended.advance ahead sound.1, same ▸ sound.2⟩
  | finishing r outcomes fatal => exact ⟨Ended.advance ahead sound.1, sound.2⟩

theorem Sound.returns (holds : Sound s) {ok : Bool}
    (held : ok = true → Held s key) : Sound (s.returns key ok) := by
  unfold System.returns
  split
  · rename_i good
    have same : (⟨key.epoch, 1⟩ : Key) = key := Key.eq_iff.mpr ⟨rfl, good.2.symm⟩
    refine { holds with started := ?_ }
    intro e listed
    rcases mem_cons.mp listed with rfl | earlier
    · exact same ▸ held good.1
    · exact holds.started e earlier
  · exact holds

theorem Sound.returns_other (holds : Sound s) (ok : Bool)
    (other : key.rank ≠ 1) : Sound (s.returns key ok) := by
  unfold System.returns
  rw [if_neg (fun both => other both.2)]
  exact holds

theorem Sound.complete {s : System} (holds : Sound s) {r : Request} {ok : Bool}
    (held : ok = true → Held s r.key) : Sound (s.complete r ok) := by
  unfold System.complete
  split
  · exact holds
  · refine { holds with results := ?_ }
    intro q found
    rcases lookup_insert_cases found with ⟨rfl, good⟩ | ⟨_, earlier⟩
    · exact held good.symm
    · exact holds.results q earlier

theorem Sound.await (holds : Sound s) (c : ℕ) (same : key = r.key)
    (waits : key.rank = 1 → waitLimit ≠ 0) :
    Sound (s.await c key r waitLimit) := by
  unfold System.await
  split
  · rename_i zero
    exact holds.returns_other true (fun first => waits first zero)
  · refine { holds with waiters := ?_ }
    intro d waiter found
    rcases lookup_insert_cases found with ⟨_, rfl⟩ | ⟨_, earlier⟩
    · exact same
    · exact holds.waiters d waiter earlier

/-- What an orderly caller may publish: the first of an epoch, ready after a start that is held, or
an invalidation. -/
def Admits (s : System) (k : Key) : Prop :=
  k.rank = 1 ∨ k.rank = 2 ∧ Held s ⟨k.epoch, 1⟩ ∨
    k.rank = 3 ∧ ∃ latest, s.latest = some latest ∧
      (k ≤ latest ∨ latest.epoch < k.epoch ∧ s.row.lazyReadiness.isSome = true)

theorem admits_of_conforms (holds : Sound s) {c epoch : ℕ} {transition : Transition}
    {now : ℤ} (made : r = ⟨s.nextRequest, epoch, transition, now⟩)
    (valid : r.Valid) (conforms : Conforms s (.publish c epoch transition waitLimit now)) :
    Admits s r.key ∧ (r.key.rank = 1 → waitLimit ≠ 0) := by
  subst made
  obtain ⟨ready, orderly⟩ := conforms
  have invalidation (third : transition.rank = 3)
      (allowed : s.latest.any (fun latest => decide ((⟨epoch, 3⟩ : Key) ≤ latest ∨
        latest.epoch < epoch ∧ s.row.lazyReadiness.isSome = true)) = true) :
      Admits s ⟨epoch, transition.rank⟩ := by
    obtain ⟨latest, known, where_⟩ := (Option.any_eq_true _ _).mp allowed
    rw [third]
    exact .inr (.inr ⟨rfl, latest, known, of_decide_eq_true where_⟩)
  cases transition with
  | starting => exact ⟨.inl rfl, fun _ => orderly⟩
  | ready => exact ⟨.inr (.inl ⟨rfl, holds.started epoch ready⟩), nofun⟩
  | idle | failed => exact ⟨invalidation rfl orderly, nofun⟩
  | unknown => exact absurd rfl valid.2

theorem Trails.rise {q : Key} (trails : Trails q latest)
    (known : s.latest = some latest) (above : latest ≤ k) (admits : Admits s k) : Trails q k := by
  refine ⟨trails.1.trans above, fun sameEpoch third => ?_⟩
  rcases admits with first | ⟨second, _⟩ | ⟨_, other, found, below | ⟨later, _⟩⟩
  · omega
  · omega
  · obtain rfl : latest = other := Option.some.inj (known.symm.trans found)
    obtain rfl : latest = k := le_antisymm above below
    exact trails.2 sameEpoch third
  · obtain rfl : latest = other := Option.some.inj (known.symm.trans found)
    have below := Key.le_iff.mp trails.1
    omega

theorem Based.rise (based : Based s.latest s.row)
    (above : ∀ latest, s.latest = some latest → latest ≤ k) (admits : Admits s k) :
    Based (some k) s.row where
  trails := by
    intro held found
    obtain ⟨latest, known, trails⟩ := based.trails held found
    exact ⟨k, rfl, trails.rise known (above latest known) admits⟩
  base := by
    intro greatest same second
    obtain rfl : k = greatest := Option.some.inj same
    rcases admits with first | ⟨rank, latest, known, less | ⟨start, holds⟩⟩ |
        ⟨rank, latest, known, below | ⟨_, holds⟩⟩
    · omega
    · have top := Key.le_iff.mp (above latest known)
      have bottom := Key.lt_iff.mp less
      dsimp only at bottom
      obtain rfl : latest = k := Key.eq_iff.mpr (by omega)
      exact based.base latest known second
    · obtain ⟨held, found, key⟩ := Option.map_eq_some_iff.mp holds
      refine ⟨held, found, fun _ => ?_⟩
      rw [← start] at key
      exact congrArg Key.epoch key
    · obtain rfl : latest = k := le_antisymm (above latest known) below
      exact based.base latest known second
    · obtain ⟨held, found⟩ := Option.isSome_iff_exists.mp holds
      exact ⟨held, found, fun second => by omega⟩

theorem Sound.submit (holds : Sound s) (slot : ∀ q, s.pending = some q → s.latest = some q.key)
    (admits : Admits s r.key) (rises : ∀ latest, s.latest = some latest → latest ≤ r.key)
    (free : ∀ q, s.pending = some q → q.key ≠ r.key) :
    Sound ({ s with published := r.key :: s.published }.submit r) := by
  let t : System := { s with
    published := r.key :: s.published, latest := some r.key, pending := some r
    nextRequest := s.nextRequest + 1 }
  have ahead : Advances s t := advances_of (fun latest known =>
    ⟨r.key, rfl, (rises latest known).lt_or_eq.imp id (fun same => ⟨same, id⟩)⟩)
  have sound : Sound t := by
    refine { holds with
      based := holds.based.rise rises admits
      trails := ?_
      flying := nofun
      landed := nofun
      worker := holds.worker.advance ahead rfl
      sent := fun k outcome last arrived => ahead.held k (holds.sent k outcome last arrived)
      delivered := fun k known => ahead.held k (holds.delivered k known)
      started := fun e listed => ahead.held _ (holds.started e listed)
      results := fun q done => ahead.held q.key (holds.results q done)
      published := ?_, greatest := ?_ }
    · intro q outcomes sends
      obtain ⟨latest, known, trails⟩ := holds.trails q outcomes sends
      exact ⟨r.key, rfl, trails.rise known (rises latest known) admits⟩
    · intro k listed
      refine ⟨r.key, rfl, ?_⟩
      rcases mem_cons.mp listed with rfl | earlier
      · exact le_rfl
      · obtain ⟨latest, known, below⟩ := holds.published k earlier
        exact below.trans (rises latest known)
    · intro latest known
      rw [← Option.some.inj known]
      exact mem_cons_self
  have stored := submit_eq (s := { s with published := r.key :: s.published }) rises
  rw [stored]
  split
  · exact sound
  · rename_i q waits
    have known : s.latest = some q.key := slot q waits
    have below : q.key < r.key := lt_of_le_of_ne (rises q.key known) (free q waits)
    exact sound.complete (fun _ => ⟨r.key, rfl, .inl below⟩)

theorem Sound.log (holds : Sound s) (known : s.latest = some latest)
    (below : k ≤ latest) : Sound { s with published := k :: s.published } := by
  refine { holds with published := ?_, greatest := ?_ }
  · intro other listed
    rcases mem_cons.mp listed with rfl | earlier
    · exact ⟨latest, known, below⟩
    · exact holds.published other earlier
  · exact fun greatest found => mem_cons_of_mem _ (holds.greatest greatest found)

theorem Sound.post (holds : Sound s) (slot : ∀ q, s.pending = some q → s.latest = some q.key)
    (c : ℕ) (admits : Admits s r.key) (waits : r.key.rank = 1 → waitLimit ≠ 0) :
    Sound ({ s with published := r.key :: s.published }.post c r waitLimit) := by
  have posted := post_posted (s := { s with published := r.key :: s.published }) c r waitLimit slot
  revert posted
  generalize System.post _ c r waitLimit = t
  intro posted
  cases posted with
  | @settled latest known old =>
    have below : r.key ≤ latest := old.elim le_of_lt (fun same => same.1.le)
    refine (holds.log known below).returns (fun _ => ?_)
    rcases old with less | ⟨same, delivered⟩
    · exact ⟨latest, known, .inl less⟩
    · exact holds.delivered r.key delivered
  | joined known same key => exact (holds.log known same.le).await c key.symm waits
  | submitted rises free => exact (holds.submit slot admits rises free).await c rfl waits

theorem verdict_greatest (stored : row.Stored)
    (named : next.transition ≠ .unknown) (based : Based (some next.key) row) :
    verdict row.lazyReadiness next = .accept ∨
      row.key = some next.key ∧ verdict row.lazyReadiness next ≠ .reject := by
  cases found : row.lazyReadiness with
  | none =>
    have first : ¬ 1 < next.transition.rank := by
      intro later
      obtain ⟨held, known, _⟩ := based.base next.key rfl later
      rw [found] at known
      cases known
    left
    refine if_pos ?_
    cases which : next.transition
    case starting => rfl
    case unknown => exact absurd which named
    all_goals
      rw [which] at first
      exact absurd (by decide) first
  | some held =>
    obtain ⟨greatest, same, below, alone⟩ := based.trails held found
    obtain rfl : next.key = greatest := Option.some.inj same
    have order := Key.le_iff.mp below
    change held.epoch < next.epoch ∨
      held.epoch = next.epoch ∧ held.transition.rank ≤ next.transition.rank at order
    have key : row.key = some held.key := by rw [LazyRow.key, found]; rfl
    unfold verdict
    dsimp only
    rw [if_neg (by omega)]
    rcases order with earlier | ⟨equal, rank⟩
    · have other : next.transition ≠ .ready := by
        intro ready
        have second : next.key.rank = 2 := by rw [LazyState.key, ready]; rfl
        obtain ⟨base, known, follows⟩ := based.base next.key rfl (by omega)
        obtain rfl : held = base := Option.some.inj (found.symm.trans known)
        have meets : held.epoch = next.epoch := follows second
        omega
      exact .inl (by rw [if_neg (by omega), if_neg other])
    rw [if_pos equal]
    by_cases again : held.transition = next.transition
    · rw [if_pos again]
      refine .inr ⟨?_, by decide⟩
      rw [key, LazyState.key, LazyState.key, equal, again]
    rw [if_neg again]
    by_cases follows : held.transition = .starting ∧ next.transition = .ready
    · exact .inl (if_pos follows)
    rw [if_neg follows]
    refine .inr ⟨?_, by decide⟩
    rw [key, alone equal ?_]
    have known : held.transition ≠ .unknown := (stored held found).2
    change next.transition.rank = 3
    revert rank again follows known named
    cases held.transition <;> cases next.transition <;> decide

theorem Based.answer {latest : Option Key} (based : Based latest row)
    (known : latest = some greatest) (trails : Trails next.key greatest)
    (answered : Answered row next (.ok (receipt, after))) : Based latest after := by
  cases answered with
  | duplicate _ _ | superseded _ _ => exact based
  | accepted rule said entry stored =>
    constructor
    case trails =>
      intro held found
      obtain rfl : next = held := Option.some.inj (stored.symm.trans found)
      exact ⟨greatest, known, trails⟩
    case base =>
      intro other same second
      obtain rfl : greatest = other := Option.some.inj (known.symm.trans same)
      refine ⟨next, stored, fun rank => ?_⟩
      obtain ⟨held, found, follows⟩ := based.base greatest same second
      rw [found] at rule
      have above := Key.lt_iff.mp (verdict_accept_lt rule)
      have below := Key.le_iff.mp trails.1
      have start : held.epoch = greatest.epoch := follows rank
      change held.epoch < next.epoch ∨ held.epoch = next.epoch ∧ _ at above
      change next.epoch < greatest.epoch ∨ next.epoch = greatest.epoch ∧ _ at below
      omega

theorem key_after_answer (answered : Answered row next (.ok (receipt, after)))
    (below : next.key ≤ greatest) (holds : row.key = some greatest) :
    after.key = some greatest := by
  cases answered with
  | duplicate _ _ | superseded _ _ => exact holds
  | accepted rule said entry stored =>
    obtain ⟨held, found, rfl⟩ := Option.map_eq_some_iff.mp holds
    rw [found] at rule
    exact absurd (verdict_accept_lt rule) (not_lt.mpr below)

theorem sendOk_append (outcomes : List Outcome) (outcome : Outcome) :
    sendOk (outcomes ++ [outcome]) = outcome.ok := by
  simp [sendOk]

theorem Failing.append (failing : Failing s r outcomes)
    (last : outcome = .lost ∨ outcome.ok = false ∧ Overtaken s r.key) :
    Failing s r (outcomes ++ [outcome]) :=
  forall_mem_append.mpr ⟨failing, forall_mem_singleton.mpr last⟩

theorem Sound.fail (holds : Sound s) (sends : s.worker = .attempting r outcomes)
    (failed : outcome = .lost ∨ outcome.ok = false ∧ Overtaken s r.key) :
    Sound { s with
      worker := .checking r (outcomes ++ [outcome]), lastSent := some (r.key, outcome) } := by
  have sound : Failing s r outcomes ∧ outcomes.length < 2 := by
    have worker := holds.worker
    rwa [sends] at worker
  have inFlight : s.worker.inFlight = some r := by rw [sends]; rfl
  refine { holds with trails := ?_, flying := ?_, landed := ?_, worker := ?_, sent := ?_ }
  · intro q tried now
    obtain ⟨rfl, _⟩ := Prod.mk.inj (Option.some.inj now)
    exact holds.trails r outcomes (by rw [sends]; rfl)
  · intro latest q known empty now
    exact holds.flying latest q known empty (inFlight.trans now)
  · exact nofun
  · refine ⟨sound.1.append failed, ?_, outcome, rfl⟩
    rw [length_append]
    exact sound.2
  · intro k last now arrived
    obtain ⟨rfl, rfl⟩ := Prod.mk.inj (Option.some.inj now)
    exact (failed.resolve_left arrived).2.held

theorem Sound.commit (wired : Wired w s) (holds : Sound s)
    (sends : s.worker = .attempting r outcomes) (lost : Bool) :
    Sound (s.commit w r outcomes lost) := by
  have send : s.worker.send = some (r, outcomes) := by rw [sends]; rfl
  have valid : r.Valid := wired.sending r outcomes send
  obtain ⟨latest, known, trails⟩ := holds.trails r outcomes send
  have based : Based (some latest) s.row := known ▸ holds.based
  unfold System.commit
  split
  · exact holds.fail sends (.inl rfl)
  have answered := event_answered valid wired.runs wired.stored
  revert answered
  cases commitLazyProxyReadinessEvent s.row (r.event w) with
  | error e =>
    intro answered
    cases answered with
    | rejected rule =>
      refine holds.fail sends (.inr ⟨rfl, latest, known, lt_of_le_of_ne trails.1 ?_⟩)
      rintro rfl
      rcases verdict_greatest wired.stored valid.2 based with accepts | ⟨_, other⟩
      · rw [rule] at accepts
        cases accepts
      · exact other rule
  | ok answer =>
    obtain ⟨receipt, row⟩ := answer
    intro answered
    let t : System := { s with
      row := row
      accepted := if receipt.disposition = .accepted then s.accepted ++ [r.key] else s.accepted
      worker := .returned r (outcomes ++ [.answered receipt.disposition])
      lastSent := some (r.key, .answered receipt.disposition) }
    have ahead : Advances s t := advances_of (fun greatest found => by
      obtain rfl : latest = greatest := Option.some.inj (known.symm.trans found)
      exact ⟨latest, known, .inr ⟨rfl, key_after_answer answered trails.1⟩⟩)
    have held : Held t r.key := by
      refine ⟨latest, known, trails.1.lt_or_eq.imp id ?_⟩
      rintro rfl
      refine ⟨rfl, ?_⟩
      rcases verdict_greatest wired.stored valid.2 based with accepts | ⟨has, _⟩
      · cases answered with
        | accepted rule said entry stored =>
          change row.lazyReadiness.map LazyState.key = some r.key
          rw [stored]
          rfl
        | duplicate rule said | superseded rule said =>
          rw [rule] at accepts
          cases accepts
      · exact key_after_answer answered le_rfl has
    refine { holds with
      based := holds.based.answer known trails answered
      trails := ?_, flying := ?_
      landed := nofun
      worker := ⟨.inl ⟨sendOk_append outcomes _, held⟩, _, rfl⟩
      sent := ?_
      delivered := fun k found => ahead.held k (holds.delivered k found)
      started := fun e listed => ahead.held _ (holds.started e listed)
      results := fun q done => ahead.held q.key (holds.results q done) }
    · intro q tried now
      obtain ⟨rfl, _⟩ := Prod.mk.inj (Option.some.inj now)
      exact ⟨latest, known, trails⟩
    · intro greatest q found empty now
      exact holds.flying greatest q found empty ((by rw [sends]; rfl : _ = some r).trans now)
    · intro k last now arrived
      obtain ⟨rfl, _⟩ := Prod.mk.inj (Option.some.inj now)
      exact held

theorem Ended.held (ended : Ended s r outcomes) (ok : sendOk outcomes = true) : Held s r.key := by
  rcases ended with ⟨_, held⟩ | ⟨failed, _⟩
  · exact held
  · rw [ok] at failed
    cases failed

theorem Ended.lost (ended : Ended s r outcomes)
    (failed : sendOk outcomes = false) (current : s.latest = some r.key) :
    outcomes = [.lost, .lost] := by
  have present : ¬ Overtaken s r.key := by
    rintro ⟨latest, known, less⟩
    exact less.ne (Option.some.inj (current.symm.trans known))
  rcases ended with ⟨ok, _⟩ | ⟨_, failing, short⟩
  · rw [ok] at failed
    cases failed
  · have two : outcomes.length = 2 := short.resolve_right present
    have lost (outcome : Outcome) (listed : outcome ∈ outcomes) : outcome = .lost :=
      (failing outcome listed).resolve_right (fun other => present other.2)
    rw [eq_replicate_of_mem lost, two]
    rfl

theorem Sound.restart (holds : Sound s) {pidGeneration : ℕ}
    (orderly : Orderly s (.restart pidGeneration)) :
    Sound { s with
      row := hydrateFromState ⟨.running, w.wrapperPID, some w.wrapperStartedAt, pidGeneration⟩
      accepted := [] } := by
  have idle (latest : Key) (known : s.latest = some latest) :
      s.row.key ≠ some latest ∧ ¬ 1 < latest.rank := by
    rcases orderly with nothing | some_
    · refine ⟨fun has => ?_, fun second => ?_⟩
      · obtain ⟨held, found, _⟩ := Option.map_eq_some_iff.mp has
        rw [nothing] at found
        cases found
      · obtain ⟨held, found, _⟩ := holds.based.base latest known second
        rw [nothing] at found
        cases found
    · obtain ⟨greatest, found, both⟩ := (Option.any_eq_true _ _).mp some_
      obtain rfl : latest = greatest := Option.some.inj (known.symm.trans found)
      obtain ⟨first, other⟩ := of_decide_eq_true both
      exact ⟨other, by omega⟩
  let t : System := { s with
    row := hydrateFromState ⟨.running, w.wrapperPID, some w.wrapperStartedAt, pidGeneration⟩
    accepted := [] }
  have ahead : Advances s t := advances_of (fun latest known =>
    ⟨latest, known, .inr ⟨rfl, fun has => absurd has (idle latest known).1⟩⟩)
  exact { holds with
    based := ⟨nofun,
      fun greatest known second => absurd second (idle greatest known).2⟩
    worker := holds.worker.advance ahead rfl
    sent := fun k outcome last arrived => ahead.held k (holds.sent k outcome last arrived)
    delivered := fun k found => ahead.held k (holds.delivered k found)
    started := fun e listed => ahead.held _ (holds.started e listed)
    results := fun q done => ahead.held q.key (holds.results q done) }

theorem Sound.turn (holds : Sound s) {before worker : Worker} (sends : s.worker = before)
    (same : worker.send = before.send) (inFlight : worker.inFlight = before.inFlight)
    (sound : WorkerSound s worker) : Sound { s with worker := worker } := by
  subst sends
  refine { holds with trails := ?_, flying := ?_, landed := ?_, worker := sound }
  · exact fun q tried now => holds.trails q tried (same.symm.trans now)
  · exact fun latest q known empty now => holds.flying latest q known empty (inFlight.symm.trans now)
  · exact fun latest known empty now => holds.landed latest known empty (inFlight.symm.trans now)

theorem Sound.leave (holds : Sound s) (c : ℕ) : Sound { s with callers := s.callers.erase c } :=
  { holds with
    waiters := fun d other found => holds.waiters d other (lookup_erase_cases found).2 }

theorem sound_start (starts : Starts w s) : Sound s := by
  obtain ⟨prior, rfl⟩ := starts
  constructor
  case based => exact ⟨nofun, nofun⟩
  case worker => trivial
  all_goals exact nofun

theorem sound_step {action : Action} (wired : Wired w s)
    (holds : Sound s) (conforms : Conforms s action) (moved : step w s action = some t) :
    Sound t := by
  have worker := holds.worker
  cases step_moved moved with
  | invalid => exact holds
  | publish made valid =>
    obtain ⟨admits, waits⟩ := admits_of_conforms holds made valid conforms
    exact holds.post wired.slot _ admits waits
  | @wake c waiter ok waits done =>
    refine (holds.leave c).returns (fun good => ?_)
    rw [good] at done
    rw [holds.waiters c waiter waits]
    exact holds.results waiter.request done
  | timeout => exact (holds.leave _).returns nofun
  | @take r rests waits =>
    have known : s.latest = some r.key := wired.slot r waits
    refine { holds with trails := ?_, flying := ?_, landed := ?_, worker := ?_ }
    · intro q tried now
      obtain ⟨rfl, _⟩ := Prod.mk.inj (Option.some.inj now)
      exact ⟨r.key, known, le_rfl, fun _ _ => rfl⟩
    · intro latest q found _ now
      obtain rfl : r = q := Option.some.inj now
      exact Option.some.inj (known.symm.trans found)
    · exact nofun
    · exact ⟨nofun, Nat.succ_pos 1⟩
  | commit sends => exact Sound.commit wired holds sends _
  | retry failed current short =>
    rw [failed] at worker
    exact holds.turn failed rfl rfl ⟨worker.1, short⟩
  | @giveUp r outcomes failed outlived =>
    rw [failed] at worker
    obtain ⟨failing, atMost, last⟩ := worker
    refine holds.turn failed rfl rfl ⟨.inr ⟨?_, failing, ?_⟩, last⟩
    · cases final : outcomes.getLast? with
      | none => rw [sendOk, final]; rfl
      | some outcome =>
        rw [sendOk, final]
        rcases failing outcome (mem_of_getLast? final) with rfl | ⟨bad, _⟩
        · rfl
        · exact bad
    · rcases outlived with other | two
      · obtain ⟨latest, known, trails⟩ := holds.trails r outcomes (by rw [failed]; rfl)
        refine .inr ⟨latest, known, lt_of_le_of_ne trails.1 ?_⟩
        rintro rfl
        exact other known
      · exact .inl (le_antisymm atMost two)
  | @land r outcomes delivered fatal sent kept alarm =>
    rw [sent] at worker
    obtain ⟨ended, last⟩ := worker
    refine { holds with trails := ?_, flying := ?_, landed := ?_, worker := ⟨ended, alarm⟩, delivered := ?_ }
    · exact fun q tried now => holds.trails q tried ((by rw [sent]; rfl : _ = some _).trans now)
    · exact nofun
    · intro latest known empty _
      have same : r.key = latest := holds.flying latest r known empty (by rw [sent]; rfl)
      exact same ▸ last
    · intro k now
      rcases kept with unchanged | ⟨ok, new⟩
      · exact holds.delivered k (unchanged.symm.trans now)
      · obtain rfl : r.key = k := Option.some.inj (new.symm.trans now)
        exact ended.held ok
  | @signal r outcomes ends current =>
    rw [ends] at worker
    have turned : Sound { s with worker := .finishing r outcomes false } :=
      holds.turn ends rfl rfl ⟨worker.1, nofun⟩
    refine { turned with fatals := ?_ }
    intro other listed
    rcases mem_cons.mp listed with rfl | earlier
    · exact worker.1.lost (worker.2 rfl) current
    · exact holds.fatals other earlier
  | silent ends =>
    rw [ends] at worker
    exact holds.turn ends rfl rfl ⟨worker.1, nofun⟩
  | @complete r outcomes ends =>
    rw [ends] at worker
    have idle : Sound { s with worker := .waiting } := { holds with
      trails := nofun
      flying := nofun
      landed := fun latest known empty _ =>
        holds.landed latest known empty (by rw [ends]; rfl)
      worker := trivial }
    exact idle.complete worker.1.held
  | restart spawned => exact holds.restart conforms.2

theorem sound_reachable (reached : Reachable (Starts w) (step w) Conforms s) : Sound s := by
  have preserve (a : System) (action : Action) (b : System) (holds : Wired w a ∧ Sound a)
      (conforms : Conforms a action) (moved : step w a action = some b) : Wired w b ∧ Sound b :=
    ⟨wired_step holds.1 moved, sound_step holds.1 holds.2 conforms moved⟩
  exact (reached.invariant (fun _ starts => ⟨wired_start starts, sound_start starts⟩) preserve).2

theorem Sound.agrees (holds : Sound s) (empty : s.pending = none)
    (landed : s.worker.inFlight = none) (arrived : s.lastSent.map Prod.snd ≠ some .lost)
    (greatest : IsGreatest {key | key ∈ s.published} k) : s.row.key = some k := by
  obtain ⟨latest, known, above⟩ := holds.published k greatest.1
  obtain rfl : k = latest := le_antisymm above (greatest.2 (holds.greatest latest known))
  obtain ⟨outcome, last⟩ := holds.landed k known empty landed
  have reached : outcome ≠ .lost := by
    rintro rfl
    exact arrived (by rw [last]; rfl)
  obtain ⟨other, found, less | ⟨_, has⟩⟩ := holds.sent k outcome last reached
  · obtain rfl : k = other := Option.some.inj (known.symm.trans found)
    exact absurd less (lt_irrefl k)
  · obtain rfl : k = other := Option.some.inj (known.symm.trans found)
    exact has

/-- The accepted states of one lifetime strictly increase. In a run whose steps all conform, a
publisher at rest whose last attempt arrived has its greatest state in the row, and a fatal signal
follows two lost attempts. -/
theorem readiness_protocol (w : Wrapper) :
    (∀ s, Reachable (Starts w) (step w) ReadyAfterStarting s → s.accepted.Pairwise (· < ·)) ∧
    ∀ s, Reachable (Starts w) (step w) Conforms s →
      (s.pending = none → s.worker.inFlight = none → s.lastSent.map Prod.snd ≠ some .lost →
        ∀ k, IsGreatest {key | key ∈ s.published} k → s.row.key = some k) ∧
      ∀ outcomes ∈ s.fatals, outcomes = [.lost, .lost] := by
  constructor
  · intro s reached
    exact (wired_reachable reached).increasing
  · intro s reached
    have holds : Sound s := sound_reachable reached
    exact ⟨fun empty landed arrived k greatest => holds.agrees empty landed arrived greatest,
      holds.fatals⟩

def goWrapper : Wrapper where
  taskName := "\\mcp-local-hub-lsp-0123abcd-go"
  wrapperPID := 40
  wrapperStartedAt := 7
  lazyProxy := by decide +kernel
  process := by decide

def goStart : System :=
  { row := { entry := (markSpawned none goWrapper.wrapperPID goWrapper.wrapperStartedAt).1 } }

def startAcknowledged : List Action :=
  [.publish 0 1 .starting (-1) 8, .take, .commit false, .land, .complete, .wake 0]

theorem readiness_protocol_idle :
    ∃ s, Reachable (Starts goWrapper) (step goWrapper) Conforms s ∧ s.published.length = 3 ∧
      s.row.key = some ⟨2, 3⟩ := by
  obtain ⟨s, reached, empty, landed, arrived, listed⟩ : ∃ s,
      Reachable (Starts goWrapper) (step goWrapper) Conforms s ∧ s.pending = none ∧
      s.worker.inFlight = none ∧ s.lastSent.map Prod.snd ≠ some .lost ∧
      s.published = [⟨2, 3⟩, ⟨1, 2⟩, ⟨1, 1⟩] :=
    exists_reachable_under _ goStart (startAcknowledged ++
      [.publish 0 1 .ready 5 9, .take, .commit false, .land, .complete, .wake 0,
        .publish 0 2 .idle 0 10, .take, .commit true, .check, .commit false, .land, .complete])
      ⟨none, rfl⟩ (by decide +kernel)
  have greatest : IsGreatest {key | key ∈ s.published} ⟨2, 3⟩ := by
    rw [listed]
    have below : ∀ k ∈ ([⟨2, 3⟩, ⟨1, 2⟩, ⟨1, 1⟩] : List Key), k ≤ ⟨2, 3⟩ := by decide
    exact ⟨mem_cons_self, fun k among => below k among⟩
  exact ⟨s, reached, by rw [listed]; rfl,
    ((readiness_protocol goWrapper).2 s reached).1 empty landed arrived _ greatest⟩

/-- After an acknowledged start the supervisor restarts and has no state for the task. When the
backend goes idle, both attempts are rejected, and the wrapper is given up. -/
theorem restarted_supervisor_gives_up_wrapper :
    (∃ s, Reachable (Starts goWrapper) (step goWrapper) ReadyAfterStarting s ∧ s.pending = none ∧
      s.worker.inFlight = none ∧ s.lastSent = some (⟨1, 1⟩, .answered .accepted) ∧
      IsGreatest {key | key ∈ s.published} ⟨1, 1⟩ ∧ s.row.key = none) ∧
    ∃ s, Reachable (Starts goWrapper) (step goWrapper) ReadyAfterStarting s ∧
      s.fatals = [[.refused .transitionRejected, .refused .transitionRejected]] := by
  constructor
  · obtain ⟨s, reached, empty, landed, last, listed, gone⟩ : ∃ s,
        Reachable (Starts goWrapper) (step goWrapper) ReadyAfterStarting s ∧ s.pending = none ∧
        s.worker.inFlight = none ∧ s.lastSent = some (⟨1, 1⟩, .answered .accepted) ∧
        s.published = [⟨1, 1⟩] ∧ s.row.key = none :=
      exists_reachable_under _ goStart (startAcknowledged ++ [.restart 1]) ⟨none, rfl⟩
        (by decide +kernel)
    refine ⟨s, reached, empty, landed, last, ?_, gone⟩
    rw [listed]
    exact ⟨mem_cons_self, fun k among => (mem_singleton.mp among).le⟩
  · exact exists_reachable_under _ goStart (startAcknowledged ++
      [.restart 1, .publish 0 2 .idle 0 10, .take, .commit false, .check, .commit false, .check,
        .land, .signal]) ⟨none, rfl⟩ (by decide +kernel)

end McpLocalHub.Daemon.ReadinessPublisher
