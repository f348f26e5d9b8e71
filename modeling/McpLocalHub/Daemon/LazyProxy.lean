/- Module: Daemon/LazyProxy
   source: internal/daemon/lazy_proxy.go, internal/daemon/inflight.go
   digest: The callers, flights and teardowns of one lazy proxy, interleaved at its locks. -/

import McpLocalHub.Foundation.Maps
import McpLocalHub.Foundation.Runs

set_option autoImplicit false

namespace McpLocalHub.Daemon.LazyProxy

open Foundation.Maps Foundation.Runs

inductive Caller
  | missed
  | rechecked
  | reserved
  | joined (flight : ℕ)
  deriving DecidableEq

/-- Where a flight stands: the function that the gate runs, and `publishMaterializedEndpoint` in it. -/
inductive Flight
  | registered
  | started
  | looked
  | materialized (host : ℕ)
  /-- It waits, unlocked, for the readiness state of this generation to be acknowledged. -/
  | awaiting (host epoch : ℕ)
  | rejecting
  | forgetting
  | returning (ok : Bool)
  deriving DecidableEq

/-- Where a teardown stands; `idle` marks the one that keeps the gate when the stop fails. -/
inductive Teardown
  | verifying
  | stopping (idle : Bool)
  | forgetting
  | ending
  deriving DecidableEq

/-- The proxy, its gate and the host that its lifecycle runs. `p.reaping` is set exactly while a
teardown is under way. -/
structure Proxy where
  endpoint : Option ℕ := none
  endpointGeneration : ℕ := 0
  warmed : Bool := false
  startingSince : Bool := false
  teardown : Option Teardown := none
  key : Option ℕ := none
  lastFailure : Bool := false
  callers : Map ℕ Caller := ∅
  flights : Map ℕ Flight := ∅
  host : Option ℕ := none
  nextHost : ℕ := 0

def Proxy.reaping (p : Proxy) : Bool := p.teardown.isSome

def Flight.active : Flight → Bool
  | .registered => false
  | _ => true

def Proxy.hasActiveFlight (p : Proxy) : Bool := decide (count Flight.active p.flights ≠ 0)

def Proxy.putCaller (p : Proxy) (c : ℕ) (stage : Caller) : Proxy :=
  { p with callers := p.callers.insert c stage }

def Proxy.endCaller (p : Proxy) (c : ℕ) : Proxy := { p with callers := p.callers.erase c }

def Proxy.putFlight (p : Proxy) (f : ℕ) (stage : Flight) : Proxy :=
  { p with flights := p.flights.insert f stage }

inductive CallerAction
  | recheck
  | reserve (granted : Bool)
  /-- `DoBounded`: a recent failure is answered from the cache, a running flight is joined, or this
  one is started. -/
  | enter (flight : ℕ) (throttled : Bool)
  | leave
  deriving DecidableEq

def call (p : Proxy) (c : ℕ) : Option Proxy :=
  if (p.callers.lookup c).isSome then none
  else if p.endpoint.isSome then some p
  else if p.reaping then none
  else some (p.putCaller c .missed)

def callerStep (p : Proxy) (c : ℕ) : Caller → CallerAction → Option Proxy
  | .missed, .recheck =>
    some (if p.endpoint.isSome then p.endCaller c else p.putCaller c .rechecked)
  | .rechecked, .reserve granted =>
    some (if granted then
      { p with startingSince := p.startingSince || p.endpoint.isNone }.putCaller c .reserved
    else p.endCaller c)
  | .reserved, .enter f throttled =>
    if throttled then if p.lastFailure then some (p.endCaller c) else none
    else
      match p.key with
      | some g => some (p.putCaller c (.joined g))
      | none =>
        if (p.flights.lookup f).isSome then none
        else some ({ p with key := some f }.putFlight f .registered |>.putCaller c (.joined f))
  | .joined _, .leave => some (p.endCaller c)
  | _, _ => none

inductive FlightAction
  | begin
  | look (throttled : Bool)
  | materialize (ok : Bool)
  | publish
  | ready (ok : Bool)
  | stop
  | forget
  | finish
  deriving DecidableEq

def materialize (p : Proxy) : ℕ × Proxy :=
  match p.host with
  | some h => (h, p)
  | none => (p.nextHost, { p with host := some p.nextHost, nextHost := p.nextHost + 1 })

def stop (p : Proxy) : Proxy := { p with host := none }

def forget (p : Proxy) : Proxy := { p with key := none, lastFailure := false }

def publish (p : Proxy) (f h : ℕ) : Proxy :=
  if p.reaping then { p with startingSince := false }.putFlight f .rejecting
  else if p.endpoint.isSome then p.putFlight f (.returning true)
  else
    let epoch := p.endpointGeneration + 1
    { p with endpointGeneration := epoch, warmed := false }.putFlight f (.awaiting h epoch)

def afterReadiness (p : Proxy) (f h epoch : ℕ) (ok : Bool) : Proxy :=
  if !ok then
    { p with startingSince := p.startingSince && decide (p.endpointGeneration ≠ epoch) }.putFlight f
      .rejecting
  else if p.reaping = true ∨ p.endpointGeneration ≠ epoch ∨ p.endpoint.isSome = true then
    { p with startingSince := false }.putFlight f .rejecting
  else { p with endpoint := some h, startingSince := false }.putFlight f (.returning true)

/-- The gate's function returns: the result is recorded, and the key given back if it is still the
flight's own. -/
def finish (p : Proxy) (f : ℕ) (ok : Bool) : Proxy :=
  { p with
    flights := p.flights.erase f
    key := if p.key = some f then none else p.key
    lastFailure := !ok }

def flightStep (p : Proxy) (f : ℕ) : Flight → FlightAction → Option Proxy
  | .registered, .begin => some (p.putFlight f .started)
  | .started, .look throttled =>
    if throttled then if p.lastFailure then some (p.putFlight f (.returning false)) else none
    else some (p.putFlight f (if p.endpoint.isSome then .returning true else .looked))
  | .looked, .materialize ok =>
    some (if ok then (materialize p).2.putFlight f (.materialized (materialize p).1)
    else p.putFlight f (.returning false))
  | .materialized h, .publish => some (publish p f h)
  | .awaiting h epoch, .ready ok => some (afterReadiness p f h epoch ok)
  | .rejecting, .stop => some ((stop p).putFlight f .forgetting)
  | .forgetting, .forget => some ((forget p).putFlight f (.returning false))
  | .returning ok, .finish => some (finish p f ok)
  | _, _ => none

inductive RowState
  | unreadable | advanced | starting
  deriving DecidableEq

inductive TeardownAction
  | verify (row : RowState)
  | stop (ok : Bool)
  | forget
  | finish
  deriving DecidableEq

def takeEndpoint (p : Proxy) (idle : Bool) : Proxy :=
  { p with
    endpoint := none
    endpointGeneration := p.endpointGeneration + 1
    warmed := false
    startingSince := false
    teardown := some (.stopping idle) }

def reapIdleBackend (p : Proxy) : Proxy :=
  if p.endpoint.isNone = true ∨ p.reaping = true then p else takeEndpoint p true

def reapWedgedProbation (p : Proxy) : Proxy :=
  if p.reaping then p
  else if p.endpoint.isSome then if p.warmed then p else takeEndpoint p false
  else if p.startingSince = false ∨ p.hasActiveFlight = true then p
  else { p with teardown := some .verifying }

def onSendFailure (p : Proxy) (generation : ℕ) : Proxy :=
  if p.reaping = true ∨ p.endpointGeneration ≠ generation then p else takeEndpoint p false

def teardownStep (p : Proxy) : Teardown → TeardownAction → Option Proxy
  | .verifying, .verify .unreadable => some { p with teardown := none }
  | .verifying, .verify .advanced => some { p with startingSince := false, teardown := none }
  | .verifying, .verify .starting =>
    some { p with
      startingSince := false
      endpointGeneration := p.endpointGeneration + 1
      teardown := some (.stopping false) }
  | .stopping idle, .stop ok =>
    some { stop p with teardown := some (if idle && !ok then .ending else .forgetting) }
  | .forgetting, .forget => some { forget p with teardown := some .ending }
  | .ending, .finish => some { p with teardown := none }
  | _, _ => none

def markWarmedOnFirstSuccess (p : Proxy) (generation : ℕ) : Proxy :=
  if p.endpoint.isNone = true ∨ p.endpointGeneration ≠ generation then p
  else { p with warmed := true }

inductive Action
  | call (c : ℕ)
  | caller (c : ℕ) (action : CallerAction)
  | flight (f : ℕ) (action : FlightAction)
  | idle
  | probation
  | failure (generation : ℕ)
  | teardown (action : TeardownAction)
  | warm (generation : ℕ)

def step (p : Proxy) : Action → Option Proxy
  | .call c => call p c
  | .caller c action => (p.callers.lookup c).bind (fun stage => callerStep p c stage action)
  | .flight f action => (p.flights.lookup f).bind (fun stage => flightStep p f stage action)
  | .idle => some (reapIdleBackend p)
  | .probation => some (reapWedgedProbation p)
  | .failure generation => some (onSendFailure p generation)
  | .teardown action => p.teardown.bind (fun stage => teardownStep p stage action)
  | .warm generation => some (markWarmedOnFirstSuccess p generation)

def Started (p : Proxy) : Prop := p = {}

def Action.stops : Action → Bool
  | .flight _ .stop | .teardown (.stop _) => true
  | _ => false

def Flight.busy : Flight → Bool
  | .returning _ => false
  | _ => true

/-- A caller starts a flight only while no other one runs. -/
def FlightsInTurn (p : Proxy) : Action → Prop
  | .caller _ (.enter _ _) => p.key = none → count Flight.busy p.flights = 0
  | _ => True

instance (p : Proxy) (action : Action) : Decidable (FlightsInTurn p action) := by
  unfold FlightsInTurn
  split <;> infer_instance

def Flight.committed : Flight → Bool
  | .looked | .materialized _ | .awaiting _ _ | .rejecting | .forgetting => true
  | .registered | .started | .returning _ => false

inductive Effect (p q : Proxy) : Action → Prop
  | aside {action : Action} (flights : q.flights = p.flights) (endpoint : q.endpoint = p.endpoint)
      (reaping : q.reaping = true → p.reaping = true ∨ p.endpoint = none) : Effect p q action
  | taken {action : Action} (flights : q.flights = p.flights) (endpoint : q.endpoint = none) :
      Effect p q action
  | launched {c f : ℕ} {throttled : Bool} (free : p.key = none)
      (flights : q.flights = p.flights.insert f .registered) (endpoint : q.endpoint = p.endpoint)
      (reaping : q.reaping = p.reaping) : Effect p q (.caller c (.enter f throttled))
  | moved {action : Action} {f : ℕ} {a b : Flight} (found : p.flights.lookup f = some a)
      (busy : a.busy = true) (flights : q.flights = p.flights.insert f b)
      (endpoint : q.endpoint = p.endpoint) (reaping : q.reaping = p.reaping)
      (committed : b.committed = true → a.committed = true ∨ p.endpoint = none) : Effect p q action
  | installed {action : Action} {f : ℕ} {a : Flight} (found : p.flights.lookup f = some a)
      (busy : a.busy = true) (flights : q.flights = p.flights.insert f (.returning true))
      (idle : p.reaping = false) (reaping : q.reaping = p.reaping) : Effect p q action
  | returned {action : Action} {f : ℕ} (flights : q.flights = p.flights.erase f)
      (endpoint : q.endpoint = p.endpoint) (reaping : q.reaping = p.reaping) : Effect p q action

abbrev Moves (p q : Proxy) (action : Action) : Prop :=
  p.endpointGeneration ≤ q.endpointGeneration ∧ Effect p q action

variable {p q : Proxy} {action : Action}

theorem callerStep_effect {c : ℕ} {stage : Caller} {action : CallerAction}
    (moved : callerStep p c stage action = some q) :
    Moves p q (.caller c action) := by
  unfold callerStep at moved
  split at moved
  · cases moved
    split_ifs <;> exact ⟨le_refl _, .aside rfl rfl .inl⟩
  · cases moved
    split_ifs <;> exact ⟨le_refl _, .aside rfl rfl .inl⟩
  · rename_i f throttled
    cases throttled with
    | true =>
      rw [if_pos rfl] at moved
      split_ifs at moved
      cases moved
      exact ⟨le_refl _, .aside rfl rfl .inl⟩
    | false =>
      rw [if_neg Bool.false_ne_true] at moved
      cases free : p.key with
      | some g =>
        rw [free] at moved
        cases moved
        exact ⟨le_refl _, .aside rfl rfl .inl⟩
      | none =>
        rw [free] at moved
        split_ifs at moved
        cases moved
        exact ⟨le_refl _, .launched free rfl rfl rfl⟩
  · cases moved
    exact ⟨le_refl _, .aside rfl rfl .inl⟩
  · cases moved

theorem materialize_frame (p : Proxy) :
    (materialize p).2.endpointGeneration = p.endpointGeneration ∧
      (materialize p).2.flights = p.flights ∧ (materialize p).2.endpoint = p.endpoint ∧
      (materialize p).2.teardown = p.teardown := by
  unfold materialize
  split <;> exact ⟨rfl, rfl, rfl, rfl⟩

section Flights

variable {p : Proxy} {f : ℕ}

theorem publish_effect {h : ℕ} (action : Action)
    (found : p.flights.lookup f = some (.materialized h)) :
    Moves p (publish p f h) action := by
  unfold publish
  split_ifs
  · exact ⟨le_refl _, .moved found rfl rfl rfl rfl (fun _ => .inl rfl)⟩
  · exact ⟨le_refl _, .moved found rfl rfl rfl rfl nofun⟩
  · exact ⟨Nat.le_succ _, .moved found rfl rfl rfl rfl (fun _ => .inl rfl)⟩

theorem afterReadiness_effect {h epoch : ℕ} (ok : Bool) (action : Action)
    (found : p.flights.lookup f = some (.awaiting h epoch)) :
    Moves p (afterReadiness p f h epoch ok) action := by
  unfold afterReadiness
  split_ifs with failed refused
  · exact ⟨le_refl _, .moved found rfl rfl rfl rfl (fun _ => .inl rfl)⟩
  · exact ⟨le_refl _, .moved found rfl rfl rfl rfl (fun _ => .inl rfl)⟩
  · have idle : p.reaping = false := by
      rw [← Bool.not_eq_true]
      exact fun reaping => refused (.inl reaping)
    exact ⟨le_refl _, .installed found rfl rfl idle rfl⟩

theorem flightStep_effect {q : Proxy} {stage : Flight} {action : FlightAction}
    (found : p.flights.lookup f = some stage) (moved : flightStep p f stage action = some q) :
    Moves p q (.flight f action) := by
  unfold flightStep at moved
  split at moved
  · cases moved
    exact ⟨le_refl _, .moved found rfl rfl rfl rfl nofun⟩
  · split_ifs at moved with throttled failed present
    · cases moved
      exact ⟨le_refl _, .moved found rfl rfl rfl rfl nofun⟩
    · cases moved
      exact ⟨le_refl _, .moved found rfl rfl rfl rfl nofun⟩
    · cases moved
      have absent : p.endpoint = none := by simpa using present
      exact ⟨le_refl _, .moved found rfl rfl rfl rfl (fun _ => .inr absent)⟩
  · cases moved
    split_ifs
    · obtain ⟨generation, flights, endpoint, teardown⟩ := materialize_frame p
      have rows : ((materialize p).2.putFlight f (.materialized (materialize p).1)).flights =
          p.flights.insert f (.materialized (materialize p).1) := by
        unfold Proxy.putFlight
        rw [flights]
      have reaping : ((materialize p).2.putFlight f (.materialized (materialize p).1)).reaping =
          p.reaping := congrArg Option.isSome teardown
      exact ⟨le_of_eq generation.symm, .moved found rfl rows endpoint reaping (fun _ => .inl rfl)⟩
    · exact ⟨le_refl _, .moved found rfl rfl rfl rfl nofun⟩
  · exact Option.some.inj moved ▸ publish_effect _ found
  · exact Option.some.inj moved ▸ afterReadiness_effect _ _ found
  · cases moved
    exact ⟨le_refl _, .moved found rfl rfl rfl rfl (fun _ => .inl rfl)⟩
  · cases moved
    exact ⟨le_refl _, .moved found rfl rfl rfl rfl nofun⟩
  · cases moved
    exact ⟨le_refl _, .returned rfl rfl rfl⟩
  · cases moved

end Flights

theorem takeEndpoint_effect (p : Proxy) (idle : Bool) (action : Action) :
    Moves p (takeEndpoint p idle) action :=
  ⟨Nat.le_succ _, .taken rfl rfl⟩

theorem unchanged_effect (p : Proxy) (action : Action) : Moves p p action :=
  ⟨le_refl _, .aside rfl rfl .inl⟩

theorem teardownStep_effect {stage : Teardown} {action : TeardownAction}
    (found : p.teardown = some stage) (moved : teardownStep p stage action = some q) :
    Moves p q (.teardown action) := by
  have reaping : p.reaping = true := congrArg Option.isSome found
  have aside {q : Proxy} (flights : q.flights = p.flights) (endpoint : q.endpoint = p.endpoint) :
      Effect p q (.teardown action) := .aside flights endpoint (fun _ => .inl reaping)
  unfold teardownStep at moved
  split at moved <;> cases moved
  case h_3 => exact ⟨Nat.le_succ _, aside rfl rfl⟩
  all_goals exact ⟨le_refl _, aside rfl rfl⟩

theorem step_effect (moved : step p action = some q) : Moves p q action := by
  cases action with
  | call c =>
    change call p c = some q at moved
    unfold call at moved
    split_ifs at moved
    · exact Option.some.inj moved ▸ unchanged_effect p _
    · exact Option.some.inj moved ▸ ⟨le_refl _, .aside rfl rfl .inl⟩
  | caller c action =>
    obtain ⟨stage, _, moved⟩ := Option.bind_eq_some_iff.mp moved
    exact callerStep_effect moved
  | flight f action =>
    obtain ⟨stage, found, moved⟩ := Option.bind_eq_some_iff.mp moved
    exact flightStep_effect found moved
  | idle =>
    cases moved
    unfold reapIdleBackend
    split_ifs
    · exact unchanged_effect p _
    · exact takeEndpoint_effect p _ _
  | probation =>
    cases moved
    unfold reapWedgedProbation
    split_ifs with reaping present warmed orphan
    · exact unchanged_effect p _
    · exact unchanged_effect p _
    · exact takeEndpoint_effect p _ _
    · exact unchanged_effect p _
    · exact ⟨le_refl _, .aside rfl rfl (fun _ => .inr (by simpa using present))⟩
  | failure generation =>
    cases moved
    unfold onSendFailure
    split_ifs
    · exact unchanged_effect p _
    · exact takeEndpoint_effect p _ _
  | teardown action =>
    obtain ⟨stage, found, moved⟩ := Option.bind_eq_some_iff.mp moved
    exact teardownStep_effect found moved
  | warm generation =>
    cases moved
    unfold markWarmedOnFirstSuccess
    split_ifs
    · exact unchanged_effect p _
    · exact ⟨le_refl _, .aside rfl rfl .inl⟩

theorem stops_by (stops : action.stops = true) (moved : step p action = some q) :
    (∃ f, p.flights.lookup f = some .rejecting) ∨ p.reaping = true := by
  unfold Action.stops at stops
  split at stops
  · rename_i f
    obtain ⟨stage, found, moved⟩ := Option.bind_eq_some_iff.mp moved
    cases stage with
    | rejecting => exact .inl ⟨f, found⟩
    | _ => cases moved
  · obtain ⟨stage, found, moved⟩ := Option.bind_eq_some_iff.mp moved
    exact .inr (congrArg Option.isSome found)
  · cases stops

/-- One flight runs at a time, and nothing is installed while it acts on having found nothing or
during a teardown. -/
structure Guarded (p : Proxy) : Prop where
  single : ∀ f g a b, p.flights.lookup f = some a → p.flights.lookup g = some b →
    a.busy = true → b.busy = true → f = g
  committed : ∀ f a, p.flights.lookup f = some a → a.committed = true → p.endpoint = none
  reaped : p.reaping = true → p.endpoint = none

theorem Started.guarded (started : Started p) : Guarded p := by
  subst started
  exact ⟨nofun, nofun, nofun⟩

theorem Flight.busy_of_committed {a : Flight} (committed : a.committed = true) : a.busy = true := by
  cases a <;> first | rfl | cases committed

theorem Guarded.move {f : ℕ} {a b : Flight} (guarded : Guarded p)
    (found : p.flights.lookup f = some a) (busy : a.busy = true)
    (flights : q.flights = p.flights.insert f b)
    (committed : b.committed = true → q.endpoint = none)
    (reaped : q.reaping = true → q.endpoint = none) : Guarded q := by
  have alone (g : ℕ) (c : Flight) (there : p.flights.lookup g = some c) (other : c.busy = true) :
      g = f := guarded.single g f c a there found other busy
  refine ⟨?_, ?_, reaped⟩
  · intro g g' c c' here here' busyHere busyHere'
    rw [flights] at here here'
    have isF (k : ℕ) (d : Flight) (hit : (p.flights.insert f b).lookup k = some d)
        (running : d.busy = true) : k = f := by
      rcases lookup_insert_cases hit with ⟨same, _⟩ | ⟨_, there⟩
      · exact same
      · exact alone k d there running
    rw [isF g c here busyHere, isF g' c' here' busyHere']
  · intro g c here acts
    rw [flights] at here
    rcases lookup_insert_cases here with ⟨_, rfl⟩ | ⟨differs, there⟩
    · exact committed acts
    · exact absurd (alone g c there (Flight.busy_of_committed acts)) differs

theorem step_guarded (guarded : Guarded p)
    (inTurn : FlightsInTurn p action) (moved : step p action = some q) : Guarded q := by
  cases (step_effect moved).2 with
  | aside flights endpoint reaping =>
    refine ⟨flights ▸ guarded.single, ?_, ?_⟩
    · rw [flights, endpoint]
      exact guarded.committed
    · intro reaps
      rw [endpoint]
      rcases reaping reaps with before | absent
      · exact guarded.reaped before
      · exact absent
  | taken flights endpoint =>
    exact ⟨flights ▸ guarded.single, fun _ _ _ _ => endpoint, fun _ => endpoint⟩
  | @launched c f throttled free flights endpoint reaping =>
    have none : count Flight.busy p.flights = 0 := inTurn free
    have quiet (g : ℕ) (a : Flight) (there : p.flights.lookup g = some a) : a.busy ≠ true := by
      intro busy
      have positive : 0 < count Flight.busy p.flights := count_pos there busy
      omega
    refine ⟨?_, ?_, ?_⟩
    · intro g g' a b here here' busy busy'
      rw [flights] at here here'
      rcases lookup_insert_cases here with ⟨rfl, _⟩ | ⟨_, there⟩
      · rcases lookup_insert_cases here' with ⟨rfl, _⟩ | ⟨_, there'⟩
        · rfl
        · exact absurd busy' (quiet g' b there')
      · exact absurd busy (quiet g a there)
    · intro g a here acts
      rw [flights] at here
      rcases lookup_insert_cases here with ⟨_, rfl⟩ | ⟨_, there⟩
      · cases acts
      · exact absurd (Flight.busy_of_committed acts) (quiet g a there)
    · rw [reaping, endpoint]
      exact guarded.reaped
  | @moved _ f a b found busy flights endpoint reaping committed =>
    apply guarded.move found busy flights
    · intro acts
      rw [endpoint]
      rcases committed acts with before | absent
      · exact guarded.committed f a found before
      · exact absent
    · rw [reaping, endpoint]
      exact guarded.reaped
  | installed found busy flights idle reaping =>
    apply guarded.move found busy flights
    · exact nofun
    · intro reaps
      rw [reaping, idle] at reaps
      cases reaps
  | returned flights endpoint reaping =>
    refine ⟨?_, ?_, ?_⟩
    · intro g g' a b here here'
      rw [flights] at here here'
      exact guarded.single g g' a b (lookup_erase_cases here).2 (lookup_erase_cases here').2
    · intro g a here
      rw [flights] at here
      rw [endpoint]
      exact guarded.committed g a (lookup_erase_cases here).2
    · rw [reaping, endpoint]
      exact guarded.reaped

theorem guarded_of_reachable (reached : Reachable Started step FlightsInTurn p) : Guarded p :=
  reached.invariant (fun _ started => started.guarded)
    (fun _ _ _ guarded inTurn moved => step_guarded guarded inTurn moved)

/-- Where flights do not overlap, no stop is called while an endpoint is installed; and the
generation never decreases. -/
theorem published_endpoint_outlives_other_flights (p q : Proxy) (action : Action)
    (moved : step p action = some q) :
    (Reachable Started step FlightsInTurn p → action.stops = true → p.endpoint = none) ∧
      p.endpointGeneration ≤ q.endpointGeneration := by
  refine ⟨?_, (step_effect moved).1⟩
  intro reached stops
  have guarded : Guarded p := guarded_of_reachable reached
  rcases stops_by stops moved with ⟨f, rejecting⟩ | reaping
  · exact guarded.committed f .rejecting rejecting rfl
  · exact guarded.reaped reaping

def launch (c f : ℕ) : List Action :=
  [.call c, .caller c .recheck, .caller c (.reserve true), .caller c (.enter f false),
    .flight f .begin, .flight f (.look false), .flight f (.materialize true), .flight f .publish]

def publishThenReap : List Action :=
  launch 0 0 ++ [.flight 0 (.ready true), .flight 0 .finish, .caller 0 .leave, .idle,
    .teardown (.stop true), .teardown .forget, .teardown .finish] ++
  launch 1 1 ++ [.flight 1 (.ready false)]

theorem refused_flight_stops_nothing_published :
    ∃ p q, Reachable Started step FlightsInTurn p ∧ step p (.flight 1 .stop) = some q ∧
      p.host = some 1 ∧ p.endpointGeneration = 3 ∧ p.endpoint = none := by
  obtain ⟨p, reached, stopped, host, generation⟩ : ∃ p, Reachable Started step FlightsInTurn p ∧
      (step p (.flight 1 .stop)).isSome = true ∧ p.host = some 1 ∧ p.endpointGeneration = 3 :=
    exists_reachable_under _ {} publishThenReap (by rfl) (by decide +kernel)
  obtain ⟨q, moved⟩ := Option.isSome_iff_exists.mp stopped
  exact ⟨p, q, reached, moved, host, generation,
    (published_endpoint_outlives_other_flights p q (.flight 1 .stop) moved).1 reached rfl⟩

/-- The first flight's backend exits during its readiness wait, and a second flight publishes a new
host. The first one finds its generation outdated and stops the second one's host. -/
theorem outdated_flight_stops_published_host :
    ∃ p q, Reachable Started step always p ∧ step p (.flight 0 .stop) = some q ∧
      p.endpoint = some 1 ∧ p.host = some 1 ∧ q.endpoint = some 1 ∧ q.host = none := by
  obtain ⟨p, done, stopped, endpoint, host⟩ := end_of_exec step {}
    (launch 0 0 ++ [.failure 1, .teardown (.stop true), .teardown .forget, .teardown .finish] ++
      launch 1 1 ++ [.flight 1 (.ready true), .flight 0 (.ready true)])
    (fun p => (step p (.flight 0 .stop)).any
        (fun q => decide (q.endpoint = some 1 ∧ q.host = none)) = true ∧
      p.endpoint = some 1 ∧ p.host = some 1) (by decide +kernel)
  obtain ⟨q, moved, after⟩ := (Option.any_eq_true _ _).mp stopped
  obtain ⟨kept, killed⟩ := of_decide_eq_true after
  exact ⟨p, q, reachable_of_exec rfl done, moved, endpoint, host, kept, killed⟩

end McpLocalHub.Daemon.LazyProxy
