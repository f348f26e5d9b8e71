/- Module: Hub/SessionFreshness
   source: internal/api/hub_mcp_aggregator.go, internal/api/hub_mcp_session.go
   digest: A cached session id carries the restart generation of its port from before its
   handshake. -/

import McpLocalHub.Hub.CallRules
import McpLocalHub.Hub.CanonicalNumbers

set_option autoImplicit false

namespace McpLocalHub.Hub.SessionFreshness

open Foundation.Maps Foundation.Runs RequestId ToolsList Aggregator CallRules List

def After (s : State) (port gen time : ℕ) : Prop :=
  ∀ k < gen, ∃ counted, (s.restarts port)[k]? = some counted ∧ counted < time

/-- The id was minted by a handshake with the daemon, begun after the first `gen` restarts of its
port. -/
def Minted (s : State) (ref : DaemonRef) (sid : String) (gen : ℕ) : Prop :=
  ∃ h ∈ s.handshakes, h.ref = ref ∧ h.sid = sid ∧ After s ref.port gen h.began

structure Extends (s t : State) : Prop where
  restarts : ∀ port, ∃ more, t.restarts port = s.restarts port ++ more
  handshakes : ∀ h ∈ s.handshakes, h ∈ t.handshakes

variable {s t : State} {gen id : ℕ} {ref : DaemonRef} {sid : String} {flight : Flight}
  {sess : Session} {action : Action} {cache : Cache}

variable {port time flightGen : ℕ} {r : Refresh} {next : Cache} {proto : String} {key : DaemonRef}
  {call : Call} {json : JSON}

theorem Extends.handshake (s : State) (h : Handshake) :
    Extends s { s with handshakes := s.handshakes ++ [h] } :=
  ⟨fun _ => ⟨[], (append_nil _).symm⟩, fun _ listed => mem_append_left _ listed⟩

theorem After.extend (after : After s port gen time)
    (later : Extends s t) : After t port gen time := by
  intro k below
  obtain ⟨counted, recorded, early⟩ := after k below
  obtain ⟨more, continued⟩ := later.restarts port
  refine ⟨counted, ?_, early⟩
  rw [continued, List.getElem?_append_left (List.getElem?_eq_some_iff.mp recorded).1]
  exact recorded

theorem Minted.extend
    (minted : Minted s ref sid gen) (later : Extends s t) : Minted t ref sid gen := by
  obtain ⟨h, listed, sameRef, sameSid, after⟩ := minted
  exact ⟨h, later.handshakes h listed, sameRef, sameSid, after.extend later⟩

theorem Minted.weaken {lower : ℕ}
    (minted : Minted s ref sid gen) (le : lower ≤ gen) : Minted s ref sid lower := by
  obtain ⟨h, listed, sameRef, sameSid, after⟩ := minted
  exact ⟨h, listed, sameRef, sameSid, fun k below => after k (lt_of_lt_of_le below le)⟩

theorem After.le (after : After s port gen time) : gen ≤ (s.restarts port).length := by
  by_contra above
  obtain ⟨counted, recorded, _⟩ := after (s.restarts port).length (by omega)
  have inside := (List.getElem?_eq_some_iff.mp recorded).1
  omega

def FlightFresh (s : State) (flight : Flight) : Prop :=
  match flight.phase with
  | .stamped flightGen => flightGen ≤ (s.restarts flight.ref.port).length
  | .dialing flightGen began => After s flight.ref.port flightGen began
  | .minted flightGen sid _ => Minted s flight.ref sid flightGen
  | _ => True

def CallFresh (s : State) : CallPhase → Prop
  | .readGen target _ port (some state) stampGen =>
    Minted s ⟨target.ref.server, target.ref.daemon, port⟩ state.sessionID stampGen
  | _ => True

/-- The id was minted at the port, or both are the caller's own; a reused id was minted after the
restarts that it was compared with. -/
def RefreshFresh (s : State) (r : Refresh) : Prop :=
  ((∃ gen, Minted s ⟨r.caller.ref.server, r.caller.ref.daemon, r.port⟩ r.daemonSID gen) ∨
      r.daemonSID = r.caller.daemonSID ∧ r.port = r.caller.ref.port) ∧
    ∀ curGen, r.exit = .reused curGen →
      Minted s ⟨r.caller.ref.server, r.caller.ref.daemon, r.port⟩ r.daemonSID curGen

structure Freshness (s : State) : Prop where
  counted : ∀ port, (s.restarts port).length = s.generation port
  past : ∀ port, ∀ time ∈ s.restarts port, time < s.clock
  flights : ∀ id flight, s.flights id = some flight → FlightFresh s flight
  cached : ∀ ref sid, s.cache.initSuccesses.lookup ref = some sid →
    Minted s ref sid ((s.cache.initSuccessGen.lookup ref).getD 0)
  stamps : ∀ ref gen, s.cache.initSuccessGen.lookup ref = some gen → gen ≤ s.generation ref.port
  unborn : s.initialized = false →
    s.cache.initSuccessGen = ∅ ∧ (∀ id, s.flights id = none) ∧ s.calls = ∅
  calls : ∀ id call, s.calls.lookup id = some call → CallFresh s call.phase
  refreshes : ∀ r ∈ s.refreshes, RefreshFresh s r

theorem FlightFresh.extend (fresh : FlightFresh s flight)
    (later : Extends s t) : FlightFresh t flight := by
  obtain ⟨ref, phase⟩ := flight
  cases phase with
  | stamped flightGen =>
    obtain ⟨more, continued⟩ := later.restarts ref.port
    have below : flightGen ≤ (s.restarts ref.port).length := fresh
    change flightGen ≤ (t.restarts ref.port).length
    rw [continued, length_append]
    omega
  | dialing flightGen began => exact After.extend fresh later
  | minted flightGen sid negotiated => exact Minted.extend fresh later
  | begun | returned | settled => trivial

theorem CallFresh.extend {phase : CallPhase} (fresh : CallFresh s phase)
    (later : Extends s t) : CallFresh t phase := by
  cases phase with
  | readGen target attempt port cached stampGen =>
    cases cached with
    | some state => exact Minted.extend fresh later
    | none => trivial
  | _ => trivial

theorem RefreshFresh.extend (fresh : RefreshFresh s r)
    (later : Extends s t) : RefreshFresh t r := by
  obtain ⟨paired, reused⟩ := fresh
  refine ⟨?_, fun curGen exit => (reused curGen exit).extend later⟩
  rcases paired with ⟨gen, minted⟩ | own
  · exact .inl ⟨gen, minted.extend later⟩
  · exact .inr own

theorem created_fresh (created : Created sess s) : Freshness s := by
  obtain ⟨current, nextStamp, _, _, _, rfl⟩ := created
  constructor
  case counted => exact fun _ => rfl
  case unborn => exact fun _ => ⟨rfl, fun _ => rfl, rfl⟩
  all_goals exact nofun

theorem Freshness.extend {marking : List ℕ} {stale : ℕ → Option ℕ} {restarts : ℕ → List ℕ}
    {clock : ℕ} {handshakes : List Handshake} (inv : Freshness s)
    (later : Extends s { s with
      marking := marking, staleDaemonPorts := stale, restarts := restarts, clock := clock,
      handshakes := handshakes })
    (counted : ∀ port, (restarts port).length = (stale port).getD 0)
    (past : ∀ port, ∀ time ∈ restarts port, time < clock) :
    Freshness { s with
      marking := marking, staleDaemonPorts := stale, restarts := restarts, clock := clock,
      handshakes := handshakes } where
  counted := counted
  past := past
  flights id flight found := (inv.flights id flight found).extend later
  cached ref sid found := (inv.cached ref sid found).extend later
  stamps ref gen found := by
    obtain ⟨more, continued⟩ := later.restarts ref.port
    have below := inv.stamps ref gen found
    rw [← inv.counted] at below
    refine le_trans ?_ (le_of_eq (counted ref.port))
    dsimp only at continued
    rw [continued, length_append]
    omega
  unborn := inv.unborn
  calls id call found := (inv.calls id call found).extend later
  refreshes r listed := (inv.refreshes r listed).extend later

theorem Freshness.countRestart (inv : Freshness s) (port : ℕ) (marking : List ℕ) :
    Freshness { s with
      marking := marking
      staleDaemonPorts := Function.update s.staleDaemonPorts port (some (s.generation port + 1))
      restarts := Function.update s.restarts port (s.restarts port ++ [s.clock])
      clock := s.clock + 1 } := by
  refine inv.extend ⟨fun other => ?_, fun h listed => listed⟩ (fun other => ?_)
    (fun other time listed => ?_)
  · by_cases here : other = port
    · subst here
      exact ⟨[s.clock], by simp⟩
    · exact ⟨[], by simp [here]⟩
  · by_cases here : other = port
    · subst here
      rw [Function.update_self, Function.update_self, length_append, inv.counted]
      rfl
    · rw [Function.update_of_ne here, Function.update_of_ne here]
      exact inv.counted other
  · by_cases here : other = port
    · subst here
      rw [Function.update_self] at listed
      rcases mem_append.mp listed with old | last
      · exact Nat.lt_succ_of_lt (inv.past other time old)
      · rw [mem_singleton.mp last]
        exact Nat.lt_succ_self _
    · rw [Function.update_of_ne here] at listed
      exact Nat.lt_succ_of_lt (inv.past other time listed)

theorem After.zero (s : State) (port time : ℕ) : After s port 0 time :=
  fun k below => absurd below (Nat.not_lt_zero k)

theorem Freshness.initResults {results : List (DaemonRef × Except String (String × String))}
    (inv : Freshness s) (started : s.initialized = true)
    (unstamped : s.cache.initSuccessGen = ∅) : Freshness (results.foldl applyInitResult s) := by
  induction results generalizing s with
  | nil => exact inv
  | cons result rest ih =>
    obtain ⟨ref, answer⟩ := result
    cases answer with
    | error err => exact ih { inv with } started unstamped
    | ok answer =>
      obtain ⟨sid, negotiated⟩ := answer
      refine ih ?_ started unstamped
      have logged := inv.extend (.handshake s ⟨ref, sid, 0⟩) inv.counted inv.past
      refine { logged with cached := ?_, unborn := fun fresh => nomatch started.symm.trans fresh }
      intro other found hit
      rcases lookup_insert_cases hit with ⟨rfl, rfl⟩ | ⟨_, old⟩
      · have stamp : (s.cache.initSuccessGen.lookup other).getD 0 = 0 := by
          rw [unstamped]
          rfl
        refine ⟨⟨other, found, 0⟩, mem_append_right _ (mem_singleton.mpr rfl), rfl, rfl, ?_⟩
        change After _ other.port ((s.cache.initSuccessGen.lookup other).getD 0) 0
        rw [stamp]
        exact After.zero _ _ _
      · exact logged.cached other found old

theorem fresh_session (inv : Freshness s)
    (moved : stepSession sess s action = some t) : Freshness t := by
  cases action with
  | publish snap | startDelete =>
    cases moved; exact { inv with }
  | aggregateInitialize answers =>
    simp only [stepSession] at moved
    split_ifs at moved with first
    cases moved
    refine Freshness.initResults ?_ rfl (inv.unborn first.1).1
    exact ⟨inv.counted, inv.past, inv.flights, inv.cached, inv.stamps, (by rintro ⟨⟩), inv.calls,
      inv.refreshes⟩
  | trackPort port =>
    simp only [stepSession] at moved
    split_ifs at moved
    · cases moved; exact { inv with }
    · cases moved; exact inv
  | countRestart port =>
    simp only [stepSession] at moved
    split_ifs at moved
    cases moved
    exact inv.countRestart port _
  | _ => cases moved

theorem Freshness.initialized_of_flight (inv : Freshness s)
    (found : s.flights id = some flight) : s.initialized = true := by
  by_contra fresh
  have none := (inv.unborn (by simpa using fresh)).2.1 id
  rw [none] at found
  cases found

theorem Freshness.setFlight (inv : Freshness s)
    (started : s.initialized = true) (fresh : FlightFresh s flight) :
    Freshness (s.setFlight id flight) := by
  refine { inv with flights := ?_, unborn := fun fresh => nomatch started.symm.trans fresh }
  intro other found listed
  rcases flights_setFlight listed with ⟨_, rfl⟩ | ⟨_, old⟩
  · exact fresh
  · exact inv.flights other found old

theorem lookup_successes_cached
    (stored : cache.cacheReinitResult ref sid proto flightGen = some next) {found : String}
    (hit : next.initSuccesses.lookup key = some found) :
    (key = ref ∧ found = sid ∧ next.initSuccessGen.lookup key = some flightGen) ∨
      (cache.initSuccesses.lookup key = some found ∧
        next.initSuccessGen.lookup key = cache.initSuccessGen.lookup key) := by
  unfold Cache.cacheReinitResult at stored
  split_ifs at stored
  cases stored
  rcases lookup_insert_cases hit with ⟨rfl, rfl⟩ | ⟨other, old⟩
  · exact .inl ⟨rfl, rfl, AList.lookup_insert _⟩
  · rw [lookup_keep] at old
    split_ifs at old with stays
    refine .inr ⟨old, ?_⟩
    rw [AList.lookup_insert_ne other, lookup_keep, if_pos (by simp [stays])]

theorem lookup_stamps_cached (stored : cache.cacheReinitResult ref sid proto flightGen = some next)
    (hit : next.initSuccessGen.lookup key = some gen) :
    (key = ref ∧ gen = flightGen) ∨ cache.initSuccessGen.lookup key = some gen := by
  unfold Cache.cacheReinitResult at stored
  split_ifs at stored
  cases stored
  rcases lookup_insert_cases hit with here | ⟨_, old⟩
  · exact .inl here
  · rw [lookup_keep] at old
    split_ifs at old
    exact .inr old

theorem fresh_flight (inv : Freshness s)
    (moved : stepFlight sess s action = some t) : Freshness t := by
  obtain ⟨id, old, base, new, found, rule, rfl⟩ := stepFlight_ruled moved
  have started := inv.initialized_of_flight found
  have before := inv.flights id old found
  cases rule with
  | @readGeneration ref =>
    refine inv.setFlight started ?_
    change s.generation ref.port ≤ (s.restarts ref.port).length
    rw [inv.counted]
  | @dial ref flightGen =>
    have below : flightGen ≤ (s.restarts ref.port).length := before
    refine Freshness.setFlight ?_ started ?_
    · refine { inv with past := ?_ }
      exact fun port time listed => Nat.lt_succ_of_lt (inv.past port time listed)
    · intro k less
      have inside : k < (s.restarts ref.port).length := lt_of_lt_of_le less below
      exact ⟨_, List.getElem?_eq_getElem inside, inv.past ref.port _ (getElem_mem inside)⟩
  | refused | uncached => exact inv.setFlight started trivial
  | @minted ref flightGen began sid negotiated =>
    have after : After s ref.port flightGen began := before
    have later := Extends.handshake s ⟨ref, sid, began⟩
    refine Freshness.setFlight (inv.extend later inv.counted inv.past) started ?_
    exact ⟨⟨ref, sid, began⟩, mem_append_right _ (mem_singleton.mpr rfl), rfl, rfl,
      after.extend later⟩
  | @cached ref flightGen sid negotiated cache result stored =>
    have minted : Minted s ref sid flightGen := before
    refine Freshness.setFlight ?_ started trivial
    refine { inv with
      cached := ?_, stamps := ?_, unborn := fun fresh => nomatch started.symm.trans fresh }
    · intro key cachedSid hit
      rcases lookup_successes_cached stored hit with ⟨rfl, rfl, stamp⟩ | ⟨old, stamp⟩
      · rw [stamp]
        exact minted
      · rw [stamp]
        exact inv.cached key cachedSid old
    · intro key gen hit
      rcases lookup_stamps_cached stored hit with ⟨rfl, rfl⟩ | old
      · obtain ⟨h, _, _, _, after⟩ := minted
        exact le_trans after.le (le_of_eq (inv.counted key.port))
      · exact inv.stamps key gen old
  | settle =>
    refine Freshness.setFlight ?_ started ?_
    · exact { inv with }
    · trivial

theorem Freshness.initialized_of_call (inv : Freshness s)
    (found : s.calls.lookup id = some call) : s.initialized = true := by
  by_contra fresh
  have none := (inv.unborn (by simpa using fresh)).2.2
  rw [none] at found
  cases found

theorem Freshness.setCall (inv : Freshness s)
    (started : s.initialized = true) (fresh : CallFresh s call.phase) :
    Freshness (s.setCall id call) := by
  refine { inv with calls := ?_, unborn := fun fresh => nomatch started.symm.trans fresh }
  intro other found listed
  rcases lookup_setCall listed with ⟨_, rfl⟩ | ⟨_, old⟩
  · exact fresh
  · exact inv.calls other found old

theorem Freshness.recordRefresh (inv : Freshness s)
    (fresh : RefreshFresh s r) : Freshness (s.recordRefresh r) := by
  refine { inv with refreshes := ?_ }
  exact forall_mem_append.mpr ⟨inv.refreshes, forall_mem_singleton.mpr fresh⟩

theorem refreshFresh_own (s : State) (target : Target) {exit : Exit}
    (notReused : ∀ curGen, exit ≠ .reused curGen) :
    RefreshFresh s ⟨target, target.daemonSID, target.ref.port, exit⟩ :=
  ⟨.inr ⟨rfl, rfl⟩, fun curGen reused => absurd reused (notReused curGen)⟩

theorem daemonInitState_lookup
    {state : InitState} (found : cache.daemonInitState sess ref = some state) :
    cache.initSuccesses.lookup ref = some state.sessionID := by
  obtain ⟨sid, hit, rfl⟩ := Option.map_eq_some_iff.mp found
  exact hit

theorem callFresh_routeCall (s : State) (routeMap : Option (Map String ToolRef))
    (params : Except String String) : CallFresh s (routeCall routeMap params) := by
  unfold routeCall
  split
  · trivial
  · split_ifs
    · trivial
    · split <;> trivial

theorem callFresh_revalidate (s : State) (sess : Session) (current : Option Published)
    (ref : ToolRef) : CallFresh s (revalidate sess current ref) := by
  rcases revalidate_cases sess current ref with refused | ⟨passed, _⟩ | ⟨live, moved, _, _, passed⟩
  · rw [refused]
    trivial
  · rw [passed]
    trivial
  · rw [passed]
    trivial

theorem fresh_rule {base : State} {new : Call}
    (inv : Freshness s) (rule : CallRule json sess s id (s.calls.lookup id) base new) :
    Freshness (base.setCall id new) := by
  generalize found : s.calls.lookup id = old at rule
  have before := inv.calls id
  have started (call : Call) (is : old = some call) : s.initialized = true :=
    inv.initialized_of_call (found.trans is)
  have own (target : Target) {exit : Exit} (notReused : ∀ curGen, exit ≠ .reused curGen) :
      Freshness (s.recordRefresh ⟨target, target.daemonSID, target.ref.port, exit⟩) :=
    inv.recordRefresh (refreshFresh_own s target notReused)
  cases rule with
  | start ready => exact inv.setCall ready (callFresh_routeCall _ _ _)
  | load => exact inv.setCall (started _ rfl) (callFresh_revalidate _ _ _ _)
  | unbound | restarted | resolvePort | stale | reinit | follow | refreshAgain | healReady
  | healFailed | refuse | heal | posted | unprepared | retried =>
    exact inv.setCall (started _ rfl) trivial
  | bind | enter | removeRow | reinsertRow | finish =>
    refine Freshness.setCall ?_ (started _ rfl) ?_
    · exact { inv with }
    · trivial
  | lead =>
    refine Freshness.setCall ?_ (started _ rfl) ?_
    · refine Freshness.setFlight ?_ (started _ rfl) ?_
      · exact { inv with }
      · trivial
    · trivial
  | readCache =>
    refine inv.setCall (started _ rfl) ?_
    generalize read : s.cache.daemonInitState sess _ = cached
    cases cached with
    | none => trivial
    | some state => exact inv.cached _ _ (daemonInitState_lookup read)
  | unrestarted | exhaustedWithoutSession | refreshFailed =>
    refine Freshness.setCall (own _ ?_) (started _ rfl) ?_
    · exact nofun
    · trivial
  | reuse fresh =>
    have minted := before _ found
    refine Freshness.setCall (inv.recordRefresh ?_) (started _ rfl) ?_
    · refine ⟨.inl ⟨_, minted⟩, ?_⟩
      rintro curGen ⟨⟩
      exact Minted.weaken minted fresh
    · trivial
  | exhausted =>
    have minted := before _ found
    refine Freshness.setCall (inv.recordRefresh ?_) (started _ rfl) ?_
    · refine ⟨.inl ⟨_, minted⟩, ?_⟩
      exact nofun
    · trivial

theorem step_fresh
    (inv : Freshness s) (moved : step json sess s action = some t) : Freshness t := by
  rcases step_cases moved with moved | moved | moved | moved
  · exact fresh_session inv moved
  · obtain ⟨lists, routeMap, rfl⟩ := stepList_keeps moved
    exact { inv with }
  · exact fresh_flight inv moved
  · obtain ⟨id, base, new, rule, rfl, _⟩ := stepCall_ruled moved
    exact fresh_rule inv rule

/-- In every run: the stamp of a cached daemon is at most the generation of its port, which is the
number of its restarts; a reused id was minted by a handshake begun after every restart up to the
generation it was compared with; and every exit gives out an id minted at the port it goes with, or
the caller's own. -/
theorem cached_sessions_fresh {json : JSON} {sess : Session} {s : State}
    (reached : Reachable (Created sess) (step json sess) always s) :
    (∀ ref gen, s.cache.initSuccessGen.lookup ref = some gen → gen ≤ s.generation ref.port) ∧
      (∀ port, s.generation port = (s.restarts port).length) ∧
      (∀ r ∈ s.refreshes, ∀ curGen, r.exit = .reused curGen →
        ∃ h ∈ s.handshakes, h.ref = ⟨r.caller.ref.server, r.caller.ref.daemon, r.port⟩ ∧
          h.sid = r.daemonSID ∧
          ∀ k < curGen, ∃ counted, (s.restarts r.port)[k]? = some counted ∧ counted < h.began) ∧
      (∀ r ∈ s.refreshes,
        (∃ h ∈ s.handshakes, h.ref = ⟨r.caller.ref.server, r.caller.ref.daemon, r.port⟩ ∧
            h.sid = r.daemonSID) ∨
          r.daemonSID = r.caller.daemonSID ∧ r.port = r.caller.ref.port) := by
  have inv : Freshness s :=
    reached.invariant (fun _ created => created_fresh created) (fun _ _ _ inv _ => step_fresh inv)
  refine ⟨inv.stamps, fun port => (inv.counted port).symm, ?_, ?_⟩
  · intro r listed curGen reused
    exact (inv.refreshes r listed).2 curGen reused
  · intro r listed
    rcases (inv.refreshes r listed).1 with ⟨gen, h, minted, ref, sid, _⟩ | own
    · exact .inl ⟨h, minted, ref, sid⟩
    · exact .inr own

theorem cached_sessions_fresh_renewed :
    ∃ s, Reachable (Created memorySession) (step CanonicalNumbers.plainJSON memorySession) always s ∧
      s.refreshes.map (fun r => (r.daemonSID, r.port, r.exit)) = [("second", 9001, .reused 1)] ∧
      (∀ r ∈ s.refreshes, ∀ curGen, r.exit = .reused curGen →
        ∃ h ∈ s.handshakes, h.ref = ⟨r.caller.ref.server, r.caller.ref.daemon, r.port⟩ ∧
          h.sid = r.daemonSID ∧
          ∀ k < curGen, ∃ counted, (s.restarts r.port)[k]? = some counted ∧ counted < h.began) := by
  refine (exists_reachable (step CanonicalNumbers.plainJSON memorySession) memoryStart
    (opened ++ [.trackPort 9001, .countRestart 9001, .startCall 1 ['7'] (.ok "memory__read"),
      .loadSnapshot 1, .bindSession 1, .refresh 1, .resolvePort 1, .readCache 1, .readGen 1] ++
      reinitialized 1 0 "second" ++ [.resolvePort 1, .readCache 1, .readGen 1]) memoryStart_created
    ?_).imp (fun s found => ⟨found.1, found.2, (cached_sessions_fresh found.1).2.2.1⟩)
  decide +kernel

end McpLocalHub.Hub.SessionFreshness
