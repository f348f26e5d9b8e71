/- Module: Hub/ScopeSafety
   source: internal/api/hub_mcp_aggregator.go
   digest: A call is routed only to what the loaded snapshot binds in the session's scope. -/

import McpLocalHub.Hub.CallRules
import McpLocalHub.Hub.CanonicalNumbers

set_option autoImplicit false

/-! `resolveToolsCallRoute` compares a route with the current snapshot, except when that is the one
the session was created under. The exception is sound because a publication is never undone: as long
as the pointer is the first one, nothing has been published, and everything the session has in
hand was taken from that snapshot. -/

namespace McpLocalHub.Hub.ScopeSafety

open List

open Foundation.Maps Foundation.RawJSON Foundation.Runs RequestId ToolsList Aggregator CallRules

/-- The tool's daemon is bound in the scope at this port, and the tool is not hidden. -/
def InScope (sess : Session) (seen : Option Published) (ref : ToolRef) : Prop :=
  ref.daemonRef ∈ scopeBindings (pointee seen) sess.scopeKey ∧
    snapshotHidesTool (pointee seen) sess.scopeKey ref = false

def participants (sess : Session) : List DaemonRef :=
  scopeBindings (pointee sess.snapshotAtInit) sess.scopeKey

def Named (sess : Session) (ref : ToolRef) : Prop :=
  ∃ b ∈ participants sess, b.server = ref.server ∧ b.daemon = ref.daemon

variable {sess : Session} {ref : ToolRef} {s t base : State} {action : Action} {id born : ℕ}
  {json : JSON} {new : Call}

theorem InScope.named (safe : InScope sess sess.snapshotAtInit ref) : Named sess ref :=
  ⟨ref.daemonRef, safe.1, rfl, rfl⟩

def RunScoped (sess : Session) (run : Listing) : Prop :=
  run.current = sess.snapshotAtInit ∧ ∀ ref ∈ run.successes.keys, ref ∈ participants sess

def ResultsScoped (sess : Session) (results : List ListResult) : Prop :=
  ∀ r ∈ results, ∀ tools, r.tools = .ok tools → ∀ t ∈ tools, t.ref.daemonRef ∈ participants sess

def ListScoped (sess : Session) : ListPhase → Prop
  | .loaded current => current = sess.snapshotAtInit
  | .filtering _ _ _ => False
  | .counting _ _ _ => False
  | .fanning run _ => RunScoped sess run
  | .listed run _ results => RunScoped sess run ∧ ResultsScoped sess results
  | .assembling _ _ results hiddenSnapshot =>
    hiddenSnapshot = sess.snapshotAtInit ∧ ResultsScoped sess results
  | .finished _ => True

def CallScoped (sess : Session) : CallPhase → Prop
  | .routed ref => InScope sess sess.snapshotAtInit ref
  | .checked ref _ _ => Named sess ref
  | .resolved target => Named sess target.ref
  | .resolvePort target _ => Named sess target.ref
  | .readCache target _ _ => Named sess target.ref
  | .readGen target _ _ _ _ => Named sess target.ref
  | .reinit target _ => Named sess target.ref
  | .join target _ ref => Named sess target.ref ∧ ref ∈ participants sess
  | .waiting target _ _ _ => Named sess target.ref
  | .ready target => Named sess target.ref
  | .posting target _ _ => Named sess target.ref
  | _ => True

structure Quiet (sess : Session) (s : State) : Prop where
  cached : ∀ ref ∈ s.cache.initSuccesses.keys, ref ∈ participants sess
  routes : ∀ routes name ref, s.routeMap = some routes → routes.lookup name = some ref →
    InScope sess sess.snapshotAtInit ref
  flights : ∀ id flight, s.flights id = some flight → flight.ref ∈ participants sess
  lists : ∀ id phase, s.lists id = some phase → ListScoped sess phase
  calls : ∀ id call, s.calls.lookup id = some call → CallScoped sess call.phase

theorem Quiet.initResults {results : List (DaemonRef × Except String (String × String))}
    (quiet : Quiet sess s) (listed : ∀ result ∈ results, result.1 ∈ participants sess) :
    Quiet sess (results.foldl applyInitResult s) := by
  induction results generalizing s with
  | nil => exact quiet
  | cons result rest ih =>
    refine ih ?_ (fun later inRest => listed later (mem_cons_of_mem result inRest))
    unfold applyInitResult
    split
    · exact { quiet with }
    · refine { quiet with cached := ?_ }
      intro ref isKey
      rcases mem_keys_insert isKey with rfl | old
      · exact listed result mem_cons_self
      · exact quiet.cached ref old

theorem quiet_session (quiet : Quiet sess s)
    (created : sess.intendedParticipants = participants sess)
    (moved : stepSession sess s action = some t) : Quiet sess t := by
  cases action with
  | publish snap | startDelete =>
    cases moved
    exact { quiet with }
  | aggregateInitialize answers =>
    simp only [stepSession] at moved
    split_ifs at moved
    cases moved
    refine Quiet.initResults { quiet with } ?_
    intro result listed
    rw [← created]
    exact (of_mem_zip listed).1
  | trackPort port | countRestart port =>
    simp only [stepSession] at moved
    split_ifs at moved <;> cases moved <;> exact { quiet with }
  | _ => cases moved

theorem Quiet.setList (quiet : Quiet sess s)
    {phase : ListPhase} (inside : ListScoped sess phase) : Quiet sess (s.setList id phase) := by
  refine { quiet with lists := ?_ }
  intro other found listed
  rcases lists_setList listed with ⟨_, rfl⟩ | ⟨_, old⟩
  · exact inside
  · exact quiet.lists other found old

theorem captured_keys {cache : Cache} {ref : DaemonRef}
    (listed : ref ∈ (captured sess cache).keys) : ref ∈ cache.initSuccesses.keys := by
  revert listed
  refine List.foldlRecOn (motive := fun (successes : Map DaemonRef InitState) =>
    ref ∈ successes.keys → ref ∈ cache.initSuccesses.keys) _ _ nofun ?_
  intro successes kept first among isKey
  split at isKey
  · rcases mem_keys_insert isKey with rfl | old
    · exact among
    · exact kept old
  · exact kept isKey

theorem published_inScope {results : List ListResult}
    (inside : ResultsScoped sess results) {initFailures : List DaemonFailure}
    {intended : List DaemonRef} {allowEmptyKnown : Bool} {live : Option ResolverSnapshot}
    {response : Response} {routes : Map String ToolRef}
    (assembled : assembleToolsListResponse
      (buildHiddenToolSet (snapshotHiddenToolsForScope (pointee sess.snapshotAtInit) sess.scopeKey))
      results initFailures intended sess.scopeKey allowEmptyKnown live = (response, some routes))
    {name : String} (found : routes.lookup name = some ref) :
    InScope sess sess.snapshotAtInit ref := by
  obtain ⟨visible, r, inResults, tools, answered, t, offered, rfl⟩ :=
    assemble_routes _ assembled found
  rw [hides_buildHiddenToolSet] at visible
  exact ⟨inside r inResults tools answered t offered, visible⟩

theorem quiet_list (quiet : Quiet sess s)
    (current : s.current = sess.snapshotAtInit) (moved : stepList sess s action = some t) :
    Quiet sess t := by
  cases action with
  | startList id =>
    simp only [stepList] at moved
    split_ifs at moved
    cases moved
    exact quiet.setList current
  | captureList id =>
    simp only [stepList] at moved
    split at moved
    · next loaded found =>
      have first : loaded = sess.snapshotAtInit := quiet.lists id _ found
      split_ifs at moved with republished
      · have same : samePointer loaded sess.snapshotAtInit = true := by
          rw [first]
          exact decide_eq_true rfl
        rw [same] at republished
        cases republished.2.2
      · cases moved
        exact quiet.setList ⟨first, fun ref listed => quiet.cached ref (captured_keys listed)⟩
    · cases moved
  | filterList id ref =>
    simp only [stepList] at moved
    split at moved
    · next found => exact (quiet.lists id _ found).elim
    · cases moved
  | countList id =>
    simp only [stepList] at moved
    split at moved
    · next found => exact (quiet.lists id _ found).elim
    · next found => exact (quiet.lists id _ found).elim
    · next found => exact (quiet.lists id _ found).elim
    · cases moved
  | fanOut id answers =>
    simp only [stepList] at moved
    split at moved
    · next run allowEmptyKnown found =>
      have inside : RunScoped sess run := quiet.lists id _ found
      cases moved
      refine quiet.setList ⟨inside, ?_⟩
      intro r inResults tools answered t offered
      obtain ⟨ref, listed, rfl⟩ := mem_map.mp inResults
      cases reply : answers ref with
      | error err =>
        rw [reply] at answered
        cases answered
      | ok lines =>
        rw [reply] at answered
        cases answered
        rw [nameSpaceTools_ref offered]
        exact inside.2 ref listed
    · cases moved
  | loadHidden id =>
    simp only [stepList] at moved
    split at moved
    · next run allowEmptyKnown results found =>
      obtain ⟨inside, answered⟩ : RunScoped sess run ∧ ResultsScoped sess results :=
        quiet.lists id _ found
      cases moved
      refine quiet.setList ⟨?_, answered⟩
      rw [current, inside.1]
      cases sess.snapshotAtInit <;> rfl
    · cases moved
  | publishRoutes id =>
    simp only [stepList] at moved
    split at moved
    · next run allowEmptyKnown results hiddenSnapshot found =>
      obtain ⟨rfl, answered⟩ : hiddenSnapshot = sess.snapshotAtInit ∧ ResultsScoped sess results :=
        quiet.lists id _ found
      cases moved
      refine Quiet.setList ?_ ?_
      case refine_2 => trivial
      refine { quiet with routes := ?_ }
      intro routes name ref stored route
      generalize assembled : assembleToolsListResponse _ results run.initFailures
        sess.intendedParticipants sess.scopeKey allowEmptyKnown (pointee sess.snapshotAtInit) =
        outcome at stored
      obtain ⟨response, made⟩ := outcome
      cases made with
      | some fresh =>
        obtain rfl : fresh = routes := Option.some.inj stored
        exact published_inScope answered assembled route
      | none => exact quiet.routes routes name ref stored route
    · cases moved
  | _ => cases moved

theorem Quiet.setFlight (quiet : Quiet sess s)
    {flight : Flight} (inside : flight.ref ∈ participants sess) :
    Quiet sess (s.setFlight id flight) := by
  refine { quiet with flights := ?_ }
  intro other found listed
  rcases flights_setFlight listed with ⟨_, rfl⟩ | ⟨_, old⟩
  · exact inside
  · exact quiet.flights other found old

theorem cacheReinitResult_keys {cache next : Cache} {ref : DaemonRef} {sid proto : String}
    {flightGen : ℕ} (stored : cache.cacheReinitResult ref sid proto flightGen = some next)
    {key : DaemonRef} (listed : key ∈ next.initSuccesses.keys) :
    key = ref ∨ key ∈ cache.initSuccesses.keys := by
  unfold Cache.cacheReinitResult at stored
  split_ifs at stored
  cases stored
  rcases mem_keys_insert listed with here | old
  · exact .inl here
  · exact .inr (mem_keys_keep old)

theorem quiet_flight (quiet : Quiet sess s)
    (moved : stepFlight sess s action = some t) : Quiet sess t := by
  obtain ⟨id, old, base, new, found, rule, rfl⟩ := stepFlight_ruled moved
  have inside : old.ref ∈ participants sess := quiet.flights id old found
  refine Quiet.setFlight ?_ (rule.ref ▸ inside)
  cases rule with
  | readGeneration | refused | uncached => exact quiet
  | dial | minted | settle =>
    exact { quiet with }
  | cached stored =>
    refine { quiet with cached := ?_ }
    intro key listed
    rcases cacheReinitResult_keys stored listed with rfl | old
    · exact inside
    · exact quiet.cached key old

theorem Quiet.setCall (quiet : Quiet sess s) {call : Call}
    (inside : CallScoped sess call.phase) : Quiet sess (s.setCall id call) := by
  refine { quiet with calls := ?_ }
  intro other found listed
  rcases lookup_setCall listed with ⟨_, rfl⟩ | ⟨_, old⟩
  · exact inside
  · exact quiet.calls other found old

theorem currentDaemonPort_participant (named : Named sess ref) :
    (⟨ref.server, ref.daemon,
      currentDaemonPort (pointee sess.snapshotAtInit) sess.scopeKey ref⟩ : DaemonRef) ∈
      participants sess := by
  obtain ⟨b, bound, server, daemon⟩ := named
  unfold currentDaemonPort
  cases found : liveDaemonBinding (pointee sess.snapshotAtInit) sess.scopeKey ref.daemonRef with
  | none =>
    have other := List.find?_eq_none.mp found b bound
    exact absurd (decide_eq_true ⟨server, daemon⟩) other
  | some live => exact liveDaemonBinding_spec found

theorem routeCall_scoped (quiet : Quiet sess s)
    (params : Except String String) : CallScoped sess (routeCall s.routeMap params) := by
  unfold routeCall
  split
  · trivial
  · split_ifs
    · trivial
    · split
      · trivial
      · next ref found =>
        obtain ⟨routes, stored, route⟩ := Option.bind_eq_some_iff.mp found
        exact quiet.routes routes _ ref stored route

theorem revalidate_scoped {current : Option Published}
    (inside : InScope sess sess.snapshotAtInit ref) :
    CallScoped sess (revalidate sess current ref) := by
  rcases revalidate_cases sess current ref with refused | ⟨passed, _⟩ | ⟨live, moved, _, _, passed⟩
  · rw [refused]
    trivial
  · rw [passed]
    exact inside.named
  · rw [passed]
    exact inside.named

theorem quiet_rule (quiet : Quiet sess s) (current : s.current = sess.snapshotAtInit)
    (rule : CallRule json sess s id (s.calls.lookup id) base new) :
    Quiet sess (base.setCall id new) := by
  generalize found : s.calls.lookup id = old at rule
  have rest {resolutions : List Resolution} {refreshes : List Refresh} {inFlight : InFlight}
      {reinitGroup : Map String ℕ} :
      Quiet sess { s with
        resolutions := resolutions, refreshes := refreshes, inFlight := inFlight
        reinitGroup := reinitGroup } :=
    { quiet with }
  have before := quiet.calls id
  cases rule with
  | start => exact quiet.setCall (routeCall_scoped quiet _)
  | load => exact quiet.setCall (revalidate_scoped (before _ found))
  | bind | unrestarted | reuse | exhausted | exhaustedWithoutSession | refreshFailed | enter =>
    have named := before _ found
    exact rest.setCall named
  | restarted | resolvePort | readCache | stale | refreshAgain | heal =>
    have named := before _ found
    exact quiet.setCall named
  | reinit =>
    have named := before _ found
    refine quiet.setCall ⟨named, ?_⟩
    rw [current]
    exact currentDaemonPort_participant named
  | follow =>
    obtain ⟨named, _⟩ := before _ found
    exact quiet.setCall named
  | lead =>
    obtain ⟨named, inside⟩ := before _ found
    exact (Quiet.setFlight rest inside).setCall named
  | removeRow | reinsertRow | finish => exact rest.setCall (by trivial)
  | unbound | healReady | healFailed | refuse | posted | unprepared | retried =>
    exact quiet.setCall (by trivial)

def identity (ref : ToolRef) : String × String × String := (ref.server, ref.daemon, ref.rawName)

def resolvedTo : CallPhase → Option (String × String × String)
  | .resolved target => some (identity target.ref)
  | .resolvePort target _ => some (identity target.ref)
  | .readCache target _ _ => some (identity target.ref)
  | .readGen target _ _ _ _ => some (identity target.ref)
  | .reinit target _ => some (identity target.ref)
  | .join target _ _ => some (identity target.ref)
  | .waiting target _ _ _ => some (identity target.ref)
  | .ready target => some (identity target.ref)
  | .posting target _ _ => some (identity target.ref)
  | .healed target _ _ => some (identity target.ref)
  | .removed target _ _ _ => some (identity target.ref)
  | .retrying target _ _ _ => some (identity target.ref)
  | _ => none

structure ScopeInvariant (sess : Session) (born : ℕ) (s : State) : Prop where
  started : ∀ p, sess.snapshotAtInit = some p → p.stamp < born
  created : sess.intendedParticipants = participants sess
  since : born ≤ s.nextStamp
  quiet : s.nextStamp = born → s.current = sess.snapshotAtInit ∧ Quiet sess s
  republished : born < s.nextStamp → ∃ p, s.current = some p ∧ born ≤ p.stamp
  checked : ∀ id reqID ref moved seen,
    s.calls.lookup id = some ⟨reqID, .checked ref moved seen⟩ → InScope sess seen ref
  resolutions : ∀ r ∈ s.resolutions, InScope sess r.seen r.ref
  dispatched : ∀ id call tool, s.calls.lookup id = some call → resolvedTo call.phase = some tool →
    ∃ r ∈ s.resolutions, r.call = id ∧ identity r.ref = tool

theorem created_invariant (created : Created sess s) : ScopeInvariant sess s.nextStamp s := by
  obtain ⟨current, nextStamp, stamps, atInit, intended, rfl⟩ := created
  constructor
  case started => exact fun p init => stamps p (atInit ▸ init)
  case created => rw [intended, participants, atInit]
  case since => exact le_refl _
  case quiet =>
    intro _
    exact ⟨atInit.symm, nofun, nofun, nofun, nofun, nofun⟩
  case republished => exact fun later => absurd later (lt_irrefl _)
  all_goals exact nofun

theorem ScopeInvariant.still (inv : ScopeInvariant sess born s)
    (same : s.current.isSome = true → samePointer s.current sess.snapshotAtInit = true) :
    s.nextStamp = born := by
  by_contra moved
  obtain ⟨p, current, late⟩ := inv.republished (lt_of_le_of_ne inv.since (Ne.symm moved))
  rw [current] at same
  have stamps : some p.stamp = sess.snapshotAtInit.map Published.stamp :=
    of_decide_eq_true (same rfl)
  obtain ⟨first, atInit, stamp⟩ := Option.map_eq_some_iff.mp stamps.symm
  have early := inv.started first atInit
  omega

theorem ScopeInvariant.load (inv : ScopeInvariant sess born s) {reqID : Text}
    (found : s.calls.lookup id = some ⟨reqID, .routed ref⟩) {passed : ToolRef} {moved : Bool}
    {seen : Option Published}
    (loaded : revalidate sess s.current ref = .checked passed moved seen) :
    seen = s.current ∧ InScope sess s.current passed := by
  rcases revalidate_cases sess s.current ref with
    refused | ⟨same, first⟩ | ⟨live, moved', found', visible, same⟩
  · rw [refused] at loaded
    cases loaded
  · rw [same] at loaded
    cases loaded
    obtain ⟨current, quiet⟩ := inv.quiet (inv.still first)
    have inside : InScope sess sess.snapshotAtInit ref := quiet.calls id _ found
    exact ⟨rfl, current ▸ inside⟩
  · rw [same] at loaded
    cases loaded
    exact ⟨rfl, liveDaemonBinding_spec found', visible⟩

theorem rule_records (inv : ScopeInvariant sess born s)
    (rule : CallRule json sess s id (s.calls.lookup id) base new) :
    (∀ reqID ref moved seen, new = ⟨reqID, .checked ref moved seen⟩ → InScope sess seen ref) ∧
      (∀ r ∈ base.resolutions, InScope sess r.seen r.ref) ∧
      (∀ r ∈ s.resolutions, r ∈ base.resolutions) ∧
      (∀ tool, resolvedTo new.phase = some tool →
        ∃ r ∈ base.resolutions, r.call = id ∧ identity r.ref = tool) := by
  generalize found : s.calls.lookup id = old at rule
  have dispatched := inv.dispatched id
  cases rule with
  | start =>
    have unresolved (params) (tool) : resolvedTo (routeCall s.routeMap params) ≠ some tool ∧
        ∀ ref moved seen, routeCall s.routeMap params ≠ .checked ref moved seen := by
      unfold routeCall
      split
      · exact ⟨nofun, nofun⟩
      · split_ifs
        · exact ⟨nofun, nofun⟩
        · split <;> exact ⟨nofun, nofun⟩
    refine ⟨?_, inv.resolutions, fun r listed => listed, ?_⟩
    · intro reqID ref moved seen same
      exact absurd (congrArg Call.phase same) ((unresolved _ ("", "", "")).2 ref moved seen)
    · exact fun tool resolved => absurd resolved (unresolved _ tool).1
  | load =>
    refine ⟨?_, inv.resolutions, fun r listed => listed, ?_⟩
    · intro reqID ref moved seen same
      obtain ⟨rfl, inside⟩ := inv.load found (congrArg Call.phase same)
      exact inside
    · intro tool resolved
      rcases revalidate_cases sess s.current _ with refused | ⟨same, _⟩ | ⟨_, _, _, _, same⟩
      · rw [refused] at resolved; cases resolved
      · rw [same] at resolved; cases resolved
      · rw [same] at resolved; cases resolved
  | @bind reqID ref moved seen state bound =>
    have inside := inv.checked id reqID ref moved seen found
    refine ⟨nofun, ?_, fun r listed => mem_append_left _ listed, ?_⟩
    · exact forall_mem_append.mpr ⟨inv.resolutions, forall_mem_singleton.mpr inside⟩
    · rintro tool ⟨⟩
      exact ⟨⟨id, ref, seen⟩, mem_append_right _ (mem_singleton.mpr rfl), rfl, rfl⟩
  | unrestarted | restarted | resolvePort | readCache | reuse | exhausted | exhaustedWithoutSession
  | stale | reinit | follow | lead | refreshAgain | refreshFailed | healReady | enter | heal
  | removeRow | reinsertRow =>
    refine ⟨nofun, inv.resolutions, fun r listed => listed, ?_⟩
    rintro tool ⟨⟩
    exact dispatched _ _ found rfl
  | unbound | healFailed | refuse | posted | unprepared | retried | finish =>
    exact ⟨nofun, inv.resolutions, fun r listed => listed, nofun⟩

theorem ScopeInvariant.background (inv : ScopeInvariant sess born s)
    (current : t.current = s.current) (stamp : t.nextStamp = s.nextStamp)
    (calls : t.calls = s.calls) (resolutions : t.resolutions = s.resolutions)
    (quiet : s.current = sess.snapshotAtInit → Quiet sess s → Quiet sess t) :
    ScopeInvariant sess born t where
  started := inv.started
  created := inv.created
  since := stamp ▸ inv.since
  quiet := by
    intro still
    obtain ⟨first, before⟩ := inv.quiet (stamp ▸ still)
    exact ⟨current.trans first, quiet first before⟩
  republished := by
    intro later
    rw [current]
    exact inv.republished (stamp ▸ later)
  checked := by rw [calls]; exact inv.checked
  resolutions := by rw [resolutions]; exact inv.resolutions
  dispatched := by rw [calls, resolutions]; exact inv.dispatched

theorem CallRule.pointer {old : Option Call} (rule : CallRule json sess s id old base new) :
    base.current = s.current ∧ base.nextStamp = s.nextStamp ∧ base.calls = s.calls := by
  cases rule <;> exact ⟨rfl, rfl, rfl⟩

theorem step_scope (inv : ScopeInvariant sess born s) (moved : step json sess s action = some t) :
    ScopeInvariant sess born t := by
  rcases step_cases moved with moved | moved | moved | moved
  · obtain ⟨kept, ⟨p, current, fresh, stamp⟩ | ⟨current, stamp⟩⟩ := stepSession_keeps moved
    · have since := inv.since
      refine ⟨inv.started, inv.created, by omega, fun still => by omega,
        fun _ => ⟨p, current, by omega⟩, ?_, ?_, ?_⟩
      · rw [kept.calls]; exact inv.checked
      · rw [kept.resolutions]; exact inv.resolutions
      · rw [kept.calls, kept.resolutions]; exact inv.dispatched
    · exact inv.background current stamp kept.calls kept.resolutions
        (fun _ before => quiet_session before inv.created moved)
  · obtain ⟨lists, routeMap, shape⟩ := stepList_keeps moved
    exact inv.background (by rw [shape]) (by rw [shape]) (by rw [shape]) (by rw [shape])
      (fun first before => quiet_list before first moved)
  · have quiet := fun before : Quiet sess s => quiet_flight before moved
    obtain ⟨id, old, base, new, _, rule, rfl⟩ := stepFlight_ruled moved
    cases rule <;> exact inv.background rfl rfl rfl rfl (fun _ => quiet)
  · obtain ⟨id, base, new, rule, rfl, _⟩ := stepCall_ruled moved
    obtain ⟨current, stamp, calls⟩ := CallRule.pointer rule
    obtain ⟨checked, resolutions, grown, dispatched⟩ := rule_records inv rule
    constructor
    case started => exact inv.started
    case created => exact inv.created
    case since => exact stamp ▸ inv.since
    case quiet =>
      intro still
      obtain ⟨first, before⟩ := inv.quiet (stamp ▸ still)
      exact ⟨current.trans first, quiet_rule before first rule⟩
    case republished =>
      intro later
      obtain ⟨p, loaded, late⟩ := inv.republished (stamp ▸ later)
      exact ⟨p, current.trans loaded, late⟩
    case checked =>
      intro other reqID ref moved seen found
      rcases lookup_setCall found with ⟨_, same⟩ | ⟨_, old⟩
      · exact checked reqID ref moved seen same.symm
      · exact inv.checked other reqID ref moved seen (calls ▸ old)
    case resolutions => exact resolutions
    case dispatched =>
      intro other call tool found resolved
      rcases lookup_setCall found with ⟨rfl, rfl⟩ | ⟨_, old⟩
      · exact dispatched tool resolved
      · obtain ⟨r, listed, same⟩ := inv.dispatched other call tool (calls ▸ old) resolved
        exact ⟨r, grown r listed, same⟩

/-- In every run, at every point: a route passes only if it is in scope in the snapshot that is
loaded for it; the routes returned so far were; and a call goes to a tool only after such a route
was returned to that call. -/
theorem calls_in_scope (reached : Reachable (Created sess) (step json sess) always s) :
    (∀ id t reqID ref moved seen, step json sess s (.loadSnapshot id) = some t →
        t.calls.lookup id = some ⟨reqID, .checked ref moved seen⟩ →
        seen = s.current ∧ InScope sess s.current ref) ∧
      (∀ r ∈ s.resolutions, InScope sess r.seen r.ref) ∧
      (∀ id call tool, s.calls.lookup id = some call → resolvedTo call.phase = some tool →
        ∃ r ∈ s.resolutions, r.call = id ∧ identity r.ref = tool) := by
  obtain ⟨born, inv⟩ : ∃ born, ScopeInvariant sess born s := by
    obtain ⟨first, labels, created, run⟩ := reached
    exact ⟨first.nextStamp, run.invariant (fun _ _ _ inv _ moved => step_scope inv moved)
      (created_invariant created)⟩
  refine ⟨?_, inv.resolutions, inv.dispatched⟩
  intro id t reqID ref moved seen loaded found
  have moves : stepCall json sess s (.loadSnapshot id) = some t := loaded
  simp only [stepCall] at moves
  split at moves
  · next reqID' routed before =>
    cases moves
    rcases lookup_setCall found with ⟨_, same⟩ | ⟨other, _⟩
    · exact inv.load before (congrArg Call.phase same).symm
    · exact absurd rfl other
  · cases moves

def movedSnapshot : ResolverSnapshot :=
  { memorySnapshot with
    bindings := (∅ : Map String (List DaemonRef)).insert "client" [⟨"memory", "default", 9002⟩] }

theorem calls_in_scope_moved :
    ∃ s, Reachable (Created memorySession) (step CanonicalNumbers.plainJSON memorySession) always s ∧
      s.resolutions.map Resolution.ref =
        [⟨"memory", "default", 9001, "read"⟩, ⟨"memory", "default", 9002, "read"⟩] ∧
      ∀ r ∈ s.resolutions, InScope memorySession r.seen r.ref := by
  refine (exists_reachable (step CanonicalNumbers.plainJSON memorySession) memoryStart
    (opened ++ called 1 ['a'] ++ [.publish movedSnapshot, .posted 1 (.retriable "refused")] ++
      reinitialized 1 0 "second" ++ called 2 ['b']) memoryStart_created ?_).imp
    (fun s found => ⟨found.1, found.2, (calls_in_scope found.1).2.1⟩)
  decide +kernel

end McpLocalHub.Hub.ScopeSafety
