/- Module: Hub/MergeOrder
   source: internal/api/hub_mcp_aggregator.go
   digest: The merge of the daemons' tools/list answers does not depend on any order. -/

import McpLocalHub.Foundation.KeySort
import McpLocalHub.Hub.ToolsList
import Mathlib.Data.Prod.Lex

set_option autoImplicit false

namespace McpLocalHub.Hub.MergeOrder

open Foundation Foundation.Maps Foundation.RawJSON ToolsList List

structure Answer where
  ref : DaemonRef
  reply : Except String (List Line)

def Answer.result (a : Answer) : ListResult :=
  match a.reply with
  | .error err => ⟨a.ref, .error err⟩
  | .ok tools => ⟨a.ref, .ok (nameSpaceTools a.ref tools)⟩

def exposedName (server rawName : String) : String := server ++ "__" ++ rawName

/-- A daemon that answered offers a tool of the raw name, and the scope does not hide it. -/
def Offers (hiddenSet : HiddenToolSet) (answers : List Answer) (ref : DaemonRef)
    (rawName : String) : Prop :=
  rawName ≠ "" ∧ hiddenSet.hides ref.server rawName = false ∧
    ∃ a ∈ answers, a.ref = ref ∧ ∃ tools, a.reply = .ok tools ∧
      ∃ fields, Line.object fields ∈ tools ∧ rawToolName fields = some rawName

def failureRows : Response → List DaemonFailure
  | .tools _ partialFailures _ => partialFailures
  | .allFailed partialFailures => partialFailures

def bodyName (body : Fields) : Option String :=
  match member body "name" with
  | some (.string name) => some name
  | _ => none

def toolNames : Response → List String
  | .tools tools _ _ => tools.filterMap bodyName
  | .allFailed _ => []

def refKey (ref : DaemonRef) : String ×ₗ (String ×ₗ ℕ) :=
  toLex (ref.server, toLex (ref.daemon, ref.port))

def shownKey (ref : DaemonRef) : String ×ₗ String := toLex (ref.server, ref.daemon)

theorem refKey_injective {a b : DaemonRef} (same : refKey a = refKey b) : a = b := by
  obtain ⟨server, daemon, port⟩ := a
  obtain ⟨server', daemon', port'⟩ := b
  have outer := Prod.mk.inj (toLex.injective same)
  have inner := Prod.mk.inj (toLex.injective outer.2)
  simp only [DaemonRef.mk.injEq]
  exact ⟨outer.1, inner.1, inner.2⟩

theorem decide_lt_eq_false {κ : Type} [LinearOrder κ] {a b : κ} :
    decide (b < a) = false ↔ a ≤ b := by
  rw [decide_eq_false_iff_not, not_lt]

theorem resultLess_iff (a b : ListResult) :
    resultLess b a = false ↔ refKey a.ref ≤ refKey b.ref := by
  unfold resultLess refKey
  rw [Prod.Lex.toLex_le_toLex, Prod.Lex.toLex_le_toLex]
  by_cases server : a.ref.server = b.ref.server
  · by_cases daemon : a.ref.daemon = b.ref.daemon
    · simp [server, daemon]
    · rw [if_neg (by simp [server]), if_pos (Ne.symm daemon), decide_lt_eq_false, le_iff_lt_or_eq]
      simp [server, daemon]
  · rw [if_pos (Ne.symm server), decide_lt_eq_false, le_iff_lt_or_eq]
    simp [server]

theorem refLess_iff (a b : DaemonRef) : refLess b a = false ↔ shownKey a ≤ shownKey b := by
  unfold refLess shownKey
  rw [Prod.Lex.toLex_le_toLex]
  by_cases server : a.server = b.server
  · rw [if_neg (by simp [server]), decide_lt_eq_false]
    simp [server]
  · rw [if_pos (Ne.symm server), decide_lt_eq_false, le_iff_lt_or_eq]
    simp [server]

theorem exposedLess_iff (a b : NamespacedTool) : exposedLess b a = false ↔ a.exposed ≤ b.exposed :=
  decide_lt_eq_false

variable {results : List ListResult} {ref : DaemonRef} {hiddenSet : HiddenToolSet}
  {exposed : String}

theorem sortBy_results_eq {results' : List ListResult}
    (distinct : (results.map ListResult.ref).Nodup) (reordered : results.Perm results') :
    sortBy resultLess results = sortBy resultLess results' := by
  have apart : (results.map (fun r => refKey r.ref)).Nodup := by
    have mapped := distinct.map (fun a b same => refKey_injective same)
    rwa [map_map] at mapped
  exact KeySort.eq_of_perm (fun a _ b _ => resultLess_iff a b) apart reordered

theorem collisionRows_perm (exposed : String) {claimants claimants' : List DaemonRef}
    (reordered : claimants.Perm claimants') :
    collisionRows exposed claimants = collisionRows exposed claimants' := by
  have shown : (sortBy refLess claimants).map shownKey = (sortBy refLess claimants').map shownKey :=
    KeySort.map_key_eq_of_perm (fun a _ b _ => refLess_iff a b) reordered
  have through : ∀ {β : Type} (f : String → String → β) (refs : List DaemonRef),
      refs.map (fun ref => f ref.server ref.daemon) =
        (refs.map shownKey).map (fun key => f (ofLex key).1 (ofLex key).2) := by
    intro β f refs
    rw [map_map]
    rfl
  unfold collisionRows
  simp only
  rw [through (fun server daemon => server ++ "/" ++ daemon) (sortBy refLess claimants),
    through (fun server daemon => server ++ "/" ++ daemon) (sortBy refLess claimants'), shown]
  generalize ", ".intercalate _ = joined
  rw [through (fun server daemon => DaemonFailure.mk server daemon .atToolsList _)
      (sortBy refLess claimants),
    through (fun server daemon => DaemonFailure.mk server daemon .atToolsList _)
      (sortBy refLess claimants'), shown]

theorem collision_rows_drained (hiddenSet : HiddenToolSet) (results : List ListResult)
    {keys : List String} {claimants : String → List DaemonRef}
    (drainedKeys : keys.Perm (collisionKeys hiddenSet results))
    (drainedRefs : ∀ k, (claimants k).Perm (keyDaemons hiddenSet results k)) :
    (sortBy (fun a b => decide (a < b)) keys).flatMap (fun k => collisionRows k (claimants k)) =
      (collisionKeys hiddenSet results).flatMap
        (fun k => collisionRows k (keyDaemons hiddenSet results k)) := by
  have byName : ∀ a b : String, decide (b < a) = false ↔ id a ≤ id b :=
    fun _ _ => decide_lt_eq_false
  have source : (collisionKeys hiddenSet results).Nodup := by
    exact (perm_insertionSort _ _).nodup_iff.mpr ((nodup_dedup _).filter _)
  have sorted : sortBy (fun a b => decide (a < b)) keys = collisionKeys hiddenSet results := by
    have apart : (keys.map id).Nodup := by
      rw [map_id]
      exact drainedKeys.nodup_iff.mpr source
    exact KeySort.eq_of_perm (fun a _ b _ => byName a b) apart (drainedKeys.trans (perm_insertionSort _ _))
  rw [sorted]
  exact flatMap_congr (fun k _ => collisionRows_perm k (drainedRefs k))

section Merge

variable {hiddenSet : HiddenToolSet} {collision : String → Bool}

def offeredTools (results : List ListResult) : List NamespacedTool :=
  results.flatMap (fun r => r.tools.toOption.getD [])

structure Merged (hiddenSet : HiddenToolSet) (collision : String → Bool)
    (tools : List NamespacedTool) (acc : Merge) : Prop where
  seen : acc.seenExposed = (acc.flatTools.map NamespacedTool.exposed).reverse
  distinct : (acc.flatTools.map NamespacedTool.exposed).Nodup
  clear : ∀ t ∈ acc.flatTools, collision t.exposed = false
  complete : ∀ t ∈ tools, visible hiddenSet t = true → collision t.exposed = false →
    t.exposed ∈ acc.flatTools.map NamespacedTool.exposed

variable {tools : List NamespacedTool} {acc : Merge}

theorem mergeTool_merged (t : NamespacedTool) (merged : Merged hiddenSet collision tools acc) :
    Merged hiddenSet collision (tools ++ [t]) (mergeTool hiddenSet collision acc t) := by
  have earlier {after : Merge} (grows : ∀ name ∈ acc.flatTools.map NamespacedTool.exposed,
        name ∈ after.flatTools.map NamespacedTool.exposed)
      (own : visible hiddenSet t = true → collision t.exposed = false →
        t.exposed ∈ after.flatTools.map NamespacedTool.exposed) :
      ∀ x ∈ tools ++ [t], visible hiddenSet x = true → collision x.exposed = false →
        x.exposed ∈ after.flatTools.map NamespacedTool.exposed := by
    intro x listed shown free
    rcases mem_append.mp listed with before | last
    · exact grows _ (merged.complete x before shown free)
    · obtain rfl := mem_singleton.mp last
      exact own shown free
  unfold mergeTool
  split_ifs with dropped hidden
  · refine ⟨merged.seen, merged.distinct, merged.clear, earlier (fun _ => id) ?_⟩
    intro _ free
    rcases dropped with collides | seen
    · rw [free] at collides
      cases collides
    · rw [merged.seen, mem_reverse] at seen
      exact seen
  · refine ⟨merged.seen, merged.distinct, merged.clear, earlier (fun _ => id) ?_⟩
    intro shown _
    rw [hidden] at shown
    cases shown
  · obtain ⟨free, fresh⟩ := not_or.mp dropped
    rw [merged.seen, mem_reverse] at fresh
    constructor
    · simp [merged.seen]
    · rw [map_append, nodup_append]
      refine ⟨merged.distinct, nodup_singleton _, ?_⟩
      intro name listed last own same
      rw [map_singleton, mem_singleton] at own
      exact fresh (own ▸ same ▸ listed)
    · refine forall_mem_append.mpr ⟨merged.clear, forall_mem_singleton.mpr ?_⟩
      simpa using free
    · apply earlier
      · intro name listed
        rw [map_append]
        exact mem_append_left _ listed
      · intro _ _
        simp

theorem mergeTools_merged (more : List NamespacedTool)
    (merged : Merged hiddenSet collision tools acc) :
    Merged hiddenSet collision (tools ++ more)
      (more.foldl (mergeTool hiddenSet collision) acc) := by
  induction more generalizing tools acc with
  | nil => rwa [append_nil]
  | cons t rest ih =>
    have later := ih (mergeTool_merged t merged)
    rwa [append_assoc, singleton_append] at later

theorem mergeResult_merged (r : ListResult) (merged : Merged hiddenSet collision tools acc) :
    Merged hiddenSet collision (tools ++ r.tools.toOption.getD [])
      (mergeResult hiddenSet collision acc r) := by
  unfold mergeResult
  cases answered : r.tools with
  | error err =>
    rw [show (Except.error err : Except String (List NamespacedTool)).toOption.getD [] = [] from rfl,
      append_nil]
    exact ⟨merged.seen, merged.distinct, merged.clear, merged.complete⟩
  | ok more =>
    exact mergeTools_merged more
      ⟨merged.seen, merged.distinct, merged.clear, merged.complete⟩

theorem mergeResults_merged (results : List ListResult)
    (merged : Merged hiddenSet collision tools acc) :
    Merged hiddenSet collision (tools ++ offeredTools results)
      (results.foldl (mergeResult hiddenSet collision) acc) := by
  induction results generalizing tools acc with
  | nil => simpa [offeredTools] using merged
  | cons r rest ih =>
    have later := ih (mergeResult_merged r merged)
    rwa [append_assoc] at later

def listFailure (r : ListResult) : Option DaemonFailure :=
  match r.tools with
  | .error err => some ⟨r.ref.server, r.ref.daemon, .atToolsList, [.plain err]⟩
  | .ok _ => none

theorem mergeTools_frame (tools : List NamespacedTool) (acc : Merge) :
    (tools.foldl (mergeTool hiddenSet collision) acc).listFailures = acc.listFailures ∧
      (tools.foldl (mergeTool hiddenSet collision) acc).listSuccessCount = acc.listSuccessCount := by
  induction tools generalizing acc with
  | nil => exact ⟨rfl, rfl⟩
  | cons t rest ih =>
    have step : (mergeTool hiddenSet collision acc t).listFailures = acc.listFailures ∧
        (mergeTool hiddenSet collision acc t).listSuccessCount = acc.listSuccessCount := by
      unfold mergeTool
      split_ifs <;> exact ⟨rfl, rfl⟩
    obtain ⟨failures, count⟩ := ih (mergeTool hiddenSet collision acc t)
    exact ⟨failures.trans step.1, count.trans step.2⟩

theorem mergeResults_counts (results : List ListResult) (acc : Merge) :
    (results.foldl (mergeResult hiddenSet collision) acc).listFailures =
        acc.listFailures ++ results.filterMap listFailure ∧
      (results.foldl (mergeResult hiddenSet collision) acc).listSuccessCount =
        acc.listSuccessCount + results.countP (fun r => r.tools.toOption.isSome) := by
  induction results generalizing acc with
  | nil => simp
  | cons r rest ih =>
    obtain ⟨failures, count⟩ := ih (mergeResult hiddenSet collision acc r)
    rw [foldl_cons, failures, count]
    cases answered : r.tools with
    | error err =>
      simp [mergeResult, answered, listFailure, Except.toOption]
    | ok tools =>
      have frame := @mergeTools_frame hiddenSet collision tools
        { acc with listSuccessCount := acc.listSuccessCount + 1 }
      simp only [mergeResult, answered, frame, filterMap_cons, listFailure,
        countP_cons, Except.toOption, Option.isSome_some, if_true, true_and]
      omega

end Merge

variable {t : NamespacedTool} {tools : List NamespacedTool} {answers : List Answer}

theorem nameSpaceTool_iff {line : Line} :
    nameSpaceTool ref line = some t ↔ ∃ fields rawName, line = .object fields ∧
      rawToolName fields = some rawName ∧ rawName ≠ "" ∧
      t = ⟨exposedName ref.server rawName,
        setMember "name" (.string (exposedName ref.server rawName)) fields,
        ⟨ref.server, ref.daemon, ref.port, rawName⟩⟩ := by
  cases line with
  | malformed => simp [nameSpaceTool]
  | object fields =>
    unfold nameSpaceTool
    simp only
    split
    · rename_i unnamed
      simp [unnamed]
    · rename_i empty
      simp [empty]
    · rename_i rawName nonempty named
      constructor
      · intro made
        exact ⟨fields, rawName, rfl, named, fun empty => nonempty empty,
          (Option.some.inj made).symm⟩
      · rintro ⟨_, other, ⟨⟩, again, _, rfl⟩
        obtain rfl := Option.some.inj (named.symm.trans again)
        rfl

theorem mem_result_tools {a : Answer} (answered : a.result.tools = .ok tools) (listed : t ∈ tools) :
    t.ref.daemonRef = a.ref ∧ t.ref.rawName ≠ "" ∧
      t.exposed = exposedName a.ref.server t.ref.rawName ∧
      member t.body "name" = some (.string t.exposed) ∧
      ∃ lines, a.reply = .ok lines ∧ ∃ fields, Line.object fields ∈ lines ∧
        rawToolName fields = some t.ref.rawName := by
  unfold Answer.result at answered
  cases reply : a.reply with
  | error err =>
    rw [reply] at answered
    cases answered
  | ok lines =>
    rw [reply] at answered
    cases answered
    obtain ⟨line, among, made⟩ := mem_filterMap.mp listed
    obtain ⟨fields, rawName, rfl, named, nonempty, rfl⟩ := nameSpaceTool_iff.mp made
    exact ⟨rfl, nonempty, rfl, member_setMember_self _ _ _, lines, rfl, fields, among, named⟩

theorem offers_iff_visible {rawName : String} :
    Offers hiddenSet answers ref rawName ↔ ∃ a ∈ answers, a.ref = ref ∧
      ∃ tools, a.result.tools = .ok tools ∧ ∃ t ∈ tools, t.ref.rawName = rawName ∧
        visible hiddenSet t = true := by
  constructor
  · rintro ⟨nonempty, shown, a, listed, rfl, lines, reply, fields, among, named⟩
    refine ⟨a, listed, rfl, nameSpaceTools a.ref lines, by rw [Answer.result, reply], ?_⟩
    refine ⟨_, mem_filterMap.mpr ⟨_, among, nameSpaceTool_iff.mpr
      ⟨fields, rawName, rfl, named, nonempty, rfl⟩⟩, rfl, ?_⟩
    simp [visible, shown]
  · rintro ⟨a, listed, rfl, tools, answered, t, among, rfl, shown⟩
    obtain ⟨own, nonempty, _, _, lines, reply, fields, inLines, named⟩ :=
      mem_result_tools answered among
    refine ⟨nonempty, ?_, a, listed, rfl, lines, reply, fields, inLines, named⟩
    have server : t.ref.server = a.ref.server := congrArg DaemonRef.server own
    simpa [visible, server] using shown

theorem mem_keyDaemons (same : results.Perm (answers.map Answer.result)) :
    ref ∈ keyDaemons hiddenSet results exposed ↔
      ∃ rawName, Offers hiddenSet answers ref rawName ∧ exposed = exposedName ref.server rawName := by
  have refOf (a : Answer) : a.result.ref = a.ref := by
    unfold Answer.result
    split <;> rfl
  unfold keyDaemons
  rw [mem_dedup, mem_filterMap]
  constructor
  · rintro ⟨r, listed, claims⟩
    obtain ⟨a, among, rfl⟩ := mem_map.mp (same.mem_iff.mp listed)
    cases answered : a.result.tools with
    | error err =>
      simp only [answered] at claims
      cases claims
    | ok tools =>
      simp only [answered] at claims
      split_ifs at claims with offered
      obtain rfl : a.result.ref = ref := Option.some.inj claims
      obtain ⟨t, inTools, both⟩ := any_eq_true.mp offered
      obtain ⟨key, shown⟩ := (Bool.and_eq_true _ _).mp both
      obtain ⟨_, _, name, _⟩ := mem_result_tools answered inTools
      refine ⟨t.ref.rawName, offers_iff_visible.mpr
        ⟨a, among, (refOf a).symm, tools, answered, t, inTools, rfl, shown⟩, ?_⟩
      rw [← of_decide_eq_true key, name, refOf]
  · rintro ⟨rawName, offers, rfl⟩
    obtain ⟨a, among, rfl, tools, answered, t, inTools, rfl, shown⟩ := offers_iff_visible.mp offers
    refine ⟨a.result, same.mem_iff.mpr (mem_map_of_mem among), ?_⟩
    obtain ⟨_, _, name, _⟩ := mem_result_tools answered inTools
    have offered : tools.any (fun x => decide (x.exposed = exposedName a.ref.server t.ref.rawName) &&
        visible hiddenSet x) = true :=
      any_eq_true.mpr ⟨t, inTools, by simp [name, shown]⟩
    simp only [answered, offered, if_true, refOf]

theorem collides_eq_false_iff : collides hiddenSet results exposed = false ↔
      ∀ ref ∈ keyDaemons hiddenSet results exposed,
        ∀ other ∈ keyDaemons hiddenSet results exposed, ref = other := by
  have distinct : (keyDaemons hiddenSet results exposed).Nodup := nodup_dedup _
  unfold collides
  rw [decide_eq_false_iff_not, not_lt]
  generalize keyDaemons hiddenSet results exposed = refs at distinct ⊢
  constructor
  · intro short ref listed other listedToo
    rcases refs with _ | ⟨single, _ | ⟨second, rest⟩⟩
    · cases listed
    · rw [mem_singleton.mp listed, mem_singleton.mp listedToo]
    · simp only [length_cons] at short
      omega
  · intro equal
    rcases refs with _ | ⟨first, _ | ⟨second, rest⟩⟩
    · exact Nat.zero_le _
    · exact le_rfl
    · have same : first = second := equal first (by simp) second (by simp)
      exact absurd (same ▸ mem_cons_self) (nodup_cons.mp distinct).1

/-- The scopes for which an empty list is no failure. -/
def KnownEmpty (allowEmptyKnown : Bool) (intendedParticipants : List DaemonRef)
    (scopeKey : String) : Prop :=
  allowEmptyKnown = true ∨ (intendedParticipants = [] ∧ isGroupScope scopeKey = true)

def mergedTools (hiddenSet : HiddenToolSet) (sorted : List ListResult) : List NamespacedTool :=
  sortBy exposedLess
    (sorted.foldl (mergeResult hiddenSet (collides hiddenSet sorted)) {}).flatTools

section Assembled

variable {hiddenSet : HiddenToolSet} {results : List ListResult}
  {initFailures : List DaemonFailure} {intendedParticipants : List DaemonRef} {scopeKey : String}
  {allowEmptyKnown : Bool} {liveSnapshot : Option ResolverSnapshot}

theorem assembled_rows :
    failureRows (assembleToolsListResponse hiddenSet results initFailures intendedParticipants
        scopeKey allowEmptyKnown liveSnapshot).1 =
      initFailures ++ (sortBy resultLess results).filterMap listFailure ++
        (collisionKeys hiddenSet (sortBy resultLess results)).flatMap
          (fun k => collisionRows k (keyDaemons hiddenSet (sortBy resultLess results) k)) := by
  have counts := (@mergeResults_counts hiddenSet
    (collides hiddenSet (sortBy resultLess results)) (sortBy resultLess results) {}).1
  rw [nil_append] at counts
  rw [← counts]
  unfold assembleToolsListResponse
  simp only
  split_ifs <;> rfl

theorem assembled_some {routes : Map String ToolRef}
    (published : (assembleToolsListResponse hiddenSet results initFailures intendedParticipants
      scopeKey allowEmptyKnown liveSnapshot).2 = some routes) :
    routes = mergedRoutes (mergedTools hiddenSet (sortBy resultLess results)) ∧
      toolNames (assembleToolsListResponse hiddenSet results initFailures intendedParticipants
        scopeKey allowEmptyKnown liveSnapshot).1 =
      ((mergedTools hiddenSet (sortBy resultLess results)).map NamespacedTool.body).filterMap
        bodyName := by
  unfold assembleToolsListResponse at published ⊢
  simp only at published ⊢
  split_ifs at published ⊢
  all_goals exact ⟨(Option.some.inj published).symm, rfl⟩

theorem assembled_isSome_iff :
    (∃ routes, (assembleToolsListResponse hiddenSet results initFailures intendedParticipants
      scopeKey allowEmptyKnown liveSnapshot).2 = some routes) ↔
      (∃ r ∈ results, ∃ tools, r.tools = .ok tools) ∨
        KnownEmpty allowEmptyKnown intendedParticipants scopeKey := by
  have noSuccess : ((sortBy resultLess results).foldl (mergeResult hiddenSet
      (collides hiddenSet (sortBy resultLess results))) {}).listSuccessCount = 0 ↔
      ¬ ∃ r ∈ results, ∃ tools, r.tools = .ok tools := by
    rw [(mergeResults_counts _ _).2, Nat.zero_add, countP_eq_zero]
    constructor
    · rintro none ⟨r, listed, tools, answered⟩
      exact none r (mem_sortBy.mpr listed) (by simp [answered, Except.toOption])
    · intro none r listed answered
      cases reply : r.tools with
      | error err => simp [reply, Except.toOption] at answered
      | ok tools => exact none ⟨r, mem_sortBy.mp listed, tools, reply⟩
  unfold assembleToolsListResponse
  simp only [noSuccess, KnownEmpty]
  split_ifs with failed known <;> simp_all

end Assembled

theorem mergedRoutes_lookup_iff
    (distinct : (tools.map NamespacedTool.exposed).Nodup) {ref : ToolRef} :
    (mergedRoutes tools).lookup exposed = some ref ↔
      ∃ t ∈ tools, t.exposed = exposed ∧ t.ref = ref := by
  refine ⟨mergedRoutes_lookup, ?_⟩
  rintro ⟨t, listed, rfl, rfl⟩
  exact (lookup_filled NamespacedTool.exposed NamespacedTool.ref distinct).1 t listed

/-- What the response and the routes of a merge are to each other and to the answers. -/
structure Unambiguous (hiddenSet : HiddenToolSet) (answers : List Answer) (response : Response)
    (routes : Map String ToolRef) : Prop where
  increasing : (toolNames response).Pairwise (· < ·)
  keys : ∀ k, k ∈ toolNames response ↔ (routes.lookup k).isSome = true
  present : ∀ k, (routes.lookup k).isSome = true ↔
    (∃ ref rawName, Offers hiddenSet answers ref rawName ∧ k = exposedName ref.server rawName) ∧
      ∀ ref rawName ref' rawName', Offers hiddenSet answers ref rawName →
        Offers hiddenSet answers ref' rawName' → k = exposedName ref.server rawName →
        k = exposedName ref'.server rawName' → ref = ref'
  route : ∀ k ref, routes.lookup k = some ref →
    Offers hiddenSet answers ref.daemonRef ref.rawName ∧ k = exposedName ref.server ref.rawName

/-- What a failure row can be about. A collision row is about claimants whose own tool of that name
is not hidden. -/
inductive Attributed (hiddenSet : HiddenToolSet) (answers : List Answer)
    (initFailures : List DaemonFailure) (row : DaemonFailure) : Prop
  | opening (listed : row ∈ initFailures)
  | list (a : Answer) (listed : a ∈ answers) (err : String) (failed : a.reply = .error err)
      (told : row = ⟨a.ref.server, a.ref.daemon, .atToolsList, [.plain err]⟩)
  | collision (exposed : String) (claimants : List DaemonRef)
      (listed : row ∈ collisionRows exposed claimants)
      (shown : ∀ ref ∈ claimants, ∀ rawName, exposed = exposedName ref.server rawName →
        hiddenSet.hides ref.server rawName = false)

section Answers

variable {hiddenSet : HiddenToolSet} {answers : List Answer} {sorted : List ListResult}

/-- Visible tools of the answers, under distinct names, and every name that only one daemon claims.
-/
theorem mem_mergedTools (same : sorted.Perm (answers.map Answer.result)) {t : NamespacedTool}
    (listed : t ∈ mergedTools hiddenSet sorted) :
    Offers hiddenSet answers t.ref.daemonRef t.ref.rawName ∧
      t.exposed = exposedName t.ref.server t.ref.rawName ∧
      member t.body "name" = some (.string t.exposed) := by
  rcases mergeResults_flat hiddenSet (mem_sortBy.mp listed) with inEmpty | ⟨shown, r, among, tools,
    answered, inTools⟩
  · cases inEmpty
  obtain ⟨a, inAnswers, rfl⟩ := mem_map.mp (same.mem_iff.mp among)
  obtain ⟨own, _, exposed, named, _⟩ := mem_result_tools answered inTools
  refine ⟨offers_iff_visible.mpr ⟨a, inAnswers, own.symm, tools, answered, t, inTools, rfl, shown⟩,
    ?_, named⟩
  rw [exposed, ← own]
  rfl

theorem merged_results (hiddenSet : HiddenToolSet) (sorted : List ListResult) :
    Merged hiddenSet (collides hiddenSet sorted) (offeredTools sorted)
      (sorted.foldl (mergeResult hiddenSet (collides hiddenSet sorted)) {}) := by
  have start : Merged hiddenSet (collides hiddenSet sorted) [] {} :=
    ⟨rfl, nodup_nil, by simp, by simp⟩
  simpa using mergeResults_merged sorted start

theorem mergedTools_distinct (hiddenSet : HiddenToolSet) (sorted : List ListResult) :
    ((mergedTools hiddenSet sorted).map NamespacedTool.exposed).Nodup := by
  have merged := merged_results hiddenSet sorted
  exact ((perm_insertionSort _ _).map _).nodup_iff.mpr merged.distinct

section

variable (same : sorted.Perm (answers.map Answer.result))

include same

theorem mem_mergedTools_exposed {k : String} :
    k ∈ (mergedTools hiddenSet sorted).map NamespacedTool.exposed ↔
      (∃ ref, ref ∈ keyDaemons hiddenSet sorted k) ∧ collides hiddenSet sorted k = false := by
  have merged := merged_results hiddenSet sorted
  constructor
  · intro listed
    obtain ⟨t, among, rfl⟩ := mem_map.mp listed
    obtain ⟨offers, exposed, _⟩ := mem_mergedTools same among
    exact ⟨⟨t.ref.daemonRef, (mem_keyDaemons same).mpr ⟨t.ref.rawName, offers, exposed⟩⟩,
      merged.clear t (mem_sortBy.mp among)⟩
  · rintro ⟨⟨ref, claims⟩, free⟩
    obtain ⟨rawName, offers, rfl⟩ := (mem_keyDaemons same).mp claims
    obtain ⟨a, among, rfl, tools, answered, t, inTools, rfl, shown⟩ := offers_iff_visible.mp offers
    obtain ⟨_, _, exposed, _⟩ := mem_result_tools answered inTools
    have offered : t ∈ offeredTools sorted := by
      refine mem_flatMap.mpr ⟨a.result, same.mem_iff.mpr (mem_map_of_mem among), ?_⟩
      rw [answered]
      exact inTools
    rw [← exposed] at free ⊢
    have listed := merged.complete t offered shown free
    exact ((perm_insertionSort _ _).map _).mem_iff.mpr listed

theorem unambiguous_of_merged {response : Response}
    (names : toolNames response =
      ((mergedTools hiddenSet sorted).map NamespacedTool.body).filterMap bodyName) :
    Unambiguous hiddenSet answers response (mergedRoutes (mergedTools hiddenSet sorted)) := by
  have distinct := mergedTools_distinct hiddenSet sorted
  have shownNames : toolNames response =
      (mergedTools hiddenSet sorted).map NamespacedTool.exposed := by
    rw [names, filterMap_map, ← filterMap_eq_map]
    refine filterMap_congr (fun t listed => ?_)
    obtain ⟨_, _, named⟩ := mem_mergedTools same listed
    simp only [Function.comp_apply, bodyName, named]
  have isKey (k : String) : k ∈ (mergedTools hiddenSet sorted).map NamespacedTool.exposed ↔
      ((mergedRoutes (mergedTools hiddenSet sorted)).lookup k).isSome = true := by
    rw [Option.isSome_iff_exists, mem_map]
    constructor
    · rintro ⟨t, listed, rfl⟩
      exact ⟨t.ref, (mergedRoutes_lookup_iff distinct).mpr ⟨t, listed, rfl, rfl⟩⟩
    · rintro ⟨ref, found⟩
      obtain ⟨t, listed, exposed, _⟩ := (mergedRoutes_lookup_iff distinct).mp found
      exact ⟨t, listed, exposed⟩
  refine ⟨?_, fun k => ?_, fun k => ?_, fun k ref found => ?_⟩
  · rw [shownNames]
    refine KeySort.map_key_strict (fun a _ b _ => exposedLess_iff a b) ?_
    exact ((perm_insertionSort _ _).map _).nodup_iff.mp distinct
  · rw [shownNames, isKey]
  · rw [← isKey, mem_mergedTools_exposed same, collides_eq_false_iff]
    constructor
    · rintro ⟨⟨ref, claims⟩, single⟩
      obtain ⟨rawName, offers, exposed⟩ := (mem_keyDaemons same).mp claims
      refine ⟨⟨ref, rawName, offers, exposed⟩, ?_⟩
      intro first firstName second secondName firstOffers secondOffers firstKey secondKey
      exact single first ((mem_keyDaemons same).mpr ⟨firstName, firstOffers, firstKey⟩)
        second ((mem_keyDaemons same).mpr ⟨secondName, secondOffers, secondKey⟩)
    · rintro ⟨⟨ref, rawName, offers, exposed⟩, single⟩
      refine ⟨⟨ref, (mem_keyDaemons same).mpr ⟨rawName, offers, exposed⟩⟩, ?_⟩
      intro first firstClaims second secondClaims
      obtain ⟨firstName, firstOffers, firstKey⟩ := (mem_keyDaemons same).mp firstClaims
      obtain ⟨secondName, secondOffers, secondKey⟩ := (mem_keyDaemons same).mp secondClaims
      exact single first firstName second secondName firstOffers secondOffers firstKey secondKey
  · obtain ⟨t, listed, rfl, rfl⟩ := (mergedRoutes_lookup_iff distinct).mp found
    obtain ⟨offers, exposed, _⟩ := mem_mergedTools same listed
    exact ⟨offers, exposed⟩

theorem attributed_rows
    {initFailures : List DaemonFailure} {row : DaemonFailure}
    (listed : row ∈ initFailures ++ sorted.filterMap listFailure ++
      (collisionKeys hiddenSet sorted).flatMap
        (fun k => collisionRows k (keyDaemons hiddenSet sorted k))) :
    Attributed hiddenSet answers initFailures row := by
  rcases mem_append.mp listed with early | collided
  · rcases mem_append.mp early with before | failed
    · exact .opening before
    · obtain ⟨r, among, made⟩ := mem_filterMap.mp failed
      obtain ⟨a, inAnswers, rfl⟩ := mem_map.mp (same.mem_iff.mp among)
      unfold Answer.result listFailure at made
      cases reply : a.reply with
      | error err =>
        rw [reply] at made
        cases made
        exact .list a inAnswers err reply rfl
      | ok tools =>
        rw [reply] at made
        cases made
  · obtain ⟨exposed, _, inRows⟩ := mem_flatMap.mp collided
    refine .collision exposed (keyDaemons hiddenSet sorted exposed) inRows ?_
    intro ref claims rawName key
    obtain ⟨own, offers, ownKey⟩ := (mem_keyDaemons same).mp claims
    have cancelled : own = rawName := by
      have texts := congrArg String.toList (ownKey.symm.trans key)
      simp only [exposedName, String.toList_append, append_cancel_left_eq] at texts
      exact String.toList_inj.mp texts
    exact cancelled ▸ offers.2.1

end

end Answers

def readers : List Answer :=
  [⟨⟨"fs", "main", 4001⟩, .ok [.object [("name", .string "read")], .object [("name", .string "write")]]⟩,
    ⟨⟨"fs", "spare", 4002⟩, .ok [.object [("name", .string "read")]]⟩]

end McpLocalHub.Hub.MergeOrder
