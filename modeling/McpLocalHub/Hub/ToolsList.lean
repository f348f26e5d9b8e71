/- Module: Hub/ToolsList
   source: internal/api/hub_mcp_resolver.go, internal/api/hub_mcp_aggregator.go
   digest: The resolver snapshot, and what tools/list makes of the daemons' answers. -/

import McpLocalHub.Foundation.GoText
import McpLocalHub.Foundation.Maps
import McpLocalHub.Foundation.RawJSON
import Mathlib.Data.List.Dedup
import Mathlib.Data.List.Sort
import Mathlib.Data.String.Basic

set_option autoImplicit false

namespace McpLocalHub.Hub.ToolsList

open Foundation.GoText Foundation.Maps Foundation.RawJSON List

structure DaemonRef where
  server : String
  daemon : String
  port : ℕ
  deriving DecidableEq

structure ToolRef where
  server : String
  daemon : String
  port : ℕ
  rawName : String
  deriving DecidableEq

def ToolRef.daemonRef (ref : ToolRef) : DaemonRef := ⟨ref.server, ref.daemon, ref.port⟩

def sameDaemonIdentity (a b : DaemonRef) : Bool :=
  decide (a.server = b.server ∧ a.daemon = b.daemon)

structure ResolverSnapshot where
  bindings : Map String (List DaemonRef)
  toolsHidden : Map String (Map String (List String))
  groups : List String
  groupDeclaredMembers : Map String ℕ

def scopeBindings (snap : Option ResolverSnapshot) (scopeKey : String) : List DaemonRef :=
  (snap.bind (fun s => s.bindings.lookup scopeKey)).getD []

def liveDaemonBinding (snap : Option ResolverSnapshot) (scopeKey : String) (ref : DaemonRef) :
    Option DaemonRef :=
  (scopeBindings snap scopeKey).find? (fun b => sameDaemonIdentity b ref)

theorem liveDaemonBinding_spec {snap : Option ResolverSnapshot} {scopeKey : String}
    {ref live : DaemonRef} (found : liveDaemonBinding snap scopeKey ref = some live) :
    ⟨ref.server, ref.daemon, live.port⟩ ∈ scopeBindings snap scopeKey := by
  have same : sameDaemonIdentity live ref = true :=
    List.find?_some (p := fun b => sameDaemonIdentity b ref) found
  obtain ⟨server, daemon⟩ := of_decide_eq_true same
  rw [← server, ← daemon]
  exact mem_of_find?_eq_some found

def groupScopeKeyPrefix : String := "g:"

def isGroupScope (scopeKey : String) : Bool :=
  scopeKey.toList.take 2 = groupScopeKeyPrefix.toList

def snapshotKnowsScope (snap : Option ResolverSnapshot) (scopeKey : String) : Bool :=
  match snap with
  | none => false
  | some s =>
    (s.bindings.lookup scopeKey).isSome || (isGroupScope scopeKey && decide (scopeKey ∈ s.groups))

def groupDeclaredMemberCount (snap : Option ResolverSnapshot) (scopeKey : String) : ℕ :=
  (snap.bind (fun s => s.groupDeclaredMembers.lookup scopeKey)).getD 0

def snapshotHiddenToolsForScope (snap : Option ResolverSnapshot) (scopeKey : String) :
    Map String (List String) :=
  (snap.bind (fun s => s.toolsHidden.lookup scopeKey)).getD ∅

abbrev HiddenToolSet := Map String (List String)

def buildHiddenToolSet (filter : Map String (List String)) : HiddenToolSet :=
  filter.entries.foldl (fun set entry =>
    if entry.2 = [] then set else set.insert entry.1 entry.2.dedup) ∅

def HiddenToolSet.hides (set : HiddenToolSet) (server rawName : String) : Bool :=
  decide (rawName ∈ (set.lookup server).getD [])

def snapshotHidesTool (snap : Option ResolverSnapshot) (scopeKey : String) (ref : ToolRef) : Bool :=
  ((snapshotHiddenToolsForScope snap scopeKey).lookup ref.server).getD [] |>.any
    (fun hidden => decide (hidden = ref.rawName))

private theorem lookup_buildLoop (entries : List ((_ : String) × List String))
    (nodup : entries.NodupKeys) (set : HiddenToolSet) (server name : String)
    (fresh : ∀ key ∈ entries.keys, set.lookup key = none) :
    name ∈ ((entries.foldl (fun set entry =>
        if entry.2 = [] then set else set.insert entry.1 entry.2.dedup) set).lookup server).getD [] ↔
      name ∈ (set.lookup server).getD [] ∨ name ∈ (entries.dlookup server).getD [] := by
  induction entries generalizing set with
  | nil => simp
  | cons entry rest ih =>
    obtain ⟨key, names⟩ := entry
    obtain ⟨notLater, restNodup⟩ := nodupKeys_cons.mp nodup
    have keyFresh : set.lookup key = none := fresh key (by simp)
    have restFresh : ∀ later ∈ rest.keys, set.lookup later = none :=
      fun later listed => fresh later (by simp [listed])
    rw [foldl_cons]
    by_cases empty : names = []
    · rw [if_pos empty, ih restNodup set restFresh]
      by_cases same : server = key
      · subst same
        have absent : rest.dlookup server = none := dlookup_eq_none.mpr notLater
        rw [absent, dlookup_cons_eq, empty]
        simp
      · rw [dlookup_cons_ne rest (⟨key, names⟩ : (_ : String) × List String) same]
    · have insertFresh : ∀ later ∈ rest.keys, (set.insert key names.dedup).lookup later = none := by
        intro later listed
        have other : later ≠ key := fun same => notLater (same ▸ listed)
        rw [AList.lookup_insert_ne other]
        exact restFresh later listed
      rw [if_neg empty, ih restNodup _ insertFresh]
      by_cases same : server = key
      · subst same
        have absent : rest.dlookup server = none := dlookup_eq_none.mpr notLater
        rw [absent, dlookup_cons_eq, AList.lookup_insert, keyFresh]
        simp
      · rw [AList.lookup_insert_ne same,
          dlookup_cons_ne rest (⟨key, names⟩ : (_ : String) × List String) same]

theorem hides_buildHiddenToolSet (snap : Option ResolverSnapshot) (scopeKey : String)
    (ref : ToolRef) :
    HiddenToolSet.hides (buildHiddenToolSet (snapshotHiddenToolsForScope snap scopeKey))
      ref.server ref.rawName = snapshotHidesTool snap scopeKey ref := by
  generalize shape : snapshotHiddenToolsForScope snap scopeKey = filter
  have loop := lookup_buildLoop filter.entries filter.nodupKeys ∅ ref.server ref.rawName
    (fun _ _ => AList.lookup_empty _)
  unfold snapshotHidesTool HiddenToolSet.hides buildHiddenToolSet
  rw [shape, Bool.eq_iff_iff, decide_eq_true_iff, loop, any_eq_true]
  constructor
  · rintro (inEmpty | listed)
    · cases inEmpty
    · exact ⟨ref.rawName, listed, by simp⟩
  · rintro ⟨name, listed, same⟩
    have hit : name = ref.rawName := of_decide_eq_true same
    exact .inr (hit ▸ listed)

inductive Stage
  | atInitialize
  | atToolsList

structure DaemonFailure where
  server : String
  daemon : String
  stage : Stage
  err : Message

structure NamespacedTool where
  exposed : String
  body : Fields
  ref : ToolRef
  deriving DecidableEq

structure ListResult where
  ref : DaemonRef
  tools : Except String (List NamespacedTool)

/-- The raw name of a tool: a missing or null name reads as empty, and one that is no string drops
the tool. -/
def rawToolName (fields : Fields) : Option String :=
  match member fields "name" with
  | none | some .null => some ""
  | some (.string name) => some name
  | some _ => none

def nameSpaceTool (ref : DaemonRef) (tool : Line) : Option NamespacedTool :=
  match tool with
  | .malformed => none
  | .object fields =>
    match rawToolName fields with
    | none | some "" => none
    | some rawName =>
      let exposed := ref.server ++ "__" ++ rawName
      some ⟨exposed, setMember "name" (.string exposed) fields,
        ⟨ref.server, ref.daemon, ref.port, rawName⟩⟩

def nameSpaceTools (ref : DaemonRef) (tools : List Line) : List NamespacedTool :=
  tools.filterMap (nameSpaceTool ref)

def resultLess (a b : ListResult) : Bool :=
  if a.ref.server ≠ b.ref.server then decide (a.ref.server < b.ref.server)
  else if a.ref.daemon ≠ b.ref.daemon then decide (a.ref.daemon < b.ref.daemon)
  else decide (a.ref.port < b.ref.port)

def refLess (a b : DaemonRef) : Bool :=
  if a.server ≠ b.server then decide (a.server < b.server) else decide (a.daemon < b.daemon)

def exposedLess (a b : NamespacedTool) : Bool := decide (a.exposed < b.exposed)

def sortBy {α : Type} (less : α → α → Bool) (items : List α) : List α :=
  items.insertionSort (fun a b => less b a = false)

theorem mem_sortBy {α : Type} {less : α → α → Bool} {items : List α} {x : α} :
    x ∈ sortBy less items ↔ x ∈ items :=
  (perm_insertionSort _ items).mem_iff

def collisionRows (exposed : String) (claimants : List DaemonRef) : List DaemonFailure :=
  let refs := sortBy refLess claimants
  let joined := ", ".intercalate (refs.map (fun ref => ref.server ++ "/" ++ ref.daemon))
  refs.map (fun ref => ⟨ref.server, ref.daemon, .atToolsList,
    [.plain "namespace collision on exposed tool name ", .quoted exposed,
      .plain (" claimed by daemons: " ++ joined)]⟩)

section Assemble

variable (hiddenSet : HiddenToolSet)

def visible (tool : NamespacedTool) : Bool := !hiddenSet.hides tool.ref.server tool.ref.rawName

def keyDaemons (results : List ListResult) (exposed : String) : List DaemonRef :=
  (results.filterMap (fun r =>
    match r.tools with
    | .ok tools =>
      if tools.any (fun t => decide (t.exposed = exposed) && visible hiddenSet t) then some r.ref
      else none
    | .error _ => none)).dedup

def collides (results : List ListResult) (exposed : String) : Bool :=
  decide (1 < (keyDaemons hiddenSet results exposed).length)

def collisionKeys (results : List ListResult) : List String :=
  let exposed := results.flatMap (fun r =>
    match r.tools with
    | .ok tools => (tools.filter (visible hiddenSet)).map NamespacedTool.exposed
    | .error _ => [])
  sortBy (fun a b => decide (a < b)) (exposed.dedup.filter (collides hiddenSet results))

structure Merge where
  flatTools : List NamespacedTool := []
  seenExposed : List String := []
  listFailures : List DaemonFailure := []
  listSuccessCount : ℕ := 0
  hiddenDropCount : ℕ := 0
  otherDropCount : ℕ := 0

/-- Pass 2 on one tool: a collision, a repetition and a hidden tool are dropped, in this order. -/
def mergeTool (collision : String → Bool) (acc : Merge) (t : NamespacedTool) : Merge :=
  if collision t.exposed = true ∨ t.exposed ∈ acc.seenExposed then
    { acc with otherDropCount := acc.otherDropCount + 1 }
  else if visible hiddenSet t = false then
    { acc with hiddenDropCount := acc.hiddenDropCount + 1 }
  else
    { acc with
      seenExposed := t.exposed :: acc.seenExposed
      flatTools := acc.flatTools ++ [t] }

def mergeResult (collision : String → Bool) (acc : Merge) (r : ListResult) : Merge :=
  match r.tools with
  | .error err =>
    { acc with
      listFailures := acc.listFailures ++ [⟨r.ref.server, r.ref.daemon, .atToolsList, [.plain err]⟩] }
  | .ok tools =>
    tools.foldl (mergeTool hiddenSet collision)
      { acc with listSuccessCount := acc.listSuccessCount + 1 }

inductive EmptyReason
  | emptyGroup
  | allMembersUnresolved
  | allToolsHidden

/-- The tools with the failure rows and the reason of an empty list, or the error -32000 "all
participating daemons failed". -/
inductive Response
  | tools (tools : List Fields) (partialFailures : List DaemonFailure)
      (emptyReason : Option EmptyReason)
  | allFailed (partialFailures : List DaemonFailure)

def mergedRoutes (tools : List NamespacedTool) : Map String ToolRef :=
  tools.foldl (fun routes t => routes.insert t.exposed t.ref) ∅

/-- `assembleToolsListResponse`: the response, and the route map to store, if it is stored. -/
def assembleToolsListResponse (results : List ListResult) (initFailures : List DaemonFailure)
    (intendedParticipants : List DaemonRef) (scopeKey : String) (allowEmptyKnown : Bool)
    (liveSnapshot : Option ResolverSnapshot) : Response × Option (Map String ToolRef) :=
  let results := sortBy resultLess results
  let collision := collides hiddenSet results
  let collisionFailures := (collisionKeys hiddenSet results).flatMap (fun k =>
    collisionRows k (keyDaemons hiddenSet results k))
  let merge := results.foldl (mergeResult hiddenSet collision) {}
  let flatTools := sortBy exposedLess merge.flatTools
  let mergedTools := flatTools.map NamespacedTool.body
  let routes := mergedRoutes flatTools
  let participantFailureCount := initFailures.length + merge.listFailures.length
  let allFailures := initFailures ++ merge.listFailures ++ collisionFailures
  if merge.listSuccessCount = 0 then
    if allowEmptyKnown = true ∨ (intendedParticipants = [] ∧ isGroupScope scopeKey = true) then
      let reason : EmptyReason :=
        if groupDeclaredMemberCount liveSnapshot scopeKey = 0 then .emptyGroup
        else .allMembersUnresolved
      (.tools mergedTools allFailures (if mergedTools = [] then some reason else none), some routes)
    else (.allFailed allFailures, none)
  else
    let reason :=
      if mergedTools = [] ∧ 0 < merge.hiddenDropCount ∧ merge.otherDropCount = 0 ∧
          participantFailureCount = 0 then some EmptyReason.allToolsHidden
      else none
    (.tools mergedTools allFailures reason, some routes)

variable {collision : String → Bool} {acc : Merge} {x : NamespacedTool}

variable {t : NamespacedTool} {tools : List NamespacedTool} {results : List ListResult}
  {exposed : String} {ref : ToolRef}

theorem mergeTool_flat (listed : x ∈ (mergeTool hiddenSet collision acc t).flatTools) :
    x ∈ acc.flatTools ∨ x = t ∧ visible hiddenSet t = true := by
  unfold mergeTool at listed
  split_ifs at listed with dropped hidden
  · exact .inl listed
  · exact .inl listed
  · rcases mem_append.mp listed with before | last
    · exact .inl before
    · exact .inr ⟨mem_singleton.mp last, by simpa using hidden⟩

theorem mergeTools_flat (listed : x ∈ (tools.foldl (mergeTool hiddenSet collision) acc).flatTools) :
    x ∈ acc.flatTools ∨ x ∈ tools ∧ visible hiddenSet x = true := by
  induction tools generalizing acc with
  | nil => exact .inl listed
  | cons t rest ih =>
    rcases ih listed with before | ⟨later, seen⟩
    · rcases mergeTool_flat hiddenSet before with old | ⟨same, seen⟩
      · exact .inl old
      · exact .inr ⟨same ▸ mem_cons_self, same ▸ seen⟩
    · exact .inr ⟨mem_cons_of_mem t later, seen⟩

theorem mergeResults_flat
    (listed : x ∈ (results.foldl (mergeResult hiddenSet collision) acc).flatTools) :
    x ∈ acc.flatTools ∨
      visible hiddenSet x = true ∧ ∃ r ∈ results, ∃ tools, r.tools = .ok tools ∧ x ∈ tools := by
  induction results generalizing acc with
  | nil => exact .inl listed
  | cons r rest ih =>
    rcases ih listed with before | ⟨seen, later, inRest, tools, answered, offered⟩
    · unfold mergeResult at before
      split at before
      · exact .inl before
      · next tools answered =>
        rcases mergeTools_flat hiddenSet before with old | ⟨offered, seen⟩
        · exact .inl old
        · exact .inr ⟨seen, r, mem_cons_self, tools, answered, offered⟩
    · exact .inr ⟨seen, later, mem_cons_of_mem r inRest, tools, answered, offered⟩

theorem mergedRoutes_lookup (found : (mergedRoutes tools).lookup exposed = some ref) :
    ∃ t ∈ tools, t.exposed = exposed ∧ t.ref = ref := by
  have loop : ∀ (rest : List NamespacedTool) (routes : Map String ToolRef),
      (rest.foldl (fun routes t => routes.insert t.exposed t.ref) routes).lookup exposed = some ref →
      routes.lookup exposed = some ref ∨ ∃ t ∈ rest, t.exposed = exposed ∧ t.ref = ref := by
    intro rest
    induction rest with
    | nil => exact fun routes hit => .inl hit
    | cons t rest ih =>
      intro routes hit
      rcases ih _ hit with before | ⟨later, listed, same⟩
      · rcases lookup_insert_cases before with ⟨key, value⟩ | ⟨_, old⟩
        · exact .inr ⟨t, mem_cons_self, key.symm, value.symm⟩
        · exact .inl old
      · exact .inr ⟨later, mem_cons_of_mem t listed, same⟩
  rcases loop tools ∅ found with inEmpty | offered
  · cases inEmpty
  · exact offered

theorem assemble_routes {initFailures : List DaemonFailure}
    {intendedParticipants : List DaemonRef} {scopeKey : String} {allowEmptyKnown : Bool}
    {liveSnapshot : Option ResolverSnapshot} {response : Response} {routes : Map String ToolRef}
    (assembled : assembleToolsListResponse hiddenSet results initFailures intendedParticipants
      scopeKey allowEmptyKnown liveSnapshot = (response, some routes)) (found : routes.lookup exposed = some ref) :
    hiddenSet.hides ref.server ref.rawName = false ∧
      ∃ r ∈ results, ∃ tools, r.tools = .ok tools ∧ ∃ t ∈ tools, t.ref = ref := by
  have shape : routes = mergedRoutes (sortBy exposedLess ((sortBy resultLess results).foldl
      (mergeResult hiddenSet (collides hiddenSet (sortBy resultLess results))) {}).flatTools) := by
    simp only [assembleToolsListResponse] at assembled
    split_ifs at assembled <;>
      simp only [Prod.mk.injEq, Option.some.injEq, reduceCtorEq, and_false] at assembled <;>
      exact assembled.2.symm
  rw [shape] at found
  obtain ⟨t, listed, _, same⟩ := mergedRoutes_lookup found
  rcases mergeResults_flat hiddenSet (mem_sortBy.mp listed) with inEmpty | ⟨seen, r, inResults, tools, answered, offered⟩
  · cases inEmpty
  · have shown : hiddenSet.hides t.ref.server t.ref.rawName = false := by
      simpa [visible] using seen
    exact ⟨same ▸ shown, r, mem_sortBy.mp inResults, tools, answered, t, offered, same⟩

theorem nameSpaceTools_ref {ref : DaemonRef} {tools : List Line}
    (listed : t ∈ nameSpaceTools ref tools) : t.ref.daemonRef = ref := by
  obtain ⟨tool, _, made⟩ := mem_filterMap.mp listed
  unfold nameSpaceTool at made
  split at made
  · cases made
  · split at made
    · cases made
    · cases made
    · cases made
      rfl

end Assemble

end McpLocalHub.Hub.ToolsList
