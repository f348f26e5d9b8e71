/- Module: ReverseDeps/GraphInputs
   source: internal/vcpkgmcp/reversedepgraph/graph.go
   digest: Where the keys tell nodes and edges apart, the gathered graph is the input itself. -/

import McpLocalHub.ReverseDeps.Cycles

set_option autoImplicit false

namespace McpLocalHub.ReverseDeps.GraphInputs

open Foundation Foundation.Maps PackageGraph Cycles List

def inputNodes (rawNodes : List Node) (rawEdges : List Edge) : List Node :=
  (rawNodes ++ rawEdges.flatMap (fun edge => [edge.fromNode, edge.toNode])).map Node.normalized

def inputEdges (rawEdges : List Edge) : List Edge := rawEdges.map Edge.normalized

/-- Different nodes of the input have different keys, and so have different edges. -/
structure KeysTell (rawNodes : List Node) (rawEdges : List Edge) : Prop where
  nodes : ∀ a ∈ inputNodes rawNodes rawEdges, ∀ b ∈ inputNodes rawNodes rawEdges,
    a.key = b.key → a = b
  edges : ∀ a ∈ inputEdges rawEdges, ∀ b ∈ inputEdges rawEdges, a.key = b.key → a = b

instance (rawNodes : List Node) (rawEdges : List Edge) : Decidable (KeysTell rawNodes rawEdges) :=
  decidable_of_iff _ ⟨fun both => KeysTell.mk both.1 both.2, fun tell => And.intro tell.nodes tell.edges⟩

section Gathered

variable {rawNodes rawNodes' : List Node} {rawEdges rawEdges' : List Edge}

theorem nodes_foldl_addNode (nodes : List Node) (g : Graph) :
    (nodes.foldl Graph.addNode g).nodes =
        (nodes.map Node.normalized).foldl (fun m node => m.insert node.key node) g.nodes ∧
      (nodes.foldl Graph.addNode g).edges = g.edges := by
  induction nodes generalizing g with
  | nil => exact ⟨rfl, rfl⟩
  | cons first rest ih => exact ih (g.addNode first)

theorem maps_foldl_addEdge (edges : List Edge) (g : Graph) :
    (edges.foldl Graph.addEdge g).nodes =
        ((edges.flatMap (fun edge => [edge.fromNode, edge.toNode])).map Node.normalized).foldl
          (fun m node => m.insert node.key node) g.nodes ∧
      (edges.foldl Graph.addEdge g).edges =
        (inputEdges edges).foldl (fun m edge => m.insert edge.key edge) g.edges := by
  induction edges generalizing g with
  | nil => exact ⟨rfl, rfl⟩
  | cons first rest ih => exact ih (g.addEdge first)

theorem gather_nodes : (Graph.gather rawNodes rawEdges).nodes =
    (inputNodes rawNodes rawEdges).foldl (fun m node => m.insert node.key node) ∅ := by
  unfold Graph.gather inputNodes
  rw [(maps_foldl_addEdge rawEdges _).1, (nodes_foldl_addNode rawNodes Graph.empty).1,
    map_append, foldl_append]
  rfl

theorem gather_edges : (Graph.gather rawNodes rawEdges).edges =
    (inputEdges rawEdges).foldl (fun m edge => m.insert edge.key edge) ∅ := by
  unfold Graph.gather
  rw [(maps_foldl_addEdge rawEdges _).2, (nodes_foldl_addNode rawNodes Graph.empty).2]
  rfl

structure Holds (g : Graph) (rawNodes : List Node) (rawEdges : List Edge) : Prop where
  nodes {key : String} {node : Node} : g.nodes.lookup key = some node ↔
    node ∈ inputNodes rawNodes rawEdges ∧ node.key = key
  edges {key : String} {edge : Edge} : g.edges.lookup key = some edge ↔
    edge ∈ inputEdges rawEdges ∧ edge.key = key

theorem gather_holds (tell : KeysTell rawNodes rawEdges) :
    Holds (Graph.gather rawNodes rawEdges) rawNodes rawEdges where
  nodes := by
    intro key node
    rw [gather_nodes, lookup_foldl_insert Node.key tell.nodes]
    simp
  edges := by
    intro key edge
    rw [gather_edges, lookup_foldl_insert Edge.key tell.edges]
    simp

theorem ends_mem (rawNodes : List Node) {edge : Edge} (listed : edge ∈ inputEdges rawEdges) :
    edge.fromNode ∈ inputNodes rawNodes rawEdges ∧ edge.toNode ∈ inputNodes rawNodes rawEdges := by
  obtain ⟨raw, inside, rfl⟩ := mem_map.mp listed
  have atEnd {node : Node} (isEnd : node ∈ [raw.fromNode, raw.toNode]) :
      node.normalized ∈ inputNodes rawNodes rawEdges :=
    mem_map_of_mem (mem_append_right rawNodes (mem_flatMap.mpr ⟨raw, inside, isEnd⟩))
  exact ⟨atEnd (.head _), atEnd (.tail _ (.head _))⟩

end Gathered

def PlainText (text : String) : Prop := '\x00' ∉ text.toList ∧ '\x01' ∉ text.toList

structure PlainNode (node : Node) : Prop where
  name : PlainText node.name
  triplet : PlainText node.triplet
  features : ∀ feature ∈ node.features, PlainText feature ∧ feature ≠ ""

section Plain

variable {node a b : Node}

theorem PlainNode.normalized (plain : PlainNode node) : PlainNode node.normalized where
  name := plain.name
  triplet := plain.triplet
  features := fun feature listed => by
    have sorted := (destutter_sublist _ _).subset listed
    exact plain.features feature ((mem_insertionSort _).mp sorted)

def pieces (node : Node) : List (List Char) :=
  node.name.toList :: node.role.text.toList :: node.triplet.toList ::
    if node.features = [] then [[]] else node.features.map String.toList

theorem key_toList (normal : node.normalized = node) :
    node.key.toList = ['\x00'].intercalate (pieces node) := by
  unfold Node.key pieces joined
  rw [normal]
  cases features : node.features with
  | nil => simp [features]
  | cons first rest => simp [features, String.toList_intercalate]

theorem pieces_plain (plain : PlainNode node) :
    ∀ piece ∈ pieces node, '\x00' ∉ piece ∧ '\x01' ∉ piece := by
  have role : '\x00' ∉ node.role.text.toList ∧ '\x01' ∉ node.role.text.toList := by
    cases node.role <;> decide
  intro piece listed
  rcases mem_cons.mp listed with rfl | listed
  · exact plain.name
  rcases mem_cons.mp listed with rfl | listed
  · exact role
  rcases mem_cons.mp listed with rfl | listed
  · exact plain.triplet
  split_ifs at listed with none
  · rw [mem_singleton.mp listed]
    exact ⟨not_mem_nil, not_mem_nil⟩
  · obtain ⟨feature, inside, rfl⟩ := mem_map.mp listed
    exact (plain.features feature inside).1

theorem features_of_pieces (plainA : PlainNode a) (plainB : PlainNode b)
    (same : (if a.features = [] then [[]] else a.features.map String.toList) =
      if b.features = [] then [[]] else b.features.map String.toList) : a.features = b.features := by
  have nonempty {node : Node} (plain : PlainNode node) :
      node.features.map String.toList ≠ [[]] := by
    intro single
    obtain ⟨feature, only, empty⟩ := map_eq_singleton_iff.mp single
    have listed : feature ∈ node.features := only ▸ mem_singleton.mpr rfl
    exact (plain.features feature listed).2 (String.toList_inj.mp (empty.trans rfl))
  split_ifs at same with noneA noneB noneB
  · rw [noneA, noneB]
  · exact absurd same.symm (nonempty plainB)
  · exact absurd same (nonempty plainA)
  · exact (map_injective_iff.mpr (fun _ _ => String.toList_inj.mp)) same

theorem eq_of_key (plainA : PlainNode a ∧ a.normalized = a) (plainB : PlainNode b ∧ b.normalized = b)
    (same : a.key = b.key) : a = b := by
  have joinedSame : ['\x00'].intercalate (pieces a) = ['\x00'].intercalate (pieces b) := by
    rw [← key_toList plainA.2, ← key_toList plainB.2, same]
  have split := congrArg (List.splitOn '\x00') joinedSame
  rw [splitOn_intercalate '\x00' (fun piece listed => (pieces_plain plainA.1 piece listed).1)
      (cons_ne_nil _ _),
    splitOn_intercalate '\x00' (fun piece listed => (pieces_plain plainB.1 piece listed).1)
      (cons_ne_nil _ _)] at split
  unfold pieces at split
  simp only [List.cons.injEq, String.toList_inj] at split
  obtain ⟨name, role, triplet, features⟩ := split
  have roles : a.role = b.role := by
    revert role
    cases a.role <;> cases b.role <;> decide
  cases a
  cases b
  have listed := features_of_pieces plainA.1 plainB.1 features
  cases name
  cases roles
  cases triplet
  cases listed
  rfl

theorem not_mem_intercalate {c : Char} {separator : List Char} {pieces : List (List Char)}
    (apart : c ∉ separator) (plain : ∀ piece ∈ pieces, c ∉ piece) :
    c ∉ separator.intercalate pieces := by
  induction pieces with
  | nil => exact not_mem_nil
  | cons first rest ih =>
    obtain ⟨here, later⟩ := forall_mem_cons.mp plain
    cases rest with
    | nil => simpa using here
    | cons second rest => simp [here, apart, ih later]

theorem key_plain (plain : PlainNode node ∧ node.normalized = node) : '\x01' ∉ node.key.toList := by
  rw [key_toList plain.2]
  exact not_mem_intercalate (by decide) (fun piece listed => (pieces_plain plain.1 piece listed).2)

/-- Texts as package listings have them: the keys tell the nodes and the edges apart. -/
theorem keysTell_of_plain {rawNodes : List Node} {rawEdges : List Edge}
    (nodes : ∀ node ∈ rawNodes, PlainNode node)
    (edges : ∀ edge ∈ rawEdges, PlainNode edge.fromNode ∧ PlainNode edge.toNode) :
    KeysTell rawNodes rawEdges := by
  have plainNode : ∀ node ∈ inputNodes rawNodes rawEdges,
      PlainNode node ∧ node.normalized = node := by
    intro node listed
    obtain ⟨raw, inside, rfl⟩ := mem_map.mp listed
    refine ⟨PlainNode.normalized ?_, normalized_normalized raw⟩
    rcases mem_append.mp inside with inNodes | atEdge
    · exact nodes raw inNodes
    · obtain ⟨edge, inEdges, isEnd⟩ := mem_flatMap.mp atEdge
      rcases mem_pair.mp isEnd with rfl | rfl
      · exact (edges edge inEdges).1
      · exact (edges edge inEdges).2
  constructor
  · intro a inA b inB same
    exact eq_of_key (plainNode a inA) (plainNode b inB) same
  · intro a inA b inB same
    have ends {edge : Edge} (listed : edge ∈ inputEdges rawEdges) :=
      (ends_mem rawNodes listed).imp (plainNode _) (plainNode _)
    obtain ⟨fromA, toA⟩ := ends inA
    obtain ⟨fromB, toB⟩ := ends inB
    have keys : ['\x01'].intercalate [a.fromNode.key.toList, a.toNode.key.toList] =
        ['\x01'].intercalate [b.fromNode.key.toList, b.toNode.key.toList] := by
      simpa [Edge.key] using congrArg String.toList same
    have split := congrArg (List.splitOn '\x01') keys
    rw [splitOn_intercalate '\x01' (by simp [key_plain, *]) (cons_ne_nil _ _),
      splitOn_intercalate '\x01' (by simp [key_plain, *]) (cons_ne_nil _ _)] at split
    simp only [List.cons.injEq, String.toList_inj, and_true] at split
    cases a
    cases b
    rw [Edge.mk.injEq]
    exact ⟨eq_of_key fromA fromB split.1, eq_of_key toA toB split.2⟩

end Plain

theorem keysTell_of_plain_zlib : KeysTell [⟨"zlib", .target, "x64", []⟩]
    [⟨⟨"zlib", .target, "x64", ["ssl"]⟩, ⟨"zlib", .host, "x64", []⟩⟩] := by
  have plain : PlainText "zlib" ∧ PlainText "x64" ∧ PlainText "ssl" := by
    unfold PlainText
    decide
  have zlib (role : Role) : PlainNode ⟨"zlib", role, "x64", []⟩ := ⟨plain.1, plain.2.1, nofun⟩
  refine keysTell_of_plain ?_ ?_
  · simp [zlib]
  · simp only [mem_singleton, forall_eq]
    exact ⟨⟨plain.1, plain.2.1, by simp [plain.2.2]⟩, zlib .host⟩

def Faithful (g : Graph) : Prop := ∀ key edge, g.edges.lookup key = some edge →
  g.nodes.lookup edge.fromNode.key = some edge.fromNode ∧
    g.nodes.lookup edge.toNode.key = some edge.toNode

structure Same (g g' : Graph) : Prop where
  nodes : ∀ key, g.nodes.lookup key = g'.nodes.lookup key
  edges : ∀ key, g.edges.lookup key = g'.edges.lookup key

section Input

variable {rawNodes rawNodes' : List Node} {rawEdges rawEdges' : List Edge}

theorem Holds.faithful {g : Graph} (holds : Holds g rawNodes rawEdges) : Faithful g := by
  intro key edge found
  have ends := ends_mem rawNodes (holds.edges.mp found).1
  exact ⟨holds.nodes.mpr ⟨ends.1, rfl⟩, holds.nodes.mpr ⟨ends.2, rfl⟩⟩

theorem inputNodes_perm (nodes : rawNodes'.Perm rawNodes) (edges : rawEdges'.Perm rawEdges) :
    (inputNodes rawNodes' rawEdges').Perm (inputNodes rawNodes rawEdges) :=
  (nodes.append (edges.flatMap_right _)).map Node.normalized

theorem KeysTell.of_perm (tell : KeysTell rawNodes rawEdges) (nodes : rawNodes'.Perm rawNodes)
    (edges : rawEdges'.Perm rawEdges) : KeysTell rawNodes' rawEdges' where
  nodes := fun a inA b inB => tell.nodes a ((inputNodes_perm nodes edges).mem_iff.mp inA) b
    ((inputNodes_perm nodes edges).mem_iff.mp inB)
  edges := fun a inA b inB => tell.edges a ((edges.map Edge.normalized).mem_iff.mp inA) b
    ((edges.map Edge.normalized).mem_iff.mp inB)

theorem gather_same (tell : KeysTell rawNodes rawEdges) (nodes : rawNodes'.Perm rawNodes)
    (edges : rawEdges'.Perm rawEdges) :
    Same (Graph.gather rawNodes rawEdges) (Graph.gather rawNodes' rawEdges') := by
  have holds := gather_holds tell
  have holds' := gather_holds (tell.of_perm nodes edges)
  constructor
  · intro key
    refine Option.ext (fun node => ?_)
    rw [holds.nodes, holds'.nodes, (inputNodes_perm nodes edges).mem_iff]
  · intro key
    refine Option.ext (fun edge => ?_)
    rw [holds.edges, holds'.edges]
    unfold inputEdges
    rw [(edges.map Edge.normalized).mem_iff]

end Input

section Sorted

variable {g g' : Graph}

theorem Same.nodeAt (same : Same g g') : g.nodeAt = g'.nodeAt := by
  funext key
  unfold Graph.nodeAt
  rw [same.nodes]

theorem Same.linked (same : Same g g') (a b : String) : g.Linked a b ↔ g'.Linked a b := by
  unfold Graph.Linked
  simp only [same.edges]

theorem Same.size_nodes (same : Same g g') : size g.nodes = size g'.nodes := by
  have reordered := MapOrder.plain.range_perm MapOrder.plain same.nodes
  have lengths : g.nodes.entries.length = g'.nodes.entries.length := reordered.length_eq
  unfold size AList.keys List.keys
  rw [length_map, length_map, lengths]

theorem sortNodes_eq_of_perm {nodes nodes' : List Node}
    (normal : ∀ node ∈ nodes, node.normalized = node) (apart : (nodes.map Node.key).Nodup)
    (reordered : nodes.Perm nodes') :
    sortNodes nodes = sortNodes nodes' := by
  have byKey : KeySort.ByKey (fun a b => nodeLess b a = false) Node.ident nodes :=
    fun a _ b _ => not_nodeLess_iff a b
  refine KeySort.eq_of_perm byKey ?_ reordered
  refine List.Nodup.map_on ?_ apart.of_map
  intro a inA b inB same
  exact inj_on_of_nodup_map apart inA inB (key_of_ident (normal a inA) (normal b inB) same)

def edgeIdent (edge : Edge) :
    (String ×ₗ ℕ ×ₗ String ×ₗ String) ×ₗ (String ×ₗ ℕ ×ₗ String ×ₗ String) :=
  toLex (edge.fromNode.ident, edge.toNode.ident)

variable {edges edges' : List Edge}

theorem edges_byKey (faithful : Faithful g)
    (inside : ∀ edge ∈ edges, ∃ key, g.edges.lookup key = some edge) :
    KeySort.ByKey (fun a b => edgeLess b a = false) edgeIdent edges := by
  intro a inA b inB
  obtain ⟨keyA, foundA⟩ := inside a inA
  obtain ⟨keyB, foundB⟩ := inside b inB
  have normalA := g.nodesKeyed _ _ (faithful keyA a foundA).1
  have normalB := g.nodesKeyed _ _ (faithful keyB b foundB).1
  unfold edgeLess edgeIdent
  rw [Prod.Lex.toLex_le_toLex]
  by_cases same : b.fromNode.key = a.fromNode.key
  · have equal : b.fromNode = a.fromNode := by
      have found := (faithful keyB b foundB).1
      rw [same] at found
      exact Option.some.inj (found.symm.trans (faithful keyA a foundA).1)
    simp [equal, not_nodeLess_iff]
  · have apart : a.fromNode.ident ≠ b.fromNode.ident := fun equal =>
      same (key_of_ident normalB.2 normalA.2 equal.symm)
    simp only [ne_eq, same, not_false_eq_true, if_true, not_nodeLess_iff, apart, false_and, or_false]
    exact ⟨fun le => lt_of_le_of_ne le apart, le_of_lt⟩

theorem sortEdges_eq_of_perm (faithful : Faithful g)
    (inside : ∀ edge ∈ edges, ∃ key, g.edges.lookup key = some edge) (nodup : edges.Nodup)
    (reordered : edges.Perm edges') : sortEdges edges = sortEdges edges' := by
  refine KeySort.eq_of_perm (edges_byKey faithful inside) ?_ reordered
  refine List.Nodup.map_on ?_ nodup
  intro a inA b inB same
  obtain ⟨keyA, foundA⟩ := inside a inA
  obtain ⟨keyB, foundB⟩ := inside b inB
  obtain ⟨fromA, toA⟩ := faithful keyA a foundA
  obtain ⟨fromB, toB⟩ := faithful keyB b foundB
  simp only [edgeIdent, EmbeddingLike.apply_eq_iff_eq, Prod.mk.injEq] at same
  have sameFrom := key_of_ident (g.nodesKeyed _ _ fromA).2 (g.nodesKeyed _ _ fromB).2 same.1
  have sameTo := key_of_ident (g.nodesKeyed _ _ toA).2 (g.nodesKeyed _ _ toB).2 same.2
  rw [← sameFrom, fromA] at fromB
  rw [← sameTo, toA] at toB
  cases a
  cases b
  cases fromB
  cases toB
  rfl

theorem sortEdges_range (faithful : Faithful g) (same : Same g g') (order order' : MapOrder)
    (test : Edge → Bool) :
    sortEdges (((order.range g.edges).map (fun entry => entry.2)).filter test) =
      sortEdges (((order'.range g'.edges).map (fun entry => entry.2)).filter test) := by
  refine sortEdges_eq_of_perm faithful ?_ ?_ (((order.range_perm order' same.edges).map _).filter test)
  · intro edge listed
    obtain ⟨entry, inside, rfl⟩ := mem_map.mp (mem_of_mem_filter listed)
    exact ⟨entry.1, order.mem_range.mp inside⟩
  · refine List.Nodup.filter _ (List.Nodup.map_on ?_ (order.nodup_range g.edges))
    rintro ⟨key, edge⟩ first ⟨key', edge'⟩ second equal
    cases equal
    rw [order.mem_range] at first second
    rw [← (g.edgesKeyed key edge first).1, ← (g.edgesKeyed key' edge second).1]

end Sorted

section CyclesOf

variable {g g' : Graph} {relevant relevant' : Map String ℕ} (orders orders' : CycleOrders)

theorem adjacency_congr (same : Same g g') : adjacency orders g = adjacency orders' g' := by
  funext key
  have reordered := (((orders.adjacency.range_perm orders'.adjacency same.edges).filter
    (fun entry => entry.2.fromNode.key = key)).map (fun entry => entry.2.toNode.key))
  exact KeySort.sorted_eq_of_perm reordered

theorem startKeys_congr (same : Same g g')
    (sameRelevant : ∀ key, relevant.lookup key = relevant'.lookup key) :
    startKeys orders g relevant = startKeys orders' g' relevant' := by
  have tests : (fun key : String => (relevant.lookup key).isSome) =
      fun key => (relevant'.lookup key).isSome := by
    funext key
    rw [sameRelevant]
  have reordered := ((orders.keys.range_perm orders'.keys same.nodes).map
    (fun entry => entry.1)).filter (fun key => (relevant.lookup key).isSome)
  unfold startKeys
  rw [← tests]
  exact KeySort.sorted_eq_of_perm reordered

theorem isCycle_congr (same : Same g g') : isCycle orders g = isCycle orders' g' := by
  have loops (key : String) : selfEdge orders g key = selfEdge orders' g' key := by
    rw [Bool.eq_iff_iff, selfEdge_iff, selfEdge_iff]
    exact same.linked key key
  funext component
  unfold isCycle
  rw [loops]

theorem cycleOf_congr (faithful : Faithful g) (same : Same g g') :
    cycleOf orders g = cycleOf orders' g' := by
  funext component
  unfold cycleOf
  rw [same.nodeAt, sortEdges_range faithful same (orders.members component) (orders'.members component)]

theorem graphCycles_congr (faithful : Faithful g) (same : Same g g')
    (sameRelevant : ∀ key, relevant.lookup key = relevant'.lookup key) :
    graphCycles orders g relevant = graphCycles orders' g' relevant' := by
  unfold graphCycles
  rw [adjacency_congr orders orders' same, startKeys_congr orders orders' same sameRelevant,
    isCycle_congr orders orders' same, cycleOf_congr orders orders' faithful same, same.size_nodes]

end CyclesOf

end McpLocalHub.ReverseDeps.GraphInputs
