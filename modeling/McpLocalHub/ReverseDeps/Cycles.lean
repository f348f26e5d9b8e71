/- Module: ReverseDeps/Cycles
   source: internal/vcpkgmcp/reversedepgraph/graph.go
   digest: The cycle report is the set of the strongly connected components with a cycle. -/

import McpLocalHub.Foundation.StrongComponents
import McpLocalHub.ReverseDeps.PackageGraph

set_option autoImplicit false

namespace McpLocalHub.ReverseDeps.Cycles

open Foundation.Maps Foundation.StrongComponents PackageGraph Relation List

structure Cycle where
  nodes : List Node
  edges : List Edge
  deriving DecidableEq

structure CycleOrders where
  adjacency : MapOrder
  keys : MapOrder
  members : List String → MapOrder

section Model

variable (orders : CycleOrders) (g : Graph) (relevant : Map String ℕ)

def adjacency (key : String) : List String :=
  (((orders.adjacency.range g.edges).filter (fun entry => entry.2.fromNode.key = key)).map
    (fun entry => entry.2.toNode.key)).insertionSort (· ≤ ·)

def selfEdge (key : String) : Bool :=
  (orders.adjacency.range g.edges).any
    (fun entry => entry.2.fromNode.key = entry.2.toNode.key ∧ entry.2.fromNode.key = key)

def startKeys : List String :=
  (((orders.keys.range g.nodes).map (fun entry => entry.1)).filter
    (fun key => (relevant.lookup key).isSome)).insertionSort (· ≤ ·)

def isCycle (component : List String) : Bool :=
  !(decide (component.length = 1) && !selfEdge orders g (component.headD ""))

def cycleOf (component : List String) : Cycle where
  nodes := sortNodes (component.map g.nodeAt)
  edges := sortEdges ((((orders.members component).range g.edges).map (fun entry => entry.2)).filter
    (fun edge => edge.fromNode.key ∈ component ∧ edge.toNode.key ∈ component))

def firstNode (cycle : Cycle) : Node := cycle.nodes.headD ⟨"", .other, "", []⟩

def graphCycles : Option (List Cycle) :=
  (visitAll (adjacency orders g) (size g.nodes) (startKeys orders g relevant) {}).map (fun search =>
    ((search.components.filter (isCycle orders g)).map (cycleOf orders g)).insertionSort
      (fun a b => nodeLess (firstNode b) (firstNode a) = false))

end Model

def Reaches (g : Graph) : String → String → Prop := ReflTransGen g.Linked

def Mutual (g : Graph) (a b : String) : Prop := Reaches g a b ∧ Reaches g b a

def InReach (g : Graph) (relevant : Map String ℕ) (x : String) : Prop :=
  ∃ key, (g.nodes.lookup key).isSome = true ∧ (relevant.lookup key).isSome = true ∧ Reaches g key x

/-- The component has a second node, or a self edge. -/
def Cyclic (g : Graph) (x : String) : Prop := (∃ y, y ≠ x ∧ Mutual g x y) ∨ g.Linked x x

/-- The nodes of a cycle are those of the component of a key, and its edges those between them, each
of them once. -/
structure IsComponent (g : Graph) (x : String) (cycle : Cycle) : Prop where
  nodesOnce : cycle.nodes.Nodup
  nodes : ∀ node, node ∈ cycle.nodes ↔ ∃ key, g.nodes.lookup key = some node ∧ Mutual g x key
  edgesOnce : cycle.edges.Nodup
  edges : ∀ edge, edge ∈ cycle.edges ↔ (∃ key, g.edges.lookup key = some edge) ∧
    Mutual g x edge.fromNode.key ∧ Mutual g x edge.toNode.key

section Search

variable {orders : CycleOrders} {g : Graph} {relevant : Map String ℕ}

variable {a b key : String}

theorem mem_adjacency : b ∈ adjacency orders g a ↔ g.Linked a b := by
  unfold adjacency Graph.Linked
  rw [mem_insertionSort]
  simp only [mem_map, mem_filter, orders.adjacency.mem_range, decide_eq_true_eq]
  constructor
  · rintro ⟨⟨key, edge⟩, ⟨found, source⟩, dest⟩
    exact ⟨key, edge, found, source, dest⟩
  · rintro ⟨key, edge, found, source, dest⟩
    exact ⟨⟨key, edge⟩, ⟨found, source⟩, dest⟩

theorem reach_eq : Reach (adjacency orders g) = Reaches g := by
  unfold Reach Reaches
  congr 1
  funext a b
  exact propext mem_adjacency

theorem mem_startKeys : key ∈ startKeys orders g relevant ↔
    (g.nodes.lookup key).isSome = true ∧ (relevant.lookup key).isSome = true := by
  unfold startKeys
  rw [mem_insertionSort, mem_filter, mem_map]
  simp only [orders.keys.mem_range]
  constructor
  · rintro ⟨⟨⟨own, node⟩, found, rfl⟩, isRelevant⟩
    exact ⟨Option.isSome_iff_exists.mpr ⟨node, found⟩, isRelevant⟩
  · rintro ⟨present, isRelevant⟩
    obtain ⟨node, found⟩ := Option.isSome_iff_exists.mp present
    exact ⟨⟨⟨key, node⟩, found, rfl⟩, isRelevant⟩

theorem selfEdge_iff : selfEdge orders g key = true ↔ g.Linked key key := by
  unfold selfEdge Graph.Linked
  rw [any_eq_true]
  simp only [orders.adjacency.mem_range, decide_eq_true_eq]
  constructor
  · rintro ⟨⟨own, edge⟩, found, same, rfl⟩
    exact ⟨own, edge, found, rfl, same.symm⟩
  · rintro ⟨own, edge, found, source, dest⟩
    exact ⟨⟨own, edge⟩, found, source.trans dest.symm, source⟩

theorem linked_inside (linked : g.Linked a b) : b ∈ g.nodes.keys.toFinset := by
  obtain ⟨key, edge, found, -, rfl⟩ := linked
  obtain ⟨node, present⟩ := Option.isSome_iff_exists.mp (g.edgesKeyed key edge found).2.2.2
  exact mem_toFinset.mpr (mem_keys_of_lookup present)

theorem present_of_reaches (present : (g.nodes.lookup a).isSome = true)
    (path : Reaches g a b) : (g.nodes.lookup b).isSome = true := by
  induction path with
  | refl => exact present
  | tail _ edge _ =>
    obtain ⟨key, edge, found, -, rfl⟩ := edge
    exact (g.edgesKeyed key edge found).2.2.2

theorem components_of_search (orders : CycleOrders) (g : Graph) (relevant : Map String ℕ) :
    ∃ search : Search String,
      visitAll (adjacency orders g) (size g.nodes) (startKeys orders g relevant) {} = some search ∧
      search.components.flatten.Nodup ∧
      (∀ x, (∃ component ∈ search.components, x ∈ component) ↔ InReach g relevant x) ∧
      ∀ component ∈ search.components, component ≠ [] ∧ ∀ x ∈ component, ∀ y,
        y ∈ component ↔ Mutual g x y := by
  have closed : ∀ x ∈ g.nodes.keys.toFinset, ∀ y ∈ adjacency orders g x,
      y ∈ g.nodes.keys.toFinset := fun _ _ _ edge => linked_inside (mem_adjacency.mp edge)
  have inside : ∀ key ∈ startKeys orders g relevant, key ∈ g.nodes.keys.toFinset := by
    intro key listed
    obtain ⟨node, found⟩ := Option.isSome_iff_exists.mp (mem_startKeys.mp listed).1
    exact mem_toFinset.mpr (mem_keys_of_lookup found)
  obtain ⟨search, done, apart, covered, strong⟩ :=
    components_spec closed inside (toFinset_card_le g.nodes.keys)
  rw [reach_eq] at covered strong
  refine ⟨search, done, apart, fun x => ?_, strong⟩
  rw [covered]
  simp only [mem_startKeys, InReach, and_assoc]

end Search

section Report

variable {orders : CycleOrders} {g : Graph} {relevant : Map String ℕ} {component : List String}
  {x : String}

theorem nodup_map_nodeAt (present : ∀ y ∈ component, (g.nodes.lookup y).isSome = true)
    (nodup : component.Nodup) : (component.map g.nodeAt).Nodup := by
  refine (nodup_map_iff_inj_on nodup).mpr ?_
  intro a first b second same
  rw [← (Graph.key_nodeAt (present a first)).1, ← (Graph.key_nodeAt (present b second)).1, same]

theorem mem_nodes_cycleOf (present : ∀ y ∈ component, (g.nodes.lookup y).isSome = true)
    {node : Node} : node ∈ (cycleOf orders g component).nodes ↔
      ∃ key, g.nodes.lookup key = some node ∧ key ∈ component := by
  unfold cycleOf sortNodes
  rw [mem_insertionSort, mem_map]
  constructor
  · rintro ⟨key, member, rfl⟩
    obtain ⟨node, found⟩ := Option.isSome_iff_exists.mp (present key member)
    exact ⟨key, (Graph.nodeAt_of_lookup found).symm ▸ found, member⟩
  · rintro ⟨key, found, member⟩
    exact ⟨key, member, Graph.nodeAt_of_lookup found⟩

theorem cycleOf_isComponent (present : ∀ y ∈ component, (g.nodes.lookup y).isSome = true)
    (nodup : component.Nodup) (members : ∀ y, y ∈ component ↔ Mutual g x y) :
    IsComponent g x (cycleOf orders g component) := by
  constructor
  · exact (perm_insertionSort _ _).nodup_iff.mpr (nodup_map_nodeAt present nodup)
  · intro node
    simp only [mem_nodes_cycleOf present, members]
  · refine (perm_insertionSort _ _).nodup_iff.mpr (List.Nodup.filter _ ?_)
    refine (nodup_map_iff_inj_on ((orders.members component).nodup_range g.edges)).mpr ?_
    rintro ⟨key, edge⟩ first ⟨key', edge'⟩ second same
    cases same
    rw [MapOrder.mem_range] at first second
    rw [← (g.edgesKeyed key edge first).1, ← (g.edgesKeyed key' edge second).1]
  · intro edge
    unfold cycleOf sortEdges
    rw [mem_insertionSort, mem_filter, mem_map]
    simp only [MapOrder.mem_range, decide_eq_true_eq, members]
    constructor
    · rintro ⟨⟨⟨key, found⟩, hit, rfl⟩, both⟩
      exact ⟨⟨key, hit⟩, both⟩
    · rintro ⟨⟨key, hit⟩, both⟩
      exact ⟨⟨⟨key, edge⟩, hit, rfl⟩, both⟩

theorem isCycle_iff (nodup : component.Nodup) (member : x ∈ component)
    (members : ∀ y, y ∈ component ↔ Mutual g x y) :
    isCycle orders g component = true ↔ Cyclic g x := by
  cases component with
  | nil => cases member
  | cons first rest =>
    cases rest with
    | nil =>
      have own : x = first := mem_singleton.mp member
      subst own
      have tested : isCycle orders g [x] = selfEdge orders g x := by simp [isCycle]
      rw [tested, selfEdge_iff]
      constructor
      · exact .inr
      · rintro (⟨y, apart, mutual_⟩ | linked)
        · exact absurd (mem_singleton.mp ((members y).mpr mutual_)) apart
        · exact linked
    | cons second rest =>
      have tested : isCycle orders g (first :: second :: rest) = true := by simp [isCycle]
      refine ⟨fun _ => .inl ?_, fun _ => tested⟩
      have distinct : first ≠ second := fun same =>
        (nodup_cons.mp nodup).1 (same ▸ mem_cons_self)
      by_cases own : x = first
      · refine ⟨second, fun same => distinct (own.symm.trans same.symm), ?_⟩
        exact (members second).mp (mem_cons_of_mem first mem_cons_self)
      · exact ⟨first, Ne.symm own, (members first).mp mem_cons_self⟩

end Report

/-- For every graph, relevant keys and order of the ranges over maps: the cycles are the strongly
connected components with two nodes or a self edge in reach of a relevant node, and no two of them
share a node. -/
theorem graphCycles_exact (orders : CycleOrders) (g : Graph) (relevant : Map String ℕ) :
    ∃ cycles, graphCycles orders g relevant = some cycles ∧
      (∀ cycle ∈ cycles, ∃ x, InReach g relevant x ∧ Cyclic g x ∧ IsComponent g x cycle) ∧
      (∀ x, InReach g relevant x → Cyclic g x → ∃ cycle ∈ cycles, IsComponent g x cycle) ∧
      cycles.Pairwise (fun one other => ∀ node ∈ one.nodes, node ∉ other.nodes) := by
  obtain ⟨search, done, apart, covered, strong⟩ := components_of_search orders g relevant
  have present (component) (listed : component ∈ search.components) :
      ∀ y ∈ component, (g.nodes.lookup y).isSome = true := by
    intro y member
    obtain ⟨key, present, -, path⟩ := (covered y).mp ⟨component, listed, member⟩
    exact present_of_reaches present path
  obtain ⟨each, pairwise⟩ := nodup_flatten.mp apart
  have component_of (component) (listed : component ∈ search.components) (x) (member : x ∈ component) :
      IsComponent g x (cycleOf orders g component) ∧ (isCycle orders g component ↔ Cyclic g x) := by
    have members := (strong component listed).2 x member
    exact ⟨cycleOf_isComponent (present component listed) (each component listed) members,
      isCycle_iff (each component listed) member members⟩
  have kept := perm_insertionSort (fun a b => nodeLess (firstNode b) (firstNode a) = false)
    ((search.components.filter (isCycle orders g)).map (cycleOf orders g))
  refine ⟨_, congrArg (Option.map _) done, ?_, ?_, ?_⟩
  · intro cycle listed
    rw [kept.mem_iff, mem_map] at listed
    obtain ⟨component, inside, rfl⟩ := listed
    obtain ⟨isComponent, cyclic⟩ := mem_filter.mp inside
    obtain ⟨x, member⟩ := exists_mem_of_ne_nil component (strong component isComponent).1
    obtain ⟨cycle, isCycle⟩ := component_of component isComponent x member
    exact ⟨x, (covered x).mp ⟨component, isComponent, member⟩, isCycle.mp cyclic, cycle⟩
  · intro x inReach cyclic
    obtain ⟨component, isComponent, member⟩ := (covered x).mpr inReach
    obtain ⟨cycle, isCycle⟩ := component_of component isComponent x member
    refine ⟨cycleOf orders g component, ?_, cycle⟩
    rw [kept.mem_iff, mem_map]
    exact ⟨component, mem_filter.mpr ⟨isComponent, isCycle.mpr cyclic⟩, rfl⟩
  · have disjoint : ((search.components.filter (isCycle orders g)).map (cycleOf orders g)).Pairwise
        (fun one other => ∀ node ∈ one.nodes, node ∉ other.nodes) := by
      rw [pairwise_map]
      refine (pairwise.sublist filter_sublist).imp_of_mem ?_
      intro one other listedOne listedOther apart_ node inOne inOther
      obtain ⟨key, found, inside⟩ :=
        (mem_nodes_cycleOf (present one (mem_of_mem_filter listedOne))).mp inOne
      obtain ⟨key', found', inside'⟩ :=
        (mem_nodes_cycleOf (present other (mem_of_mem_filter listedOther))).mp inOther
      have sameKey : key' = key :=
        (g.nodesKeyed key' node found').1.symm.trans (g.nodesKeyed key node found).1
      exact apart_ inside (sameKey ▸ inside')
    refine (kept.pairwise_iff ?_).mpr disjoint
    intro one other apart_ node inOther inOne
    exact apart_ node inOne inOther

end McpLocalHub.ReverseDeps.Cycles
