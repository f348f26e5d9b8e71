/- Module: ReverseDeps/Reduction
   source: internal/vcpkgmcp/reversedepgraph/graph.go
   digest: The reduction of a package graph to the nodes that depend on a selected port. -/

import McpLocalHub.Foundation.BreadthFirst
import McpLocalHub.ReverseDeps.GraphInputs

set_option autoImplicit false

namespace McpLocalHub.ReverseDeps.Reduction

open Foundation Foundation.Maps PackageGraph Cycles GraphInputs List
open Foundation.BreadthFirst (search Search Walk PathOrder Result)

structure Dependent where
  node : Node
  distance : ℕ
  path : List Node
  deriving DecidableEq

structure ReducedGraph where
  targets : List Node
  direct : List Dependent
  transitive : List Dependent
  edges : List Edge
  cycles : List Cycle
  deriving DecidableEq

structure ReduceOrders where
  reverse : MapOrder
  seeds : MapOrder
  reached : MapOrder
  edges : MapOrder
  cycles : CycleOrders

def ReduceOrders.plain : ReduceOrders :=
  ⟨.plain, .plain, .plain, .plain, ⟨.plain, .plain, fun _ => .plain⟩⟩

def pathLess : List Node → List Node → Bool
  | left :: lefts, right :: rights =>
    if left.key = right.key then pathLess lefts rights else nodeLess left right
  | [], _ :: _ => true
  | _, [] => false

def dependentLess (left right : Dependent) : Bool :=
  if left.distance ≠ right.distance then left.distance < right.distance
  else nodeLess left.node right.node

def sortDependents (values : List Dependent) : List Dependent :=
  values.insertionSort (fun a b => dependentLess b a = false)

section Model

variable (orders : ReduceOrders) (selected : String) (g : Graph)

def keyOrder (a b : String) : Prop := nodeLess (g.nodeAt b) (g.nodeAt a) = false
  deriving Decidable

def reverse (key : String) : List String :=
  (((orders.reverse.range g.edges).filter (fun entry => entry.2.toNode.key = key)).map
    (fun entry => entry.2.fromNode.key)).insertionSort (keyOrder g)

def seeds : List ((_ : String) × Node) :=
  (orders.seeds.range g.nodes).filter (fun entry => entry.2.name = selected)

def seeded : Search String Node where
  distance := (seeds orders selected g).foldl (fun distance entry => distance.insert entry.1 0) ∅
  paths := (seeds orders selected g).foldl (fun paths entry => paths.insert entry.1 [entry.2]) ∅
  queue := ((seeds orders selected g).map (fun entry => entry.1)).insertionSort (keyOrder g)

def dependents (s : Search String Node) : List Dependent :=
  ((orders.reached.range s.distance).filter
    (fun entry => ¬ (entry.2 = 0 ∨ (g.nodeAt entry.1).name = selected))).map
    (fun entry => ⟨g.nodeAt entry.1, entry.2, s.pathOf entry.1⟩)

def relevantEdges (s : Search String Node) : List Edge :=
  ((orders.edges.range g.edges).map (fun entry => entry.2)).filter (fun edge =>
    (s.distance.lookup edge.fromNode.key).isSome ∨ (s.distance.lookup edge.toNode.key).isSome)

def report (s : Search String Node) (cycles : List Cycle) : ReducedGraph where
  targets := sortNodes ((seeds orders selected g).map (fun entry => entry.2))
  direct := sortDependents ((dependents orders selected g s).filter (fun d => d.distance = 1))
  transitive := sortDependents (dependents orders selected g s)
  edges := sortEdges (relevantEdges orders g s)
  cycles := cycles

def reduce : Option ReducedGraph :=
  let start := seeded orders selected g
  (search (reverse orders g) g.nodeAt pathLess (size g.nodes + start.queue.length + 1) start).bind
    (fun s => (graphCycles orders.cycles g s.distance).map (report orders selected g s))

def reduceGraph (rawNodes : List Node) (rawEdges : List Edge) : Option ReducedGraph :=
  reduce orders selected (Graph.gather rawNodes rawEdges)

end Model

section Paths

variable {orders : ReduceOrders} {selected : String} {g : Graph}

variable {key a b : String}

theorem mem_reverse {c : String} : key ∈ reverse orders g c ↔ g.Linked key c := by
  unfold reverse Graph.Linked
  rw [mem_insertionSort]
  simp only [mem_map, mem_filter, orders.reverse.mem_range, decide_eq_true_eq]
  constructor
  · rintro ⟨⟨own, edge⟩, ⟨found, dest⟩, source⟩
    exact ⟨own, edge, found, source, dest⟩
  · rintro ⟨own, edge, found, source, dest⟩
    exact ⟨⟨own, edge⟩, ⟨found, dest⟩, source⟩

def IsTarget (selected : String) (g : Graph) (key : String) : Prop :=
  ∃ node, g.nodes.lookup key = some node ∧ node.name = selected

def keysOf (g : Graph) : Finset String := g.nodes.keys.toFinset

theorem mem_keysOf : key ∈ keysOf g ↔ (g.nodes.lookup key).isSome = true := by
  unfold keysOf
  rw [mem_toFinset, AList.lookup_isSome, AList.mem_keys]

theorem target_inside (isTarget : IsTarget selected g key) : key ∈ keysOf g := by
  obtain ⟨node, found, -⟩ := isTarget
  exact mem_keysOf.mpr (Option.isSome_iff_exists.mpr ⟨node, found⟩)

theorem linked_inside (linked : g.Linked a b) : a ∈ keysOf g := by
  obtain ⟨own, edge, found, rfl, -⟩ := linked
  exact mem_keysOf.mpr (g.edgesKeyed own edge found).2.2.1

def cost (g : Graph) (keys : List String) : List (String ×ₗ ℕ ×ₗ String ×ₗ String) :=
  keys.map (fun key => (g.nodeAt key).ident)

theorem ident_injective (first : a ∈ keysOf g) (second : b ∈ keysOf g)
    (same : (g.nodeAt a).ident = (g.nodeAt b).ident) : a = b := by
  obtain ⟨keyA, normalA⟩ := Graph.key_nodeAt (mem_keysOf.mp first)
  obtain ⟨keyB, normalB⟩ := Graph.key_nodeAt (mem_keysOf.mp second)
  rw [← keyA, ← keyB]
  exact key_of_ident normalA normalB same

theorem pathLess_iff (a b : List String) (insideA : ∀ x ∈ a, x ∈ keysOf g)
    (insideB : ∀ x ∈ b, x ∈ keysOf g) :
    pathLess (a.map g.nodeAt) (b.map g.nodeAt) = true ↔ cost g a < cost g b := by
  induction a generalizing b with
  | nil =>
    cases b with
    | nil | cons right rights => simp [pathLess, cost]
  | cons left lefts ih =>
    cases b with
    | nil => simp [pathLess, cost]
    | cons right rights =>
      have first := insideA left mem_cons_self
      have second := insideB right mem_cons_self
      have rest := ih rights (fun x listed => insideA x (mem_cons_of_mem left listed))
        (fun x listed => insideB x (mem_cons_of_mem right listed))
      unfold cost at rest ⊢
      simp only [map_cons, pathLess, (Graph.key_nodeAt (mem_keysOf.mp first)).1,
        (Graph.key_nodeAt (mem_keysOf.mp second)).1, cons_lt_cons_iff]
      by_cases same : left = right
      · rw [if_pos same, rest, same]
        simp
      · rw [if_neg same, nodeLess_iff]
        have apart : (g.nodeAt left).ident ≠ (g.nodeAt right).ident :=
          fun equal => same (ident_injective first second equal)
        simp [apart]

theorem pathOrder : PathOrder (keysOf g) g.nodeAt pathLess (cost g) where
  lessIff := pathLess_iff
  cons := by
    intro x a b le
    unfold cost at le ⊢
    simp only [map_cons]
    rcases le.lt_or_eq with less | same
    · exact (cons_lt_cons_iff.mpr (.inr ⟨rfl, less⟩)).le
    · rw [same]

theorem cost_injective {a b : List String} (insideA : ∀ x ∈ a, x ∈ keysOf g)
    (insideB : ∀ x ∈ b, x ∈ keysOf g) (same : cost g a = cost g b) : a = b := by
  induction a generalizing b with
  | nil => exact (map_eq_nil_iff.mp same.symm).symm
  | cons left lefts ih =>
    cases b with
    | nil => exact absurd same (cons_ne_nil _ _)
    | cons right rights =>
      obtain ⟨first, rest⟩ := List.cons.inj same
      rw [ident_injective (insideA left mem_cons_self) (insideB right mem_cons_self) first,
        ih (fun x listed => insideA x (mem_cons_of_mem left listed))
          (fun x listed => insideB x (mem_cons_of_mem right listed)) rest]

end Paths

section Searched

variable {orders : ReduceOrders} {selected : String} {g : Graph}

abbrev Searched (orders : ReduceOrders) (selected : String) (g : Graph) (s : Search String Node)
    (trail : String → List String) : Prop :=
  Result (reverse orders g) g.nodeAt (cost g) (IsTarget selected g) s trail

theorem mem_seeds {entry : (_ : String) × Node} : entry ∈ seeds orders selected g ↔
    g.nodes.lookup entry.1 = some entry.2 ∧ entry.2.name = selected := by
  unfold seeds
  rw [mem_filter, orders.seeds.mem_range, decide_eq_true_eq]

theorem nodup_seeds (orders : ReduceOrders) (selected : String) (g : Graph) :
    ((seeds orders selected g).map (fun entry => entry.1)).Nodup := by
  have keys : ((orders.seeds.range g.nodes).map Sigma.fst).Nodup :=
    ((orders.seeds.perm g.nodes.entries).map Sigma.fst).nodup_iff.mpr g.nodes.nodupKeys
  exact keys.sublist (filter_sublist.map Sigma.fst)

theorem isTarget_iff (orders : ReduceOrders) {key : String} :
    IsTarget selected g key ↔ ∃ entry ∈ seeds orders selected g, entry.1 = key := by
  constructor
  · rintro ⟨node, found, named⟩
    exact ⟨⟨key, node⟩, mem_seeds.mpr ⟨found, named⟩, rfl⟩
  · rintro ⟨entry, listed, rfl⟩
    exact ⟨entry.2, mem_seeds.mp listed⟩

theorem searched (orders : ReduceOrders) (selected : String) (g : Graph) :
    ∃ s trail, search (reverse orders g) g.nodeAt pathLess
        (size g.nodes + (seeded orders selected g).queue.length + 1) (seeded orders selected g) =
        some s ∧
      Searched orders selected g s trail := by
  obtain ⟨distanceHere, distanceElse⟩ := lookup_filled (fun entry : (_ : String) × Node => entry.1)
    (fun _ => 0) (nodup_seeds orders selected g)
  obtain ⟨pathHere, -⟩ := lookup_filled (fun entry : (_ : String) × Node => entry.1)
    (fun entry => [entry.2]) (nodup_seeds orders selected g)
  have sorted := perm_insertionSort (keyOrder g)
    ((seeds orders selected g).map (fun entry => entry.1))
  have closed : ∀ c ∈ keysOf g, ∀ key ∈ reverse orders g c, key ∈ keysOf g :=
    fun c _ key listed => linked_inside (mem_reverse.mp listed)
  have nodup : (seeded orders selected g).queue.Nodup :=
    sorted.nodup_iff.mpr (nodup_seeds orders selected g)
  have queue : ∀ key, key ∈ (seeded orders selected g).queue ↔ IsTarget selected g key := by
    intro key
    rw [isTarget_iff orders]
    exact sorted.mem_iff.trans mem_map
  have distances : ∀ key distance, (seeded orders selected g).distance.lookup key = some distance ↔
      IsTarget selected g key ∧ distance = 0 := by
    intro key distance
    rw [isTarget_iff orders]
    constructor
    · intro found
      by_cases listed : ∃ entry ∈ seeds orders selected g, entry.1 = key
      · obtain ⟨entry, member, rfl⟩ := listed
        exact ⟨⟨entry, member, rfl⟩, Option.some.inj (found.symm.trans (distanceHere entry member))⟩
      · have absent := distanceElse key (fun entry member same => listed ⟨entry, member, same⟩)
        exact absurd (found.symm.trans absent) (Option.some_ne_none distance)
    · rintro ⟨⟨entry, member, rfl⟩, rfl⟩
      exact distanceHere entry member
  have paths : ∀ key, IsTarget selected g key →
      (seeded orders selected g).pathOf key = [g.nodeAt key] := by
    intro key isTarget
    obtain ⟨entry, member, rfl⟩ := (isTarget_iff orders).mp isTarget
    have stored : (seeded orders selected g).paths.lookup entry.1 = some [entry.2] :=
      pathHere entry member
    unfold Search.pathOf
    rw [stored, Graph.nodeAt_of_lookup (mem_seeds.mp member).1]
    rfl
  obtain ⟨s, trail, ended, result⟩ := BreadthFirst.search_spec pathOrder closed
    (fun _ => target_inside) nodup queue distances paths
  refine ⟨s, trail, ended _ (Nat.lt_succ_of_le (Nat.add_le_add_right ?_ _)), result⟩
  exact (Finset.card_filter_le _ _).trans (toFinset_card_le g.nodes.keys)

end Searched

section Report

variable {orders orders' : ReduceOrders} {selected : String} {g g' : Graph}
  {s s' : Search String Node} {trail trail' : String → List String}
  {key : String}

theorem walk_inside {keys : List String}
    (walk : Walk (reverse orders g) (IsTarget selected g) key keys) :
    key ∈ keysOf g ∧ ∀ x ∈ keys, x ∈ keysOf g := by
  induction walk with
  | source here =>
    refine ⟨target_inside here, fun x listed => ?_⟩
    rw [mem_singleton.mp listed]
    exact target_inside here
  | step edge _ ih =>
    have first := linked_inside (mem_reverse.mp edge)
    refine ⟨first, fun x listed => ?_⟩
    rcases mem_cons.mp listed with rfl | later
    · exact first
    · exact ih.2 x later

theorem seen_inside (result : Searched orders selected g s trail) {distance : ℕ}
    (found : s.distance.lookup key = some distance) : key ∈ keysOf g :=
  (walk_inside (result.walk key distance found).1).1

theorem mem_dependents {d : Dependent} : d ∈ dependents orders selected g s ↔
    ∃ key distance, s.distance.lookup key = some distance ∧ distance ≠ 0 ∧
      (g.nodeAt key).name ≠ selected ∧ d = ⟨g.nodeAt key, distance, s.pathOf key⟩ := by
  unfold dependents
  simp only [mem_map, mem_filter, orders.reached.mem_range, decide_eq_true_eq, not_or]
  constructor
  · rintro ⟨⟨key, distance⟩, ⟨found, further, other⟩, rfl⟩
    exact ⟨key, distance, found, further, other, rfl⟩
  · rintro ⟨key, distance, found, further, other, rfl⟩
    exact ⟨⟨key, distance⟩, ⟨found, further, other⟩, rfl⟩

def dependentIdent (d : Dependent) : ℕ ×ₗ String ×ₗ ℕ ×ₗ String ×ₗ String :=
  toLex (d.distance, d.node.ident)

theorem dependents_byKey (values : List Dependent) :
    KeySort.ByKey (fun a b => dependentLess b a = false) dependentIdent values := by
  intro a _ b _
  unfold dependentLess dependentIdent
  rw [Prod.Lex.toLex_le_toLex]
  by_cases same : b.distance = a.distance
  · simp [same, not_nodeLess_iff]
  · simp only [ne_eq, same, not_false_eq_true, if_true, decide_eq_false_iff_not, not_lt]
    constructor
    · exact fun le => .inl (lt_of_le_of_ne le (Ne.symm same))
    · rintro (less | ⟨equal, -⟩)
      · exact less.le
      · exact absurd equal.symm same

theorem dependents_keys (result : Searched orders selected g s trail) :
    ((dependents orders selected g s).map (fun d => d.node.key)).Nodup := by
  unfold dependents
  rw [map_map]
  refine List.Nodup.map_on ?_ ((orders.reached.nodup_range s.distance).filter _)
  rintro ⟨a, distance⟩ inA ⟨b, distance'⟩ inB same
  have foundA : s.distance.lookup a = some distance :=
    orders.reached.mem_range.mp (mem_of_mem_filter inA)
  have foundB : s.distance.lookup b = some distance' :=
    orders.reached.mem_range.mp (mem_of_mem_filter inB)
  have keyA := (Graph.key_nodeAt (mem_keysOf.mp (seen_inside result foundA))).1
  have keyB := (Graph.key_nodeAt (mem_keysOf.mp (seen_inside result foundB))).1
  have equal : a = b := by
    rw [← keyA, ← keyB]
    exact same
  subst equal
  cases Option.some.inj (foundA.symm.trans foundB)
  rfl

theorem dependents_idents (result : Searched orders selected g s trail) :
    ((dependents orders selected g s).map dependentIdent).Nodup := by
  have keys := dependents_keys result
  refine List.Nodup.map_on ?_ keys.of_map
  intro a inA b inB same
  refine inj_on_of_nodup_map keys inA inB ?_
  obtain ⟨keyA, distanceA, foundA, -, -, rfl⟩ := mem_dependents.mp inA
  obtain ⟨keyB, distanceB, foundB, -, -, rfl⟩ := mem_dependents.mp inB
  have nodes := congrArg (fun ident => (ofLex ident).2) same
  exact key_of_ident (Graph.key_nodeAt (mem_keysOf.mp (seen_inside result foundA))).2
    (Graph.key_nodeAt (mem_keysOf.mp (seen_inside result foundB))).2 nodes

theorem reduce_eq (orders : ReduceOrders) (selected : String) (g : Graph) :
    ∃ s trail cycles,
      Searched orders selected g s trail ∧
      graphCycles orders.cycles g s.distance = some cycles ∧
      reduce orders selected g = some (report orders selected g s cycles) := by
  obtain ⟨s, trail, ended, result⟩ := searched orders selected g
  obtain ⟨found, visited, -⟩ := components_of_search orders.cycles g s.distance
  have cycles := congrArg (Option.map (fun search : StrongComponents.Search String =>
    ((search.components.filter (isCycle orders.cycles g)).map (cycleOf orders.cycles g)).insertionSort
      (fun a b => nodeLess (firstNode b) (firstNode a) = false))) visited
  refine ⟨s, trail, _, result, cycles, ?_⟩
  unfold reduce
  dsimp only
  rw [ended, Option.bind_some]
  exact congrArg (Option.map (report orders selected g s)) cycles

theorem targets_congr (same : Same g g') :
    sortNodes ((seeds orders selected g).map (fun entry => entry.2)) =
      sortNodes ((seeds orders' selected g').map (fun entry => entry.2)) := by
  have reordered := (orders.seeds.range_perm orders'.seeds same.nodes).filter
    (fun entry => entry.2.name = selected)
  refine sortNodes_eq_of_perm ?_ ?_ (reordered.map (fun entry => entry.2))
  · intro node listed
    obtain ⟨entry, inside, rfl⟩ := mem_map.mp listed
    exact (g.nodesKeyed _ _ (mem_seeds.mp inside).1).2
  · have keys : ((seeds orders selected g).map (fun entry => entry.2)).map Node.key =
        (seeds orders selected g).map (fun entry => entry.1) := by
      rw [map_map]
      refine map_congr_left (fun entry inside => ?_)
      exact (g.nodesKeyed _ _ (mem_seeds.mp inside).1).1
    rw [keys]
    exact nodup_seeds orders selected g

theorem dependents_perm (same : Same g g')
    (distances : ∀ key, s.distance.lookup key = s'.distance.lookup key)
    (paths : ∀ key, (s.distance.lookup key).isSome = true → s.pathOf key = s'.pathOf key) :
    (dependents orders selected g s).Perm (dependents orders' selected g' s') := by
  have reordered := (orders.reached.range_perm orders'.reached distances).filter
    (fun entry => ¬ (entry.2 = 0 ∨ (g.nodeAt entry.1).name = selected))
  unfold dependents
  rw [← same.nodeAt]
  refine List.Perm.trans (List.Perm.of_eq ?_) (reordered.map _)
  refine map_congr_left (fun entry listed => ?_)
  have found := orders.reached.mem_range.mp (mem_of_mem_filter listed)
  rw [paths entry.1 (Option.isSome_iff_exists.mpr ⟨entry.2, found⟩)]

theorem relevantEdges_congr (faithful : Faithful g) (same : Same g g')
    (distances : ∀ key, s.distance.lookup key = s'.distance.lookup key) :
    sortEdges (relevantEdges orders g s) = sortEdges (relevantEdges orders' g' s') := by
  unfold relevantEdges
  simp only [← distances]
  exact sortEdges_range faithful same orders.edges orders'.edges _

theorem reduce_congr (orders orders' : ReduceOrders) (selected : String) (faithful : Faithful g)
    (same : Same g g') : reduce orders selected g = reduce orders' selected g' := by
  obtain ⟨s, trail, cycles, result, cyclesOf, returned⟩ := reduce_eq orders selected g
  obtain ⟨s', trail', cycles', result', cyclesOf', returned'⟩ := reduce_eq orders' selected g'
  have costs : cost g' = cost g := by
    unfold cost
    rw [same.nodeAt]
  have targets : IsTarget selected g' = IsTarget selected g := by
    unfold IsTarget
    simp only [same.nodes]
  have edges (c key : String) : key ∈ reverse orders g c ↔ key ∈ reverse orders' g' c := by
    rw [mem_reverse, mem_reverse, same.linked]
  have apart (key : String) (a b : List String)
      (walkA : Walk (reverse orders g) (IsTarget selected g) key a)
      (walkB : Walk (reverse orders g) (IsTarget selected g) key b) (equal : cost g a = cost g b) :
      a = b := cost_injective (walk_inside walkA).2 (walk_inside walkB).2 equal
  unfold Searched at result'
  rw [costs, targets, ← same.nodeAt] at result'
  obtain ⟨distances, paths⟩ := result.unique edges result' apart
  have transitive : sortDependents (dependents orders selected g s) =
      sortDependents (dependents orders' selected g' s') :=
    KeySort.eq_of_perm (dependents_byKey _) (dependents_idents result)
      (dependents_perm same distances paths)
  have direct : sortDependents ((dependents orders selected g s).filter (fun d => d.distance = 1)) =
      sortDependents ((dependents orders' selected g' s').filter (fun d => d.distance = 1)) :=
    KeySort.eq_of_perm (dependents_byKey _)
      ((dependents_idents result).sublist (filter_sublist.map dependentIdent))
      ((dependents_perm same distances paths).filter _)
  rw [graphCycles_congr orders.cycles orders'.cycles faithful same distances, cyclesOf'] at cyclesOf
  rw [returned, returned', Option.some.inj cyclesOf]
  unfold report
  rw [targets_congr same, transitive, direct, relevantEdges_congr faithful same distances]

end Report

inductive NodePath (selected : String) (rawNodes : List Node) (rawEdges : List Edge) :
    Node → List Node → Prop
  | target {node : Node} (listed : node ∈ inputNodes rawNodes rawEdges)
      (named : node.name = selected) : NodePath selected rawNodes rawEdges node [node]
  | step {node next : Node} {path : List Node} (edge : ⟨node, next⟩ ∈ inputEdges rawEdges)
      (rest : NodePath selected rawNodes rawEdges next path) :
      NodePath selected rawNodes rawEdges node (node :: path)

def PathBefore : List Node → List Node → Prop := List.Lex (fun a b => nodeLess a b = true)

structure IsReduction (selected : String) (rawNodes : List Node) (rawEdges : List Edge)
    (graph : ReducedGraph) : Prop where
  path : ∀ d ∈ graph.transitive, d.node.name ≠ selected ∧
    NodePath selected rawNodes rawEdges d.node d.path ∧ d.path.length = d.distance + 1
  shortest : ∀ d ∈ graph.transitive, ∀ path, NodePath selected rawNodes rawEdges d.node path →
    d.distance + 1 ≤ path.length
  least : ∀ d ∈ graph.transitive, ∀ path, NodePath selected rawNodes rawEdges d.node path →
    path.length = d.distance + 1 → path = d.path ∨ PathBefore d.path path
  complete : ∀ node path, NodePath selected rawNodes rawEdges node path → node.name ≠ selected →
    ∃ d ∈ graph.transitive, d.node = node
  once : (graph.transitive.map (fun d => d.node)).Nodup
  direct : graph.direct = graph.transitive.filter (fun d => d.distance = 1)

section Exact

variable {orders : ReduceOrders} {selected : String} {rawNodes : List Node} {rawEdges : List Edge}
  {g : Graph}

variable {node : Node} {key : String} {keys : List String}

theorem nodeAt_key (holds : Holds g rawNodes rawEdges)
    (listed : node ∈ inputNodes rawNodes rawEdges) : g.nodeAt node.key = node :=
  Graph.nodeAt_of_lookup (holds.nodes.mpr ⟨listed, rfl⟩)

theorem nodePath_of_walk (holds : Holds g rawNodes rawEdges)
    (walk : Walk (reverse orders g) (IsTarget selected g) key keys) :
    NodePath selected rawNodes rawEdges (g.nodeAt key) (keys.map g.nodeAt) := by
  induction walk with
  | source here =>
    obtain ⟨node, found, named⟩ := here
    obtain ⟨listed, -⟩ := holds.nodes.mp found
    rw [map_singleton, Graph.nodeAt_of_lookup found]
    exact .target listed named
  | step edge _ ih =>
    obtain ⟨own, edge, found, rfl, rfl⟩ := mem_reverse.mp edge
    obtain ⟨listed, -⟩ := holds.edges.mp found
    obtain ⟨first, second⟩ := ends_mem rawNodes listed
    rw [nodeAt_key holds second] at ih
    rw [map_cons, nodeAt_key holds first]
    exact .step listed ih

theorem walk_of_nodePath (orders : ReduceOrders) (holds : Holds g rawNodes rawEdges)
    {path : List Node} (nodePath : NodePath selected rawNodes rawEdges node path) :
    Walk (reverse orders g) (IsTarget selected g) node.key (path.map Node.key) ∧
      node ∈ inputNodes rawNodes rawEdges ∧ (path.map Node.key).map g.nodeAt = path := by
  induction nodePath with
  | target listed named =>
    refine ⟨.source ⟨_, holds.nodes.mpr ⟨listed, rfl⟩, named⟩, listed, ?_⟩
    rw [map_singleton, map_singleton, nodeAt_key holds listed]
  | step edge _ ih =>
    obtain ⟨walk, -, nodes⟩ := ih
    obtain ⟨first, -⟩ := ends_mem rawNodes edge
    refine ⟨.step (mem_reverse.mpr ⟨_, _, holds.edges.mpr ⟨edge, rfl⟩, rfl, rfl⟩) walk, first, ?_⟩
    rw [map_cons, map_cons, nodes, nodeAt_key holds first]

theorem pathBefore_of_cost {a b : List String} (insideA : ∀ x ∈ a, x ∈ keysOf g)
    (insideB : ∀ x ∈ b, x ∈ keysOf g) (less : cost g a < cost g b) :
    PathBefore (a.map g.nodeAt) (b.map g.nodeAt) := by
  induction a generalizing b with
  | nil =>
    cases b with
    | nil => exact absurd less (lt_irrefl _)
    | cons right rights => exact .nil
  | cons left lefts ih =>
    cases b with
    | nil => exact absurd less (not_lt_nil _)
    | cons right rights =>
      rcases cons_lt_cons_iff.mp less with first | ⟨same, rest⟩
      · exact .rel ((nodeLess_iff _ _).mpr first)
      · have equal := ident_injective (insideA left (.head lefts)) (insideB right (.head rights)) same
        subst equal
        exact .cons (ih (fun x listed => insideA x (.tail left listed))
          (fun x listed => insideB x (.tail left listed)) rest)

theorem isTarget_of_length
    (walk : Walk (reverse orders g) (IsTarget selected g) key keys) (single : keys.length = 1) :
    IsTarget selected g key := by
  cases walk with
  | source here => exact here
  | step _ rest => cases rest <;> simp at single

theorem report_isReduction (holds : Holds g rawNodes rawEdges) {s : Search String Node}
    {trail : String → List String} (result : Searched orders selected g s trail)
    (cycles : List Cycle) :
    IsReduction selected rawNodes rawEdges (report orders selected g s cycles) := by
  have sorted := perm_insertionSort (fun a b => dependentLess b a = false)
    (dependents orders selected g s)
  have listed {d : Dependent} (inside : d ∈ (report orders selected g s cycles).transitive) :=
    mem_dependents.mp (sorted.mem_iff.mp inside)
  have keyOf {key : String} {distance : ℕ} (found : s.distance.lookup key = some distance) :
      (g.nodeAt key).key = key :=
    (Graph.key_nodeAt (mem_keysOf.mp (seen_inside result found))).1
  constructor
  · intro d inside
    obtain ⟨key, distance, found, -, other, rfl⟩ := listed inside
    obtain ⟨walk, length, path⟩ := result.walk key distance found
    refine ⟨other, ?_, ?_⟩
    · rw [path]
      exact nodePath_of_walk holds walk
    · rw [path, length_map]
      exact length
  · intro d inside path nodePath
    obtain ⟨key, distance, found, -, -, rfl⟩ := listed inside
    obtain ⟨walk, -, -⟩ := walk_of_nodePath orders holds nodePath
    rw [keyOf found] at walk
    obtain ⟨least, found', le, -⟩ := result.least key _ walk
    rw [length_map, Option.some.inj (found'.symm.trans found)] at le
    exact le
  · intro d inside path nodePath length
    obtain ⟨key, distance, found, -, -, rfl⟩ := listed inside
    obtain ⟨walk, -, nodes⟩ := walk_of_nodePath orders holds nodePath
    rw [keyOf found] at walk
    obtain ⟨least, found', -, le⟩ := result.least key _ walk
    obtain ⟨own, -, ownPath⟩ := result.walk key distance found
    cases Option.some.inj (found'.symm.trans found)
    rw [ownPath, ← nodes]
    rcases (le (by rw [length_map, length])).lt_or_eq with less | same
    · exact .inr (pathBefore_of_cost (walk_inside own).2 (walk_inside walk).2 less)
    · rw [cost_injective (walk_inside own).2 (walk_inside walk).2 same]
      exact .inl rfl
  · intro node path nodePath other
    obtain ⟨walk, inside, -⟩ := walk_of_nodePath orders holds nodePath
    obtain ⟨distance, found, -⟩ := result.least node.key _ walk
    have own := nodeAt_key holds inside
    have further : distance ≠ 0 := by
      rintro rfl
      obtain ⟨toTarget, length, -⟩ := result.walk node.key 0 found
      obtain ⟨target, present, named⟩ := isTarget_of_length toTarget length
      rw [← Graph.nodeAt_of_lookup present, own] at named
      exact other named
    refine ⟨⟨_, distance, _⟩, sorted.mem_iff.mpr (mem_dependents.mpr
      ⟨node.key, distance, found, further, ?_, rfl⟩), own⟩
    rw [own]
    exact other
  · have keys := dependents_keys result
    have nodes : ((dependents orders selected g s).map
        (fun d => d.node)).Nodup := by
      refine List.Nodup.of_map Node.key ?_
      rw [map_map]
      exact keys
    exact (sorted.map (fun d => d.node)).nodup_iff.mpr nodes
  · exact (KeySort.filter_insertionSort (dependents_byKey _) (dependents_idents result) _).symm

end Exact

/-- For nodes and edges whose keys tell them apart: the reduction lists the nodes of other ports
that reach the selected port, once and with the least shortest path; the direct ones are those at
distance one; and no order matters. -/
theorem reduceGraph_exact (selected : String) (rawNodes : List Node) (rawEdges : List Edge)
    (tell : KeysTell rawNodes rawEdges) :
    ∃ graph, IsReduction selected rawNodes rawEdges graph ∧
      ∀ orders rawNodes' rawEdges', rawNodes'.Perm rawNodes → rawEdges'.Perm rawEdges →
        reduceGraph orders selected rawNodes' rawEdges' = some graph := by
  obtain ⟨s, trail, cycles, result, -, returned⟩ :=
    reduce_eq .plain selected (Graph.gather rawNodes rawEdges)
  refine ⟨_, report_isReduction (gather_holds tell) result cycles, ?_⟩
  intro orders rawNodes' rawEdges' nodes edges
  rw [← returned]
  exact (reduce_congr .plain orders selected (gather_holds tell).faithful (gather_same tell nodes edges)).symm

def port (name : String) (features : List String) : Node := ⟨name, .target, "x64-linux", features⟩

def diamond : List Edge :=
  [⟨port "app" [], port "png" []⟩, ⟨port "app" [], port "curl" ["ssl"]⟩, ⟨port "png" [], port "zlib" []⟩,
    ⟨port "curl" ["ssl"], port "zlib" []⟩, ⟨port "curl" ["ssl"], port "curl" ["ssl"]⟩,
    ⟨port "png" [], port "zlib" []⟩]

theorem reduceGraph_exact_diamond : KeysTell [port "zlib" []] diamond ∧
    ∃ graph, IsReduction "zlib" [port "zlib" []] diamond graph ∧
      ∀ orders rawNodes' rawEdges', rawNodes'.Perm [port "zlib" []] → rawEdges'.Perm diamond →
        reduceGraph orders "zlib" rawNodes' rawEdges' = some graph :=
  ⟨by decide +kernel, reduceGraph_exact "zlib" [port "zlib" []] diamond (by decide +kernel)⟩

/-- A node without features and one with an empty feature have the same key: the order of the edges
shows in the result. -/
theorem shared_key_shows_order :
    [(⟨port "app" [""], port "zlib" []⟩ : Edge), ⟨port "app" [], port "zlib" []⟩].Perm
        [⟨port "app" [], port "zlib" []⟩, ⟨port "app" [""], port "zlib" []⟩] ∧
      reduceGraph .plain "zlib" []
          [⟨port "app" [""], port "zlib" []⟩, ⟨port "app" [], port "zlib" []⟩] ≠
        reduceGraph .plain "zlib" []
          [⟨port "app" [], port "zlib" []⟩, ⟨port "app" [""], port "zlib" []⟩] :=
  ⟨List.Perm.swap _ _ _, by decide +kernel⟩

end McpLocalHub.ReverseDeps.Reduction
