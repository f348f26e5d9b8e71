/- Module: ReverseDeps/PackageGraph
   source: internal/vcpkgmcp/reversedepgraph/types.go,
   internal/vcpkgmcp/reversedepgraph/dependinfo.go, internal/vcpkgmcp/reversedepgraph/graph.go
   digest: Package nodes with their keys and their order, and the graph that is gathered from
   lists. -/

import McpLocalHub.Foundation.KeySort
import McpLocalHub.Foundation.Maps
import Mathlib.Data.List.Destutter
import Mathlib.Data.Prod.Lex
import Mathlib.Data.String.Basic

set_option autoImplicit false

namespace McpLocalHub.ReverseDeps.PackageGraph

open Foundation.Maps Foundation

inductive Role
  | target | host | other
  deriving DecidableEq

def Role.text : Role → String
  | .target => "target"
  | .host => "host"
  | .other => "other"

def Role.rank : Role → ℕ
  | .target => 0
  | .host => 1
  | .other => 2

structure Node where
  name : String
  role : Role
  triplet : String
  features : List String := []
  deriving DecidableEq

def compactStrings (values : List String) : List String := values.destutter (· ≠ ·)

def Node.normalized (node : Node) : Node :=
  { node with features := compactStrings (node.features.insertionSort (· ≤ ·)) }

def joined (features : List String) : String := String.intercalate "\x00" features

def Node.key (node : Node) : String :=
  let node := node.normalized
  node.name ++ "\x00" ++ node.role.text ++ "\x00" ++ node.triplet ++ "\x00" ++ joined node.features

def nodeLess (left right : Node) : Bool :=
  if left.name ≠ right.name then left.name < right.name
  else if left.role.rank ≠ right.role.rank then left.role.rank < right.role.rank
  else if left.triplet ≠ right.triplet then left.triplet < right.triplet
  else joined left.features < joined right.features

def sortNodes (nodes : List Node) : List Node :=
  nodes.insertionSort (fun a b => nodeLess b a = false)

structure Edge where
  fromNode : Node
  toNode : Node
  deriving DecidableEq

def Edge.normalized (edge : Edge) : Edge := ⟨edge.fromNode.normalized, edge.toNode.normalized⟩

def Edge.key (edge : Edge) : String := edge.fromNode.key ++ "\x01" ++ edge.toNode.key

def edgeLess (left right : Edge) : Bool :=
  if left.fromNode.key ≠ right.fromNode.key then nodeLess left.fromNode right.fromNode
  else nodeLess left.toNode right.toNode

def sortEdges (edges : List Edge) : List Edge :=
  edges.insertionSort (fun a b => edgeLess b a = false)

def Node.ident (node : Node) : String ×ₗ ℕ ×ₗ String ×ₗ String :=
  toLex (node.name, toLex (node.role.rank, toLex (node.triplet, joined node.features)))

theorem nodeLess_iff
    (left right : Node) : nodeLess left right = true ↔ left.ident < right.ident := by
  unfold nodeLess Node.ident
  simp only [Prod.Lex.toLex_lt_toLex]
  by_cases name : left.name = right.name
  · by_cases role : left.role.rank = right.role.rank
    · by_cases triplet : left.triplet = right.triplet
      · simp [name, role, triplet]
      · simp [name, role, triplet]
    · simp [name, role]
  · simp [name]

theorem not_nodeLess_iff (left right : Node) :
    nodeLess right left = false ↔ left.ident ≤ right.ident := by
  rw [← not_lt, ← nodeLess_iff, Bool.not_eq_true]

theorem Role.rank_injective : Function.Injective Role.rank := by
  intro a b same
  cases a <;> cases b <;> first | rfl | cases same

theorem normalized_normalized (node : Node) : node.normalized.normalized = node.normalized := by
  have sorted : (compactStrings (node.features.insertionSort (· ≤ ·))).Pairwise (· ≤ ·) :=
    (List.pairwise_insertionSort _ _).sublist (List.destutter_sublist _ _)
  unfold Node.normalized
  rw [sorted.insertionSort_eq]
  exact congrArg (Node.mk node.name node.role node.triplet) (List.destutter_idem _ _)

theorem key_of_ident {left right : Node} (leftNormal : left.normalized = left)
    (rightNormal : right.normalized = right) (same : left.ident = right.ident) :
    left.key = right.key := by
  unfold Node.key
  rw [leftNormal, rightNormal]
  dsimp only
  simp only [Node.ident, EmbeddingLike.apply_eq_iff_eq, Prod.mk.injEq] at same
  obtain ⟨name, rank, triplet, features⟩ := same
  rw [name, Role.rank_injective rank, triplet, features]

structure MapOrder where
  shuffle : ∀ {α : Type}, List α → List α
  perm : ∀ {α : Type} (items : List α), (shuffle items).Perm items

def MapOrder.plain : MapOrder := ⟨id, List.Perm.refl⟩

section Range

variable {ν : Type}

def MapOrder.range (order : MapOrder) (m : Map String ν) : List ((_ : String) × ν) :=
  order.shuffle m.entries

theorem MapOrder.mem_range (order : MapOrder) {m : Map String ν} {entry : (_ : String) × ν} :
    entry ∈ order.range m ↔ m.lookup entry.1 = some entry.2 := by
  unfold range
  rw [(order.perm m.entries).mem_iff]
  exact AList.mem_lookup_iff.symm

theorem nodup_entries (m : Map String ν) : m.entries.Nodup :=
  List.Nodup.of_map Sigma.fst m.nodupKeys

theorem MapOrder.nodup_range (order : MapOrder) (m : Map String ν) : (order.range m).Nodup :=
  (order.perm m.entries).nodup_iff.mpr (nodup_entries m)

theorem MapOrder.range_perm (order order' : MapOrder) {m m' : Map String ν}
    (same : ∀ key, m.lookup key = m'.lookup key) : (order.range m).Perm (order'.range m') := by
  refine (List.perm_ext_iff_of_nodup (order.nodup_range m) (order'.nodup_range m')).mpr ?_
  intro entry
  rw [order.mem_range, order'.mem_range, same]

end Range

/-- The maps of nodes and edges under their keys, with the ends of every edge among the nodes. -/
structure Graph where
  nodes : Map String Node
  edges : Map String Edge
  nodesKeyed : ∀ key node, nodes.lookup key = some node → node.key = key ∧ node.normalized = node
  edgesKeyed : ∀ key edge, edges.lookup key = some edge →
    edge.key = key ∧ edge.normalized = edge ∧ (nodes.lookup edge.fromNode.key).isSome = true ∧
      (nodes.lookup edge.toNode.key).isSome = true

namespace Graph

def empty : Graph := ⟨∅, ∅, (fun _ _ hit => nomatch hit), (fun _ _ hit => nomatch hit)⟩

theorem isSome_insert {ν : Type} {m : Map String ν} {key other : String} {value : ν}
    (present : (m.lookup key).isSome = true) : ((m.insert other value).lookup key).isSome = true := by
  by_cases same : key = other
  · subst same
    simp
  · rw [AList.lookup_insert_ne same]
    exact present

def addNode (g : Graph) (node : Node) : Graph where
  nodes := g.nodes.insert node.normalized.key node.normalized
  edges := g.edges
  nodesKeyed := by
    intro key found hit
    rcases lookup_insert_cases hit with ⟨rfl, rfl⟩ | ⟨-, earlier⟩
    · exact ⟨rfl, normalized_normalized node⟩
    · exact g.nodesKeyed key found earlier
  edgesKeyed := fun key edge hit =>
    have kept := g.edgesKeyed key edge hit
    ⟨kept.1, kept.2.1, isSome_insert kept.2.2.1, isSome_insert kept.2.2.2⟩

def addEdge (g : Graph) (edge : Edge) : Graph where
  nodes := ((g.addNode edge.fromNode).addNode edge.toNode).nodes
  edges := g.edges.insert edge.normalized.key edge.normalized
  nodesKeyed := ((g.addNode edge.fromNode).addNode edge.toNode).nodesKeyed
  edgesKeyed := by
    intro key found hit
    rcases lookup_insert_cases hit with ⟨rfl, rfl⟩ | ⟨-, earlier⟩
    · refine ⟨rfl, ?_, isSome_insert ?_, ?_⟩
      · exact congrArg₂ Edge.mk (normalized_normalized edge.fromNode)
          (normalized_normalized edge.toNode)
      · exact (congrArg Option.isSome (AList.lookup_insert g.nodes)).trans rfl
      · exact (congrArg Option.isSome (AList.lookup_insert (g.addNode edge.fromNode).nodes)).trans rfl
    · exact ((g.addNode edge.fromNode).addNode edge.toNode).edgesKeyed key found earlier

def gather (rawNodes : List Node) (rawEdges : List Edge) : Graph :=
  rawEdges.foldl addEdge (rawNodes.foldl addNode empty)

def nodeAt (g : Graph) (key : String) : Node := (g.nodes.lookup key).getD ⟨"", .other, "", []⟩

theorem nodeAt_of_lookup {g : Graph} {key : String} {node : Node}
    (found : g.nodes.lookup key = some node) : g.nodeAt key = node := by
  unfold nodeAt
  rw [found]
  rfl

theorem key_nodeAt {g : Graph} {key : String} (present : (g.nodes.lookup key).isSome = true) :
    (g.nodeAt key).key = key ∧ (g.nodeAt key).normalized = g.nodeAt key := by
  obtain ⟨node, found⟩ := Option.isSome_iff_exists.mp present
  rw [nodeAt_of_lookup found]
  exact g.nodesKeyed key node found

def Linked (g : Graph) (a b : String) : Prop :=
  ∃ key edge, g.edges.lookup key = some edge ∧ edge.fromNode.key = a ∧ edge.toNode.key = b

end Graph

end McpLocalHub.ReverseDeps.PackageGraph
