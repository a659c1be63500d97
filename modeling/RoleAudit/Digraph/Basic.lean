import Std.Data.TreeMap
import Std.Data.TreeSet

/-!
# Directed graphs

A plain directed graph over any ordered type of nodes. Nodes and the successors of a node keep the
order in which they were first mentioned, so that every walk over the graph is deterministic. An
edge brings its ends along, and an edge that is there already changes nothing.

The edges are kept twice: as the successors of each node, for walks, and as a set of pairs, for
questions about one edge and for their count.
-/

namespace RoleAudit

/-- A directed graph. -/
structure Digraph (α : Type) [Ord α] where
  /-- The nodes in the order of their first mention. -/
  nodeArray : Array α
  /-- The successors of every node in the order of their first mention. -/
  adjacency : Std.TreeMap α (Array α)
  /-- The edges, by their source and then by their target. -/
  edgeSet : Std.TreeSet (α × α) lexOrd.compare

namespace Digraph

variable {α : Type} [Ord α]

/-- The graph without nodes. -/
def empty : Digraph α := { nodeArray := #[], adjacency := .empty, edgeSet := .empty }

instance : Inhabited (Digraph α) := ⟨empty⟩

/-- The nodes in the order of their first mention. -/
def nodes (g : Digraph α) : List α := g.nodeArray.toList

/-- Whether a node belongs to the graph. -/
def contains (g : Digraph α) (a : α) : Bool := g.adjacency.contains a

/-- The successors of a node in the order of their first mention. -/
def successors (g : Digraph α) (a : α) : List α := (g.adjacency.getD a #[]).toList

/-- Adds a node. -/
def addNode (g : Digraph α) (a : α) : Digraph α :=
  if g.contains a then g
  else { g with nodeArray := g.nodeArray.push a, adjacency := g.adjacency.insert a #[] }

/-- All edges, node by node and in successor order. -/
def edges (g : Digraph α) : List (α × α) :=
  g.nodes.flatMap fun a => (g.successors a).map fun b => (a, b)

/-- How many nodes there are. -/
def nodeCount (g : Digraph α) : Nat := g.nodeArray.size

/-- How many edges there are. -/
def edgeCount (g : Digraph α) : Nat := g.edgeSet.size

/-- Whether there are no nodes. -/
def isEmpty (g : Digraph α) : Bool := g.nodeArray.isEmpty

/-- Whether there is an edge between two nodes. -/
def hasEdge (g : Digraph α) (a b : α) : Bool := g.edgeSet.contains (a, b)

/-- Adds an edge and, where they are new, its ends. -/
def addEdge (g : Digraph α) (a b : α) : Digraph α :=
  let g := (g.addNode a).addNode b
  if g.hasEdge a b then g
  else
    { g with
      adjacency := g.adjacency.insert a ((g.adjacency.getD a #[]).push b)
      edgeSet := g.edgeSet.insert (a, b) }

/-- The graph of some edges. -/
def ofEdges (edges : List (α × α)) : Digraph α :=
  edges.foldl (fun g (a, b) => g.addEdge a b) empty

/-- The nodes with a given successor, in node order. -/
def predecessors [DecidableEq α] (g : Digraph α) (b : α) : List α :=
  g.nodes.filter fun a => b ∈ g.successors a

end Digraph

end RoleAudit
