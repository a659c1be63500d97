import RoleAudit.Digraph.Component

/-!
# The length of dependency chains

With every component taken for its first node, and with the edges inside of components left out, a
graph has no cycles. Its nodes can then be put in an order in which all edges go forward, and one pass
in that order finds the longest chain that ends at each node. The longest of them is the greatest
number of edges between different components that one walk can use.
-/

namespace RoleAudit.Digraph

variable {α : Type} [Ord α]

/-! ## Chains along an order -/

/-- How long chains are, as far as the edges of the nodes passed so far go. -/
structure Chains (α : Type) [Ord α] where
  /-- The longest chain that ends at a node. A node that no edge was followed to has no entry. -/
  endingAt : Std.TreeMap α Nat
  /-- The longest chain that ends at a node passed so far. -/
  longest : Nat

namespace Chains

/-- Before the first node. -/
def start : Chains α := { endingAt := .empty, longest := 0 }

/-- The longest chain that ends at a node. -/
def lengthAt (s : Chains α) (a : α) : Nat := s.endingAt.getD a 0

/-- Carries a chain of the given length on to a node. -/
def reach (length : Nat) (endingAt : Std.TreeMap α Nat) (a : α) : Std.TreeMap α Nat :=
  endingAt.insert a (max (endingAt.getD a 0) length)

/-- Passes a node: the longest chain that ends there goes on to its successors. -/
def pass (g : Digraph α) (s : Chains α) (a : α) : Chains α where
  endingAt := (g.successors a).foldl (reach (s.lengthAt a + 1)) s.endingAt
  longest := max s.longest (s.lengthAt a)

end Chains

/-- The longest chain of a graph without cycles whose nodes are given in an order in which all edges go
forward. -/
def longestAlong (g : Digraph α) (order : List α) : Nat :=
  (order.foldl (Chains.pass g) .start).longest

variable [DecidableEq α]

/-- Whether a component is one node without an edge to itself. -/
def isLoneNode (g : Digraph α) : List α → Bool
  | [a] => !g.hasEdge a a
  | _ => false

/-- The nodes in an order in which all edges go forward; there is none where there is a cycle. -/
def topologicalOrder? (g : Digraph α) : Option (List α) :=
  let components := g.allComponents
  if components.all g.isLoneNode then some components.reverse.flatten else none

/-! ## One node for every component -/

/-- The graph of the first nodes of all components, with the edges between different components. -/
def condensation (g : Digraph α) : Digraph α :=
  let firsts := g.representatives
  let first := fun a => firsts.getD a a
  let nodes := g.nodes.foldl (fun d a => d.addNode (first a)) empty
  g.edges.foldl (fun d (a, b) =>
    if first a = first b then d else d.addEdge (first a) (first b)) nodes

/-- The longest chain of the graph, where `sort` puts the nodes of the condensation in order. -/
def longestChainBy (sort : Digraph α → Option (List α)) (g : Digraph α) : Nat :=
  let condensed := g.condensation
  match sort condensed with
  | some order => condensed.longestAlong order
  | none => 0

/-- The longest chain of the graph. -/
def longestChain (g : Digraph α) : Nat := g.longestChainBy topologicalOrder?

end RoleAudit.Digraph
