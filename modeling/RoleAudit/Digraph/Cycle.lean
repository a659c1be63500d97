import Std.Data.TreeSet
import RoleAudit.Digraph.Basic

/-!
# Cycles by depth-first search

The search walks the graph depth first, from the nodes in order and along successors in order, and
enters every node once. An edge that leads back to a node on the current path closes a cycle: the
part of the path from that node on, and the node once more. Every such edge gives one cycle, so the
report is not the list of all cycles, but without its closing edges the graph has none.

At most `limit` cycles are kept. One more sets `truncated` and ends the search.
-/

namespace RoleAudit

/-- The cycles of a graph that a search found. -/
structure CycleReport (α : Type) where
  /-- The cycles in the order they were found; first and last node of each are the same. -/
  cycles : List (List α)
  /-- Whether the search ended at its limit with a further cycle in sight. -/
  truncated : Bool
  deriving DecidableEq, Repr

namespace Digraph

variable {α : Type} [Ord α]

/-- How long a search goes on. -/
structure CycleSearch.Bounds where
  /-- How many cycles are kept. -/
  limit : Nat
  /-- Whether one cycle is enough. -/
  firstOnly : Bool

/-- Where a search stands. -/
structure CycleSearch (α : Type) [Ord α] where
  /-- The nodes that were entered. -/
  visited : Std.TreeSet α
  /-- The nodes from the current one back to the start of the walk. -/
  path : List α
  /-- The cycles found so far, latest first. -/
  found : List (List α)
  /-- Whether a cycle was found beyond the limit. -/
  truncated : Bool

namespace CycleSearch

/-- Before the first step. -/
def start : CycleSearch α := { visited := .empty, path := [], found := [], truncated := false }

/-- Whether the search is over. -/
def halted (b : Bounds) (s : CycleSearch α) : Bool :=
  s.truncated || (b.firstOnly && !s.found.isEmpty)

/-- The current node becomes `a`. -/
def enter (s : CycleSearch α) (a : α) : CycleSearch α :=
  { s with visited := s.visited.insert a, path := a :: s.path }

/-- Back to the node before the current one. -/
def leave (s : CycleSearch α) : CycleSearch α := { s with path := s.path.tail }

variable [DecidableEq α]

/-- The part of a path, latest node first, down to and with `a`. -/
def upTo (a : α) : List α → List α
  | [] => []
  | b :: rest => if b = a then [b] else b :: upTo a rest

/-- Records the cycle that the edge to `a`, a node of the path, closes. -/
def record (b : Bounds) (s : CycleSearch α) (a : α) : CycleSearch α :=
  if s.found.length ≥ b.limit then { s with truncated := true }
  else { s with found := (a :: upTo a s.path).reverse :: s.found }

/-- Goes on to a successor of the current node: `visit` enters it if it is new, and it closes a cycle
if it is on the path. -/
def follow (b : Bounds) (visit : CycleSearch α → α → CycleSearch α) (s : CycleSearch α) (next : α) :
    CycleSearch α :=
  if s.halted b then s
  else if !s.visited.contains next then visit s next
  else if next ∈ s.path then s.record b next
  else s

variable (g : Digraph α) (b : Bounds)

/-- Enters `a`, follows its successors and comes back. No walk is longer than there are nodes, so
`fuel` for all of them is enough. -/
def visit : Nat → CycleSearch α → α → CycleSearch α
  | 0, s, _ => s
  | fuel + 1, s, a => ((g.successors a).foldl (follow b (visit fuel)) (s.enter a)).leave

/-- The whole search. -/
def run : CycleSearch α :=
  g.nodes.foldl (fun s a =>
    if s.halted b || s.visited.contains a then s else visit g b g.nodeCount s a) start

end CycleSearch

variable [DecidableEq α]

/-- The cycles that closing edges give, at most `limit` of them. -/
def findCycles (g : Digraph α) (limit : Nat) : CycleReport α :=
  let s := CycleSearch.run g { limit, firstOnly := false }
  { cycles := s.found.reverse, truncated := s.truncated }

/-- Whether the graph has a cycle; an edge from a node to itself is one. -/
def hasCycles (g : Digraph α) : Bool :=
  !(CycleSearch.run g { limit := 1, firstOnly := true }).found.isEmpty

end Digraph

end RoleAudit
