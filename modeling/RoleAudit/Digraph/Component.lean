import RoleAudit.Digraph.Basic

/-!
# Strongly connected components

Two nodes belong together when each can be reached from the other. One depth-first walk finds all
components. Every node gets a number when it is entered and goes on a stack. A walk from a node
gives back the least number on the stack that can be reached from it; when that is no less than its
own, the stack down to the node is a component. Numbers of finished nodes count as `done`, which is
greater than every number of a node on the stack.

A component is complete before any component that leads to it, so the list of components goes
against the edges.
-/

namespace RoleAudit.Digraph

variable {α : Type} [Ord α]

/-- The position of every node. -/
def positions (g : Digraph α) : Std.TreeMap α Nat :=
  g.nodes.zipIdx.foldl (fun m (a, i) => m.insert a i) .empty

/-- Where the walk stands. -/
structure Walk (α : Type) [Ord α] where
  /-- The number of every node that was entered. -/
  numbers : Std.TreeMap α Nat
  /-- How many nodes were entered. -/
  entered : Nat
  /-- The entered nodes without a component, latest first. -/
  stack : List α
  /-- The components found so far, latest first. -/
  found : List (List α)

namespace Walk

/-- Before the first step. -/
def start : Walk α := { numbers := .empty, entered := 0, stack := [], found := [] }

/-- Numbers `a` and puts it on the stack. -/
def enter (w : Walk α) (a : α) : Walk α :=
  { w with
    numbers := w.numbers.insert a w.entered
    entered := w.entered + 1
    stack := a :: w.stack }

variable [DecidableEq α]

/-- Cuts a stack after `a`: the nodes down to and with `a`, and the nodes below. -/
def cut (a : α) : List α → List α × List α
  | [] => ([], [])
  | b :: rest =>
    if b = a then ([b], rest)
    else
      let (above, below) := cut a rest
      (b :: above, below)

/-- Takes the stack down to `a` for a component. -/
def close (done : Nat) (w : Walk α) (a : α) : Walk α :=
  let (component, below) := cut a w.stack
  { w with
    numbers := component.foldl (fun m b => m.insert b done) w.numbers
    stack := below
    found := component :: w.found }

/-- Goes on to a successor that `visit` is to enter if it is new. The first of a pair is the least
number on the stack within reach so far. -/
def follow (visit : Walk α → α → Nat × Walk α) (s : Nat × Walk α) (next : α) : Nat × Walk α :=
  match s.2.numbers.get? next with
  | some number => (min s.1 number, s.2)
  | none =>
    let reached := visit s.2 next
    (min s.1 reached.1, reached.2)

/-- Leaves `a`, whose number is `own`. When no lesser number is within reach, the stack down to `a`
is a component. -/
def conclude (done own : Nat) (a : α) (s : Nat × Walk α) : Nat × Walk α :=
  if s.1 < own then s else (done, s.2.close done a)

variable (g : Digraph α)

/-- Walks from `a`: the least number on the stack within reach, and where the walk then stands. No
walk is longer than there are nodes, so `fuel` for all of them is enough. -/
def visit : Nat → Walk α → α → Nat × Walk α
  | 0, w, _ => (g.nodeCount, w)
  | fuel + 1, w, a =>
    conclude g.nodeCount w.entered a
      ((g.successors a).foldl (follow (visit fuel)) (g.nodeCount, w.enter a))

/-- The walk from all nodes in order, with the given fuel for each. -/
def runWith (fuel : Nat) : Walk α :=
  g.nodes.foldl (fun w a => if w.numbers.contains a then w else (visit g fuel w a).2) start

/-- The whole walk. -/
def run : Walk α := runWith g g.nodeCount

end Walk

variable [DecidableEq α]

/-- All components, each in node order and before every component that leads to it. -/
def allComponents (g : Digraph α) : List (List α) :=
  let position := g.positions
  (Walk.run g).found.reverse.map fun component =>
    component.mergeSort fun a b => position.getD a 0 ≤ position.getD b 0

/-- The components of two or more nodes. -/
def components (g : Digraph α) : List (List α) :=
  g.allComponents.filter fun component => 2 ≤ component.length

/-- The first node of the component of every node. -/
def representatives (g : Digraph α) : Std.TreeMap α α :=
  g.allComponents.foldl (fun m component =>
    match component with
    | [] => m
    | first :: _ => component.foldl (fun m a => m.insert a first) m) .empty

/-- The first node of the component of a node; the node itself when it is not in the graph. -/
def representative (g : Digraph α) (a : α) : α := g.representatives.getD a a

/-- Every node with the first node of its component. -/
def componentMapping (g : Digraph α) : List (α × α) :=
  let first := g.representatives
  g.nodes.map fun a => (a, first.getD a a)

end RoleAudit.Digraph
