import RoleAudit.Proofs.Digraph.Reach

/-!
# What a graph keeps of its mentions

A graph keeps the mentioned nodes as a list, the mentioned edges as lists of successors, and the same
edges once more as a set. Whatever is mentioned, and however often, the three agree: each answer of the
graph can be read off the mentions alone, and it does not matter which of the three gives it.
-/

namespace RoleAudit.Digraph

variable {α : Type} [Ord α] [DecidableEq α]

/-- The nodes before a node are those that it is a successor of. -/
theorem WellFormed.mem_predecessors {g : Digraph α} (h : g.WellFormed) {a b : α} :
    a ∈ g.predecessors b ↔ b ∈ g.successors a := by
  rw [predecessors, List.mem_filter, decide_eq_true_eq]
  exact and_iff_right_of_imp fun hl => (h.leads_mem hl).1

variable [Std.TransOrd α] [Std.LawfulEqOrd α]

theorem mem_edges_ofMentions {mentions : List (Mention α)} {a b : α} :
    (a, b) ∈ (ofMentions mentions).edges ↔ .edge a b ∈ mentions :=
  (wellFormed_ofMentions mentions).mem_edges.trans leads_ofMentions

/-- The node list, the successors and the set of edges agree for every sequence of mentions. The nodes
are what is mentioned, in the order of first mention; the successors of a node are the targets of the
edges that leave it, in the order of first mention; an edge is in the set, among the successors of its
source and among the predecessors of its target, or in none of them; the list of edges has each
mentioned edge, and no other, exactly once; the set is as large as the list; the ends of all edges are
nodes. -/
theorem structures_agree (mentions : List (Mention α)) :
    let g := ofMentions mentions
    g.nodes = distinct (mentions.flatMap Mention.names) ∧
    (∀ a, g.successors a = distinct (mentions.filterMap (Mention.targetFrom? a))) ∧
    (∀ a b, (g.hasEdge a b = true ↔ b ∈ g.successors a) ∧
      (b ∈ g.successors a ↔ a ∈ g.predecessors b)) ∧
    (g.edges.Nodup ∧ ∀ a b, (a, b) ∈ g.edges ↔ .edge a b ∈ mentions) ∧
    g.edgeCount = g.edges.length ∧
    ∀ edge ∈ g.edges, edge.1 ∈ g.nodes ∧ edge.2 ∈ g.nodes := by
  intro g
  have hg : g.WellFormed := wellFormed_ofMentions mentions
  refine ⟨nodes_ofMentions mentions, successors_ofMentions mentions,
    fun a b => ⟨hg.hasEdge_iff, hg.mem_predecessors.symm⟩,
    ⟨hg.edges_nodup, fun a b => mem_edges_ofMentions⟩, hg.edgeCount_eq, ?_⟩
  rintro ⟨a, b⟩ hedge
  exact hg.leads_mem (hg.mem_edges.1 hedge)

/-- A node mentioned again, an edge mentioned again and an edge from a node to itself. -/
def repeatedMentions : List (Mention Nat) :=
  [.edge 2 1, .node 2, .edge 1 1, .edge 2 1, .node 3, .edge 2 3]

/-- Of six mentions three nodes and three edges are left. -/
theorem repeated_mentions_count_once :
    let g := ofMentions repeatedMentions
    g.nodes = [2, 1, 3] ∧ g.successors 2 = [1, 3] ∧ 1 ∈ g.predecessors 1 ∧
      (2, 1) ∈ g.edges ∧ g.edgeCount = g.edges.length ∧ ¬ g.hasEdge 3 2 = true := by
  obtain ⟨hnodes, hsuccessors, hagree, ⟨-, hedges⟩, hcount, -⟩ := structures_agree repeatedMentions
  have hloop : 1 ∈ (ofMentions repeatedMentions).successors 1 := by
    rw [hsuccessors]
    decide
  have hnone : 2 ∉ (ofMentions repeatedMentions).successors 3 := by
    rw [hsuccessors]
    decide
  exact ⟨hnodes.trans (by decide), (hsuccessors 2).trans (by decide), (hagree 1 1).2.1 hloop,
    (hedges 2 1).2 (by simp [repeatedMentions]), hcount, mt (hagree 3 2).1.1 hnone⟩

end RoleAudit.Digraph
