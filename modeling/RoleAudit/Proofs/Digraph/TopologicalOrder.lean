import RoleAudit.Digraph.Condensation
import RoleAudit.Proofs.Digraph.CycleComponents

/-!
# Orders in which all edges go forward

A graph without cycles has such an order, and a graph with a cycle has none. The walk for components
finds one on its way: no component reaches one that was found after it, so the components from the
last one found to the first go with the edges. Where each of them is one node without an edge to
itself, their nodes are in order.
-/

namespace RoleAudit.Digraph

open Relation

variable {α : Type} [Ord α]

/-- All nodes of a graph, in an order in which all edges go forward. -/
structure IsTopologicalOrder (g : Digraph α) (order : List α) : Prop where
  /-- The nodes of the graph are put in order. -/
  perm : order.Perm g.nodes
  /-- The successors of a node come after it. -/
  forward : ∀ before a after, order = before ++ a :: after → ∀ b, g.Leads a b → b ∈ after

/-- A function that puts the nodes of every graph without cycles in an order in which all edges go
forward, and that gives up on all other graphs. -/
structure SortsTopologically (sort : Digraph α → Option (List α)) : Prop where
  /-- There is an order exactly if there is no cycle. -/
  isSome_iff : ∀ {g : Digraph α}, g.WellFormed → ((sort g).isSome = true ↔ ¬ g.HasCycle)
  /-- What is given is an order. -/
  ordered : ∀ {g : Digraph α} {order : List α}, g.WellFormed → sort g = some order →
    g.IsTopologicalOrder order

namespace IsTopologicalOrder

variable {g : Digraph α} {order : List α} (h : g.IsTopologicalOrder order)

include h

theorem nodup (hg : g.WellFormed) : order.Nodup := h.perm.nodup_iff.2 hg.nodup

/-- What can be reached from a node over an edge comes after it. -/
theorem mem_of_transGen {a b : α} (hab : TransGen g.Leads a b) {before after : List α}
    (horder : order = before ++ a :: after) : b ∈ after := by
  induction hab with
  | single hl => exact h.forward before a after horder _ hl
  | @tail c b hac hl ih =>
    obtain ⟨between, rest, rfl⟩ := List.append_of_mem ih
    have hc : order = (before ++ a :: between) ++ c :: rest := by
      rw [horder, List.append_assoc, List.cons_append]
    have hb := h.forward _ c rest hc b hl
    exact List.mem_append_right _ (List.mem_cons_of_mem c hb)

theorem not_hasCycle (hg : g.WellFormed) : ¬ g.HasCycle := by
  rintro ⟨a, hcycle⟩
  obtain ⟨b, hl, -⟩ := TransGen.head'_iff.1 hcycle
  have ha : a ∈ order := h.perm.symm.subset (hg.leads_mem hl).1
  obtain ⟨before, after, horder⟩ := List.append_of_mem ha
  have hafter : a ∈ after := h.mem_of_transGen hcycle horder
  have hnodup := h.nodup hg
  rw [horder] at hnodup
  exact (List.nodup_cons.1 (List.nodup_append.1 hnodup).2.1).1 hafter

/-- The ends of an edge do not belong together. -/
theorem not_together (hg : g.WellFormed) {a b : α} (hl : g.Leads a b) : ¬ g.Together a b :=
  fun htogether => h.not_hasCycle hg ⟨a, TransGen.head' hl htogether.2⟩

end IsTopologicalOrder

/-! ## The order of the components -/

/-- No component found reaches one that was found later. -/
theorem Walk.Settled.pairwise {g : Digraph α} {found : List (List α)} (h : Settled g found)
    (hnodup : found.flatten.Nodup) :
    found.Pairwise fun c d => ∀ a ∈ d, ∀ b ∈ c, ¬ g.Reaches a b := by
  induction found with
  | nil => exact List.Pairwise.nil
  | cons c rest ih =>
    have hrest : Settled g rest := h.2.2
    rw [List.flatten_cons] at hnodup
    refine List.pairwise_cons.2 ⟨?_, ih hrest (List.nodup_append.1 hnodup).2.1⟩
    -- what is found is never left, and `c` is not part of what was found before it
    intro d hd a ha b hb hab
    have hback : b ∈ rest.flatten := hrest.reaches (List.mem_flatten.2 ⟨d, hd, ha⟩) hab
    exact (List.nodup_append.1 hnodup).2.2 b hb b hback rfl

variable [Std.TransOrd α] [Std.LawfulEqOrd α] [DecidableEq α]

section WellFormed

variable {g : Digraph α} (hg : g.WellFormed)

include hg

/-- No component reaches a later one. -/
theorem WellFormed.pairwise_allComponents :
    g.allComponents.Pairwise fun c d => ∀ a ∈ c, ∀ b ∈ d, ¬ g.Reaches a b := by
  have hfound := (Walk.run_inv hg).1.settled.pairwise
    ((Walk.flatten_found_perm hg).nodup_iff.2 hg.nodup)
  rw [hg.allComponents_eq, List.pairwise_map, List.pairwise_reverse]
  refine hfound.imp fun {c d} hcd a ha b hb => ?_
  simp only [List.mem_filter, decide_eq_true_eq] at ha hb
  exact hcd a ha.2 b hb.2

omit [Std.TransOrd α] [Std.LawfulEqOrd α] [DecidableEq α] in
theorem WellFormed.isLoneNode_iff {c : List α} :
    g.isLoneNode c = true ↔ ∃ a, c = [a] ∧ ¬ g.Leads a a := by
  match c with
  | [] => simp [isLoneNode]
  | [a] => simp [isLoneNode, ← hg.hasEdge_iff]
  | a :: b :: rest => simp [isLoneNode]

/-- A graph has no cycle exactly if each of its components is one node without an edge to itself. -/
theorem WellFormed.all_isLoneNode_iff :
    g.allComponents.all g.isLoneNode = true ↔ ¬ g.HasCycle := by
  rw [List.all_eq_true, hg.hasCycle_iff_components, not_or, not_not]
  constructor
  · intro hlone
    constructor
    · refine List.filter_eq_nil_iff.2 fun c hc hlen => ?_
      obtain ⟨a, rfl, -⟩ := hg.isLoneNode_iff.1 (hlone c hc)
      exact Nat.not_succ_le_self 1 (of_decide_eq_true hlen)
    · rintro ⟨a, hl⟩
      obtain ⟨c, hc, hac⟩ := hg.exists_component (hg.leads_mem hl).1
      obtain ⟨b, rfl, hloop⟩ := hg.isLoneNode_iff.1 (hlone c hc)
      rw [List.mem_singleton.1 hac] at hl
      exact hloop hl
  · rintro ⟨hnone, hloop⟩ c hc
    have hlen : c.length < 2 := by
      by_contra hlen
      exact List.filter_eq_nil_iff.1 hnone c hc (decide_eq_true (Nat.not_lt.1 hlen))
    match c, hlen, hg.component_ne_nil hc with
    | [a], _, _ => exact hg.isLoneNode_iff.2 ⟨a, rfl, fun hl => hloop ⟨a, hl⟩⟩

/-- Components of one node each, from the last one found to the first, are in order. -/
theorem WellFormed.isTopologicalOrder_reverse (hlone : g.allComponents.all g.isLoneNode = true) :
    g.IsTopologicalOrder g.allComponents.reverse.flatten := by
  have hperm : g.allComponents.reverse.flatten.Perm g.nodes :=
    (List.Perm.flatten (List.reverse_perm _)).trans hg.flatten_allComponents_perm
  have hpairwise : g.allComponents.reverse.flatten.Pairwise fun x y => ¬ g.Reaches y x := by
    refine List.pairwise_flatten.2 ⟨fun c hc => ?_, ?_⟩
    · obtain ⟨x, rfl, -⟩ := hg.isLoneNode_iff.1 (List.all_eq_true.1 hlone c (List.mem_reverse.1 hc))
      exact List.pairwise_singleton _ _
    · exact List.pairwise_reverse.2
        (hg.pairwise_allComponents.imp fun hcd x hx y hy => hcd y hy x hx)
  refine ⟨hperm, fun before a after horder b hl => ?_⟩
  have hb : b ∈ g.allComponents.reverse.flatten := hperm.symm.subset (hg.leads_mem hl).2
  rw [horder] at hpairwise hb
  rcases List.mem_append.1 hb with hb | hb
  · -- then `a` would reach a node before it
    have hback := (List.pairwise_append.1 hpairwise).2.2 b hb a List.mem_cons_self
    exact absurd (ReflTransGen.single hl) hback
  · rcases List.mem_cons.1 hb with rfl | hb
    · exact absurd ⟨b, TransGen.single hl⟩ (hg.all_isLoneNode_iff.1 hlone)
    · exact hb

end WellFormed

theorem sortsTopologically_topologicalOrder? :
    SortsTopologically (topologicalOrder? : Digraph α → Option (List α)) where
  isSome_iff hg := by
    rw [← hg.all_isLoneNode_iff, topologicalOrder?]
    split
    · rename_i hlone
      exact iff_of_true rfl hlone
    · rename_i hlone
      exact iff_of_false nofun hlone
  ordered hg hsort := by
    rw [topologicalOrder?] at hsort
    split at hsort
    · rename_i hlone
      rw [← Option.some.inj hsort]
      exact hg.isTopologicalOrder_reverse hlone
    · exact nomatch hsort

end RoleAudit.Digraph
