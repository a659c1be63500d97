import RoleAudit.Digraph.Condensation
import RoleAudit.Proofs.Digraph.CycleComponents
import RoleAudit.Proofs.Digraph.Representative

/-!
# Graphs with their components contracted

The condensation of a graph has the first node of every component, and an edge where an edge of the
graph goes from one component to another. It has no cycles, since the nodes of one would belong together
in the graph. A walk of the graph is a walk of the condensation once the edges inside of components are
left out, and the other way round the nodes of a component can be joined up, so both use the same
numbers of edges between different components.
-/

namespace RoleAudit.Digraph

open Relation

variable {α : Type} [Ord α]

/-- There is a walk from one node to another that uses the given number of edges between different
components, the ends of which do not belong together. -/
inductive Crosses (g : Digraph α) : Nat → α → α → Prop
  /-- The walk without edges. -/
  | refl (a : α) : Crosses g 0 a a
  /-- An edge inside of a component, and a walk from there. -/
  | within {k : Nat} {a b c : α} (hl : g.Leads a b) (htogether : g.Together a b)
    (hrest : Crosses g k b c) : Crosses g k a c
  /-- An edge to another component, and a walk from there. -/
  | across {k : Nat} {a b c : α} (hl : g.Leads a b) (happart : ¬ g.Together a b)
    (hrest : Crosses g k b c) : Crosses g (k + 1) a c

namespace Crosses

variable {g : Digraph α} {j k : Nat} {a b c : α}

theorem trans (hab : g.Crosses j a b) (hbc : g.Crosses k b c) : g.Crosses (j + k) a c := by
  induction hab with
  | refl a => exact (Nat.zero_add k).symm ▸ hbc
  | within hl htogether _ ih => exact .within hl htogether (ih hbc)
  | @across j _ _ _ hl happart _ ih =>
    have hrest := ih hbc
    rw [Nat.add_right_comm]
    exact .across hl happart hrest

/-- The nodes of a component are joined by walks that stay in it. -/
theorem of_together (h : g.Together a b) : g.Crosses 0 a b := by
  obtain ⟨hab, hba⟩ := h
  induction hab using ReflTransGen.head_induction_on with
  | refl => exact .refl b
  | head hl hcb ih =>
    have htogether := And.intro (ReflTransGen.single hl) (hcb.trans hba)
    exact .within hl htogether (ih (hba.tail hl))

/-- A walk from a node of the graph ends at one. -/
theorem mem_nodes (hg : g.WellFormed) (h : g.Crosses k a b) (ha : a ∈ g.nodes) : b ∈ g.nodes := by
  induction h with
  | refl a => exact ha
  | within hl _ _ ih => exact ih (hg.leads_mem hl).2
  | across hl _ _ ih => exact ih (hg.leads_mem hl).2

end Crosses

variable [Std.TransOrd α] [Std.LawfulEqOrd α]

variable [DecidableEq α]

/-! ## The condensation -/

/-- The edge of the condensation that an edge of the graph gives, if it gives one. -/
def contracted? (g : Digraph α) (edge : α × α) : Option (Mention α) :=
  if g.representative edge.1 = g.representative edge.2 then none
  else some (.edge (g.representative edge.1) (g.representative edge.2))

/-- What the condensation is told of. -/
def contractedMentions (g : Digraph α) : List (Mention α) :=
  g.nodes.map (fun a => .node (g.representative a)) ++ g.edges.filterMap g.contracted?

omit [Std.TransOrd α] [Std.LawfulEqOrd α] in
theorem condensation_eq (g : Digraph α) : g.condensation = ofMentions g.contractedMentions := by
  rw [ofMentions, contractedMentions, List.foldl_append, List.foldl_map, List.foldl_filterMap]
  refine congrArg (fun step => List.foldl step _ g.edges) (funext fun d => funext fun edge => ?_)
  obtain ⟨a, b⟩ := edge
  show (if g.representative a = g.representative b then d
    else d.addEdge (g.representative a) (g.representative b)) = _
  rw [contracted?]
  split
  · rfl
  · rfl

theorem wellFormed_condensation (g : Digraph α) : g.condensation.WellFormed := by
  rw [condensation_eq]
  exact wellFormed_ofMentions _

section Contracted

variable {g : Digraph α} (hg : g.WellFormed)

include hg

/-- The nodes of the condensation are those that represent a node. -/
theorem WellFormed.mem_nodes_condensation {x : α} :
    x ∈ g.condensation.nodes ↔ ∃ a ∈ g.nodes, g.representative a = x := by
  rw [condensation_eq, mem_nodes_ofMentions]
  constructor
  · rintro ⟨m, hm, hx⟩
    rcases List.mem_append.1 hm with hm | hm
    · obtain ⟨a, ha, rfl⟩ := List.mem_map.1 hm
      exact ⟨a, ha, (List.mem_singleton.1 hx).symm⟩
    · obtain ⟨⟨a, b⟩, hedge, hcontracted⟩ := List.mem_filterMap.1 hm
      obtain ⟨ha, hb⟩ := hg.leads_mem (hg.mem_edges.1 hedge)
      unfold contracted? at hcontracted
      split at hcontracted
      · exact nomatch hcontracted
      · obtain rfl := Option.some.inj hcontracted
        rcases List.mem_cons.1 hx with rfl | hx
        · exact ⟨a, ha, rfl⟩
        · exact ⟨b, hb, (List.mem_singleton.1 hx).symm⟩
  · rintro ⟨a, ha, rfl⟩
    exact ⟨_, List.mem_append_left _ (List.mem_map_of_mem ha), List.mem_singleton.2 rfl⟩

/-- The condensation has an edge where an edge of the graph goes from one component to another. -/
theorem WellFormed.leads_condensation_iff {x y : α} :
    g.condensation.Leads x y ↔ ∃ a b, g.Leads a b ∧ ¬ g.Together a b ∧
      g.representative a = x ∧ g.representative b = y := by
  rw [condensation_eq, leads_ofMentions]
  constructor
  · intro hm
    rcases List.mem_append.1 hm with hm | hm
    · obtain ⟨a, -, heq⟩ := List.mem_map.1 hm
      exact nomatch heq
    · obtain ⟨⟨a, b⟩, hedge, hcontracted⟩ := List.mem_filterMap.1 hm
      have hl := hg.mem_edges.1 hedge
      unfold contracted? at hcontracted
      split at hcontracted
      · exact nomatch hcontracted
      · rename_i hne
        obtain ⟨hx, hy⟩ := Mention.edge.inj (Option.some.inj hcontracted)
        have happart := mt (hg.representative_eq_iff (hg.leads_mem hl).1 (hg.leads_mem hl).2).2 hne
        exact ⟨a, b, hl, happart, hx, hy⟩
  · rintro ⟨a, b, hl, happart, rfl, rfl⟩
    have hne := mt (hg.representative_eq_iff (hg.leads_mem hl).1 (hg.leads_mem hl).2).1 happart
    refine List.mem_append_right _ (List.mem_filterMap.2 ⟨(a, b), hg.mem_edges.2 hl, ?_⟩)
    exact if_neg hne

/-- What reaches another node in the condensation does so in the graph. -/
theorem WellFormed.reaches_of_condensation {x y : α} (h : g.condensation.Reaches x y) :
    g.Reaches x y := by
  induction h with
  | refl => exact .refl
  | tail _ hstep ih =>
    obtain ⟨a, b, hl, -, rfl, rfl⟩ := hg.leads_condensation_iff.1 hstep
    have hto := hg.together_representative (hg.leads_mem hl).1
    have hback := hg.together_representative (hg.leads_mem hl).2
    exact ((ih.trans hto.2).tail hl).trans hback.1

theorem WellFormed.not_hasCycle_condensation : ¬ g.condensation.HasCycle := by
  rintro ⟨x, hcycle⟩
  obtain ⟨y, hstep, hyx⟩ := TransGen.head'_iff.1 hcycle
  obtain ⟨a, b, hl, happart, rfl, rfl⟩ := hg.leads_condensation_iff.1 hstep
  have hto := hg.together_representative (hg.leads_mem hl).2
  have hback := hg.together_representative (hg.leads_mem hl).1
  -- from `b` to its representative, on to that of `a`, and from there to `a`
  have hba : g.Reaches b a := (hto.1.trans (hg.reaches_of_condensation hyx)).trans hback.2
  exact happart ⟨.single hl, hba⟩

/-- No edge of the condensation stays in a component. -/
theorem WellFormed.not_together_condensation {x y : α} (hl : g.condensation.Leads x y) :
    ¬ g.condensation.Together x y :=
  fun htogether => hg.not_hasCycle_condensation ⟨x, TransGen.head' hl htogether.2⟩

/-! ## The same walks -/

/-- A walk of the graph, with its components contracted. -/
theorem WellFormed.crosses_condensation {k : Nat} {a b : α} (h : g.Crosses k a b)
    (ha : a ∈ g.nodes) : g.condensation.Crosses k (g.representative a) (g.representative b) := by
  induction h with
  | refl a => exact .refl _
  | within hl htogether _ ih =>
    obtain ⟨ha, hb⟩ := hg.leads_mem hl
    rw [(hg.representative_eq_iff ha hb).2 htogether]
    exact ih hb
  | across hl happart _ ih =>
    have hstep := hg.leads_condensation_iff.2 ⟨_, _, hl, happart, rfl, rfl⟩
    exact .across hstep (hg.not_together_condensation hstep) (ih (hg.leads_mem hl).2)

/-- A walk of the condensation, joined up inside of the components. -/
theorem WellFormed.crosses_of_condensation {k : Nat} {x y : α} (h : g.condensation.Crosses k x y) :
    g.Crosses k x y := by
  induction h with
  | refl x => exact .refl x
  | within hl htogether _ _ => exact absurd htogether (hg.not_together_condensation hl)
  | @across k _ _ _ hstep _ _ ih =>
    obtain ⟨a, b, hl, happart, rfl, rfl⟩ := hg.leads_condensation_iff.1 hstep
    have hto : g.Crosses 0 (g.representative a) a :=
      .of_together (hg.together_representative (hg.leads_mem hl).1).symm
    have hback : g.Crosses 0 b (g.representative b) :=
      .of_together (hg.together_representative (hg.leads_mem hl).2)
    have hrest := Crosses.across hl happart (hback.trans ih)
    have hall := hto.trans hrest
    rwa [Nat.zero_add, Nat.zero_add] at hall

end Contracted

end RoleAudit.Digraph
