import RoleAudit.Proofs.Digraph.TopologicalOrder

/-!
# Components go against the edges

A component is complete before any component that leads to it, so a list of components has the ones
that can be reached before the ones that reach them. This holds over all starts of the walk, and it
fixes the order in which whatever is found in components is reported.
-/

namespace RoleAudit.Digraph

variable {α : Type} [Ord α]

/-- Of two different components of a list, the one that a walk can lead to from the other stands before
it. -/
def AgainstEdges (g : Digraph α) (components : List (List α)) : Prop :=
  ∀ (i j : Nat) (c d : List α), components[i]? = some c → components[j]? = some d → c ≠ d →
    (∃ a ∈ c, ∃ b ∈ d, g.Reaches a b) → j < i

theorem AgainstEdges.of_pairwise {g : Digraph α} {components : List (List α)}
    (h : components.Pairwise fun c d => ∀ a ∈ c, ∀ b ∈ d, ¬ g.Reaches a b) :
    g.AgainstEdges components := by
  rintro i j c d hi hj hne ⟨a, ha, b, hb, hab⟩
  by_contra hle
  have hlt : i < j := by
    refine Nat.lt_of_le_of_ne (Nat.not_lt.1 hle) ?_
    rintro rfl
    exact hne (Option.some.inj (hi.symm.trans hj))
  obtain ⟨hilt, rfl⟩ := List.getElem?_eq_some_iff.1 hi
  obtain ⟨hjlt, rfl⟩ := List.getElem?_eq_some_iff.1 hj
  exact List.pairwise_iff_getElem.1 h i j hilt hjlt hlt a ha b hb hab

variable [Std.TransOrd α] [Std.LawfulEqOrd α] [DecidableEq α]

/-- Where a walk leads out of a component for good, it leads to one before. -/
theorem WellFormed.exists_component_before {g : Digraph α} (hg : g.WellFormed) {a b : α}
    (ha : a ∈ g.nodes) (hab : g.Reaches a b) (hback : ¬ g.Reaches b a) :
    ∃ before d between c after,
      g.allComponents = before ++ d :: (between ++ c :: after) ∧ b ∈ d ∧ a ∈ c := by
  obtain ⟨c, hc, hac⟩ := hg.exists_component ha
  obtain ⟨d, hd, hbd⟩ := hg.exists_component (hg.mem_nodes_of_reaches ha hab)
  have hpairwise := hg.pairwise_allComponents
  obtain ⟨earlier, later, hsplit⟩ := List.append_of_mem hc
  rw [hsplit] at hd hpairwise
  rcases List.mem_append.1 hd with hd | hd
  · obtain ⟨before, between, rfl⟩ := List.append_of_mem hd
    exact ⟨before, d, between, c, later, by rw [hsplit, List.append_assoc, List.cons_append], hbd, hac⟩
  · rcases List.mem_cons.1 hd with rfl | hd
    · exact absurd ((hg.mem_component_iff hc hac b).1 hbd).2 hback
    · have hlater := (List.pairwise_append.1 hpairwise).2.1
      exact absurd hab ((List.pairwise_cons.1 hlater).1 d hd a hac b hbd)

/-- Components are listed in reverse topological order. For a graph of any mentions: among all
components, and among the reported ones, a component that can be reached from a different one comes
before it; and whenever a walk leads from a node to one that it cannot lead back from, both of their
components are listed, in this order. -/
theorem components_against_edges (mentions : List (Mention α)) :
    let g := ofMentions mentions
    g.AgainstEdges g.allComponents ∧ g.AgainstEdges g.components ∧
    ∀ a ∈ g.nodes, ∀ b, g.Reaches a b → ¬ g.Reaches b a →
      ∃ before d between c after,
        g.allComponents = before ++ d :: (between ++ c :: after) ∧ b ∈ d ∧ a ∈ c := by
  intro g
  have hg : g.WellFormed := wellFormed_ofMentions mentions
  have hpairwise := hg.pairwise_allComponents
  exact ⟨.of_pairwise hpairwise, .of_pairwise (hpairwise.filter _),
    fun a ha b hab hback => hg.exists_component_before ha hab hback⟩

/-- A ring that leads to another ring, and a later start that leads to the first ring. -/
def ringsInLine : List (Mention Nat) :=
  [.edge 1 2, .edge 2 1, .edge 2 3, .edge 3 4, .edge 4 3, .edge 5 1]

/-- The last ring on the way is listed first, and the late start last. -/
theorem rings_in_line_listed_backwards :
    let g := ofMentions ringsInLine
    g.allComponents = [[3, 4], [1, 2], [5]] ∧
      g.components[1]? = some [1, 2] ∧ g.components[0]? = some [3, 4] ∧ [1, 2] ≠ [3, 4] ∧
      g.Reaches 1 3 ∧ 0 < 1 := by
  have hall : (ofMentions ringsInLine).allComponents = [[3, 4], [1, 2], [5]] := by cbv
  have hcomponents : (ofMentions ringsInLine).components = [[3, 4], [1, 2]] := by cbv
  have hsecond : (ofMentions ringsInLine).components[1]? = some [1, 2] := by simp [hcomponents]
  have hfirst : (ofMentions ringsInLine).components[0]? = some [3, 4] := by simp [hcomponents]
  have hreach : (ofMentions ringsInLine).Reaches 1 3 := by
    refine .head (b := 2) ?_ (.single ?_) <;> exact leads_ofMentions.2 (by simp [ringsInLine])
  obtain ⟨-, hagainst, -⟩ := components_against_edges ringsInLine
  exact ⟨hall, hsecond, hfirst, by decide, hreach,
    hagainst 1 0 [1, 2] [3, 4] hsecond hfirst (by decide) ⟨1, by simp, 3, by simp, hreach⟩⟩

end RoleAudit.Digraph
