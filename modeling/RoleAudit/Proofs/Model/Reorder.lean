import RoleAudit.Proofs.Graph.Reorder
import RoleAudit.Proofs.Model.Build

/-!
# Models with the same types in another order

Whether a name is declared does not depend on the order of the types, nor does what a type adds to
the graph. So the graphs of two such models have the same nodes and edges, and as every node belongs
to one declaration, the edges from one node come in the same order.
-/

namespace RoleAudit

/-- Where of any two items one gives the empty list, the order of the items does not matter. -/
theorem flatMap_eq_of_perm {ι β : Type} {f : ι → List β} {l l' : List ι} (h : l.Perm l')
    (hone : l.Pairwise fun i j => f i = [] ∨ f j = []) : l.flatMap f = l'.flatMap f := by
  induction h with
  | nil => rfl
  | cons i _ ih => rw [List.flatMap_cons, List.flatMap_cons, ih (List.pairwise_cons.1 hone).2]
  | swap i j l =>
    have hij := (List.pairwise_cons.1 hone).1 i List.mem_cons_self
    simp only [List.flatMap_cons]
    rcases hij with hnil | hnil <;> simp [hnil]
  | trans hfirst _ ih ih' =>
    exact (ih hone).trans (ih' ((hfirst.pairwise_iff fun hij => hij.symm).1 hone))

namespace Model

variable {m m' : Model} (hperm : m'.types.Perm m.types)

include hperm

theorem declares_eq_of_perm : m'.declares = m.declares := by
  funext name
  rw [Bool.eq_iff_iff, declares_iff, declares_iff]
  simp only [hperm.mem_iff]

theorem nodes_perm_of_perm : m'.nodes.Perm m.nodes :=
  (hperm.map _).append (hperm.flatMap_right _)

theorem edges_perm_of_perm (derived : Bool) : (m'.edges derived).Perm (m.edges derived) := by
  rw [edges, edges, signatureEdges, signatureEdges, declares_eq_of_perm hperm]
  refine (hperm.flatMap_right _).append ?_
  cases derived with
  | false => exact List.Perm.refl _
  | true => exact hperm.flatMap_right _

/-- A model has a graph in any order of its types or in none. -/
theorem isOk_buildWith_of_perm (derived : Bool) :
    (m'.buildWith derived).isOk = (m.buildWith derived).isOk := by
  rw [Bool.eq_iff_iff, isOk_buildWith_iff, isOk_buildWith_iff]
  exact ((nodes_perm_of_perm hperm).map Node.id).nodup_iff

/-- The graphs of two orders of the same types are reordered. -/
theorem Builds.reordered {derived : Bool} {g g' : Graph} (h : m.Builds derived g)
    (h' : m'.Builds derived g') : g.Reordered g' where
  indexed := h.indexed
  indexed' := h'.indexed
  nodes := by
    rw [h'.nodes, h.nodes]
    exact nodes_perm_of_perm hperm
  edges := by
    rw [h'.edges, h.edges]
    exact edges_perm_of_perm hperm derived
  outgoing id := by
    -- two types do not both have edges from one node
    have hexclusive : ∀ f : SourceType → List Edge,
        (∀ t, ∀ e ∈ f t, e.source ∈ t.nodeIds) →
        m'.types.Pairwise fun t u =>
          (f t).filter (·.source = id) = [] ∨ (f u).filter (·.source = id) = [] := by
      intro f hsource
      refine h'.disjoint.imp fun {t u} hdisjoint => ?_
      by_contra hboth
      rw [not_or] at hboth
      obtain ⟨e, he⟩ := List.exists_mem_of_ne_nil _ hboth.1
      obtain ⟨d, hd⟩ := List.exists_mem_of_ne_nil _ hboth.2
      obtain ⟨het, hesource⟩ := List.mem_filter.1 he
      obtain ⟨hdu, hdsource⟩ := List.mem_filter.1 hd
      refine hdisjoint (hsource t e het) ?_
      rw [of_decide_eq_true hesource, ← of_decide_eq_true hdsource]
      exact hsource u d hdu
    rw [h'.edges, h.edges, Model.edges, Model.edges, Model.signatureEdges, Model.signatureEdges,
      declares_eq_of_perm hperm, List.filter_append, List.filter_append, List.filter_flatMap,
      List.filter_flatMap]
    congr 1
    · exact flatMap_eq_of_perm hperm (hexclusive _ fun t e he =>
        SourceType.source_mem_of_mem_bodyEdges he)
    · cases derived with
      | false => rfl
      | true =>
        simp only [if_true, List.filter_flatMap]
        refine flatMap_eq_of_perm hperm (hexclusive _ fun t e he => ?_)
        rw [(SourceType.of_mem_signatureEdges he).1]
        exact List.mem_cons_self

end Model

end RoleAudit
