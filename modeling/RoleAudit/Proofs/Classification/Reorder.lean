import RoleAudit.Proofs.Criterion.Reorder

/-!
# Classifications of reordered graphs

With the built-in criteria alone, a type gets the same result in reordered graphs but for the order of
the names in its reasons. So the classifications have the same outlines, up to order.
-/

namespace RoleAudit

namespace Graph.Reordered

variable {g g' : Graph} (h : g.Reordered g')

include h

theorem familiesOf_eq (t : TypeNode) : g'.familiesOf t = g.familiesOf t := by
  rw [familiesOf, familiesOf, (h.interfacesUsing_perm t.id).isEmpty_eq]

theorem hasSignal_eq (t : TypeNode) : g'.hasSignal t = g.hasSignal t := by
  rw [hasSignal, hasSignal, (h.interfacesUsing_perm t.id).isEmpty_eq,
    (h.fieldsOfType_perm t.id).isEmpty_eq, (h.implementorsOf_perm t.id).isEmpty_eq,
    (h.typesInjecting_perm t.id).isEmpty_eq, h.supertypeOf?_eq, h.interfacesOf_eq]

end Graph.Reordered

namespace Classifier

variable {g g' : Graph} (h : g.Reordered g') {c : Classifier}

include h

/-- Criteria that agree give a type results that differ in their reasons alone. -/
theorem reworded_judgedResult {criteria criteria' : List Criterion}
    (hcriteria : List.Forall₂ (Criterion.Agrees g g') criteria criteria') (t : TypeNode) :
    (judgedResult criteria g t).Reworded (judgedResult criteria' g' t) := by
  obtain ⟨hcontributions, hdiagnostics⟩ :=
    Criterion.evaluate_of_agrees hcriteria (g.familiesOf t) t
  have hresult := ClassificationResult.reworded_ofDecision t.id t.primaryFamily (g.hasSignal t)
    (Decision.decide_reworded hcontributions)
  rw [judgedResult, judgedResult, h.familiesOf_eq, h.hasSignal_eq, hdiagnostics]
  exact { hresult with diagnostics := rfl }

/-- Without criteria of its own, a classifier gives a type results that differ in their reasons
alone. -/
theorem reworded_result (hcustom : c.custom = []) (t : TypeNode) :
    (c.result (c.criteria g) g t).Reworded (c.result (c.criteria g') g' t) := by
  have hcriteria : List.Forall₂ (Criterion.Agrees g g') (c.criteria g) (c.criteria g') := by
    rw [criteria, criteria, hcustom, List.append_nil, List.append_nil]
    exact Criterion.agrees_builtIn h
  rw [result, result]
  cases c.explicit.get? t.name with
  | some role => exact .refl _
  | none => exact reworded_judgedResult h hcriteria t

/-- The outlines of all results are the same up to order. -/
theorem outlines_perm (hcustom : c.custom = []) :
    ((c.classify g').results.map (·.outline)).Perm ((c.classify g).results.map (·.outline)) := by
  rw [classify, classify, List.map_map, List.map_map]
  have heq : (·.outline) ∘ c.result (c.criteria g') g' = (·.outline) ∘ c.result (c.criteria g) g :=
    funext fun t => (reworded_result h hcustom t).outline_eq
  rw [heq]
  exact (h.types_perm.filter _).map _

end Classifier

namespace Classification

variable {k k' : Classification}

/-- Classifications with the same outlines have the same results of any kind that does not depend on
reasons. -/
theorem filter_perm (h : (k'.results.map (·.outline)).Perm (k.results.map (·.outline)))
    {p : ClassificationResult → Bool} (hp : ∀ r, p r.outline = p r) :
    ((k'.results.filter p).map (·.nodeId)).Perm ((k.results.filter p).map (·.nodeId)) := by
  have hsame : ∀ l : List ClassificationResult, (l.filter p).map (·.nodeId)
      = ((l.map (·.outline)).filter p).map (·.nodeId) := by
    intro l
    rw [List.filter_map, List.map_map]
    have hcomp : p ∘ (·.outline) = p := funext hp
    rw [hcomp]
    rfl
  rw [hsame k'.results, hsame k.results]
  exact (h.filter p).map _

end Classification

end RoleAudit
