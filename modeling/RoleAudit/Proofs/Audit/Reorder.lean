import RoleAudit.Audit.Report
import RoleAudit.Proofs.Constraint.Reorder
import RoleAudit.Proofs.Model.Reorder
import RoleAudit.Regex.Standard

/-!
# Audits of reordered models

The order in which a model lists its types shows in the reports of an audit: in the order of the
results, in which cycles are found and in which witnesses are named. It does not show in the verdict.
-/

namespace RoleAudit

section

variable {g g' : Graph} {k k' : Classification}
  (hk : (k'.results.map (·.outline)).Perm (k.results.map (·.outline)))
include hk

/-- The policy refuses the results of the same types. -/
theorem Classification.policyFailures_perm (policy : ClassificationPolicy) :
    ((k'.policyFailures policy).map (·.nodeId)).Perm ((k.policyFailures policy).map (·.nodeId)) :=
  filter_perm hk fun _ => rfl

/-- The verdict is the same. -/
theorem AuditReport.passed_eq (h : g.Reordered g') (settings : Settings) :
    (ofClassification settings g' k').passed = (ofClassification settings g k).passed := by
  have hfailures : (k'.policyFailures settings.classification.policy).isEmpty
      = (k.policyFailures settings.classification.policy).isEmpty := by
    have hperm := Classification.policyFailures_perm hk settings.classification.policy
    rw [← List.isEmpty_map, hperm.isEmpty_eq, List.isEmpty_map]
  have hviolations := Constraint.check_all_eq (Constraint.agrees_standard h hk settings)
    settings.constraints settings.constraints.failOn
  rw [ofClassification, ofClassification, hfailures, hviolations]

end

namespace Model

/-- An audit comes to a report by way of a graph and a classifier, and only so. -/
theorem audit_eq_ok_iff {m : Model} {regexes : RegexLibrary} {settings : Settings}
    {r : AuditReport} :
    m.audit regexes settings = .ok r ↔ ∃ g c, m.buildWith true = .ok g ∧
      Classifier.ofSettings regexes settings.classification [] = .ok c ∧
      r = .ofClassification settings g (c.classify g) := by
  simp only [audit, build, Error.bind_eq_ok_iff]
  constructor
  · rintro ⟨g, hg, c, hc, hr⟩
    cases hr
    exact ⟨g, c, hg, hc, rfl⟩
  · rintro ⟨g, c, hg, hc, rfl⟩
    exact ⟨g, hg, c, hc, rfl⟩

/-- An audit needs a graph and settings that give a classifier. -/
theorem isOk_audit (m : Model) (regexes : RegexLibrary) (settings : Settings) :
    (m.audit regexes settings).isOk = ((m.buildWith true).isOk
      && (Classifier.ofSettings regexes settings.classification []).isOk) := by
  unfold audit build
  cases m.buildWith true with
  | error e => rfl
  | ok g =>
    cases Classifier.ofSettings regexes settings.classification [] with
    | error e => rfl
    | ok c => rfl

/-- The verdict of an audit does not depend on the order in which the model lists its types. In
another order the audit comes to a report exactly when it does in this one, and the two reports pass
together and name the same types, each as often, as refused by the policy. -/
theorem audit_verdict_order_free (m : Model) (regexes : RegexLibrary) (settings : Settings)
    (types : List SourceType) (hperm : types.Perm m.types) :
    let m' : Model := { m with types }
    (m'.audit regexes settings).isOk = (m.audit regexes settings).isOk ∧
    ∀ r r', m.audit regexes settings = .ok r → m'.audit regexes settings = .ok r' →
      r'.passed = r.passed ∧ r'.policyFailures.Perm r.policyFailures := by
  intro m'
  have hperm' : m'.types.Perm m.types := hperm
  refine ⟨?_, fun r r' hr hr' => ?_⟩
  · rw [isOk_audit, isOk_audit, isOk_buildWith_of_perm hperm' true]
  · obtain ⟨g, c, hg, hc, rfl⟩ := audit_eq_ok_iff.1 hr
    obtain ⟨g', c', hg', hc', rfl⟩ := audit_eq_ok_iff.1 hr'
    obtain rfl : c = c' := Except.ok.inj (hc.symm.trans hc')
    have hreordered : g.Reordered g' :=
      Builds.reordered hperm' (builds_of_buildWith hg) (builds_of_buildWith hg')
    have houtlines := Classifier.outlines_perm hreordered (Classifier.custom_of_ofSettings hc)
    exact ⟨AuditReport.passed_eq houtlines hreordered settings,
      Classification.policyFailures_perm houtlines settings.classification.policy⟩

section Example

open Constraint

/-- The shop has the same verdict with its customers first. -/
theorem shop_verdict_with_customer_first :
    ∃ r r', shop.audit .standard {} = .ok r ∧
      { shop with types := [customer, order, line] }.audit .standard {} = .ok r' ∧
      r'.passed = r.passed ∧ r'.policyFailures.Perm r.policyFailures := by
  obtain ⟨hok, hsame⟩ := audit_verdict_order_free shop .standard {} [customer, order, line] (by decide)
  have hshop : (shop.audit .standard {}).isOk = true := by
    rw [isOk_audit, (shop.isOk_buildWith_iff true).2 (by decide)]
    rfl
  rw [hshop] at hok
  obtain ⟨r, hr⟩ := Error.exists_of_isOk hshop
  obtain ⟨r', hr'⟩ := Error.exists_of_isOk hok
  exact ⟨r, r', hr, hr', hsame r r' hr hr'⟩

end Example

end Model

end RoleAudit
