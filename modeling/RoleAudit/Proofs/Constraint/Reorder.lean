import RoleAudit.Proofs.Classification.Reorder
import RoleAudit.Proofs.Constraint.Threshold
import RoleAudit.Proofs.Digraph.Components
import RoleAudit.Proofs.Projection

/-!
# Constraints in reordered graphs

Which violations a constraint reports can depend on the order of the types: a search for cycles finds
other cycles and can be cut short in one order and not in another. What does not depend on it is
whether there is a violation of the constraint's own severity, and whether there is any violation at
all. As a note has the lowest severity, this settles whether a violation reaches a threshold.
-/

namespace RoleAudit

/-- Two lists of violations of a severity and of notes that no threshold tells apart. -/
structure Violation.Alike (own : Severity) (vs vs' : List Violation) : Prop where
  /-- The first list has violations of the severity and notes only. -/
  graded : ∀ v ∈ vs, v.severity = own ∨ v.severity = .info
  /-- So has the second list. -/
  graded' : ∀ v ∈ vs', v.severity = own ∨ v.severity = .info
  /-- Both are empty or none is. -/
  nil_iff : vs' = [] ↔ vs = []
  /-- Both have a violation of the severity or none has. -/
  own_iff : (∃ v ∈ vs', v.severity = own) ↔ ∃ v ∈ vs, v.severity = own

namespace Violation

variable {own : Severity} {vs vs' : List Violation}

/-- Lists of violations of one severity need only be empty together. -/
theorem Alike.of_own (h : ∀ v ∈ vs, v.severity = own) (h' : ∀ v ∈ vs', v.severity = own)
    (hnil : vs' = [] ↔ vs = []) : Alike own vs vs' where
  graded v hv := Or.inl (h v hv)
  graded' v hv := Or.inl (h' v hv)
  nil_iff := hnil
  own_iff := ⟨(Covers.of_own h h' hnil.2).own, (Covers.of_own h' h hnil.1).own⟩

theorem Alike.covers (h : Alike own vs vs') : Covers own vs vs' where
  graded := h.graded
  graded' := h.graded'
  nil := h.nil_iff.2
  own := h.own_iff.1

theorem Alike.symm (h : Alike own vs vs') : Alike own vs' vs where
  graded := h.graded'
  graded' := h.graded
  nil_iff := h.nil_iff.symm
  own_iff := h.own_iff.symm

/-- A test that all severities fail if notes fail it has one outcome for both lists. -/
theorem Alike.all_eq (h : Alike own vs vs') (test : Severity → Bool)
    (htest : test .info = false → test own = false) :
    vs'.all (test ·.severity) = vs.all (test ·.severity) := by
  rw [Bool.eq_iff_iff]
  exact ⟨h.symm.covers.all test htest, h.covers.all test htest⟩

end Violation

namespace Constraint

/-- Two constraints with one id and severity find violations that no threshold tells apart, each in a
graph of its own. -/
structure Agrees (g g' : Graph) (k k' : Classification) (c c' : Constraint) : Prop where
  /-- They have one id. -/
  id : c'.id = c.id
  /-- They have one severity. -/
  severity : c'.severity = c.severity
  /-- Their violations are alike. -/
  findings : Violation.Alike c.severity (c.findings g k) (c'.findings g' k')

variable {g g' : Graph} {k k' : Classification}

/-- Constraints whose violations are the same up to order, all of their own severity, agree. -/
theorem Agrees.of_perm {c c' : Constraint} (hid : c'.id = c.id) (hseverity : c'.severity = c.severity)
    (hown : ∀ v ∈ c.findings g k, v.severity = c.severity)
    (hperm : (c'.findings g' k').Perm (c.findings g k)) : Agrees g g' k k' c c' where
  id := hid
  severity := hseverity
  findings := .of_own hown (fun v hv => hown v (hperm.mem_iff.1 hv)) (by
    rw [← List.isEmpty_iff, ← List.isEmpty_iff, hperm.isEmpty_eq])

/-- Whether all violations of a constraint stay below a threshold is the same in both graphs. -/
theorem Agrees.all_eq {c c' : Constraint} (h : Agrees g g' k k' c c') (s : ConstraintSettings)
    (threshold : Severity) :
    ((c'.findings g' k').map (adjusted s c')).all (fun v => v.severity < threshold)
      = ((c.findings g k).map (adjusted s c)).all (fun v => v.severity < threshold) := by
  have hbelow : staysBelow s c' threshold = staysBelow s c threshold := by
    unfold staysBelow
    rw [h.id, h.severity]
  rw [all_map_adjusted, all_map_adjusted, hbelow]
  exact h.findings.all_eq (staysBelow s c threshold) staysBelow_own_of_info

/-- Whether all violations of all constraints stay below a threshold is the same in both graphs. -/
theorem check_all_eq {cs cs' : List Constraint}
    (h : List.Forall₂ (Agrees g g' k k') cs cs') (s : ConstraintSettings) (threshold : Severity) :
    (check cs' s g' k').all (fun v => v.severity < threshold)
      = (check cs s g k).all (fun v => v.severity < threshold) := by
  simp only [check, List.all_flatMap]
  induction h with
  | nil => rfl
  | @cons c c' rest rest' hc _ ih =>
    simp only [List.filter_cons, hc.id]
    by_cases henabled : s.isEnabled c.id = true
    · simp only [henabled, if_true, List.all_cons, hc.all_eq, ih]
    · simp only [henabled]
      exact ih

/-! ## The standard constraints -/

section Standard

variable (h : g.Reordered g')
  (hk : (k'.results.map (·.outline)).Perm (k.results.map (·.outline)))

include h

theorem refers_eq : g'.Refers = g.Refers := by
  funext a b
  rw [Graph.Refers, Graph.Refers, Graph.fieldReferences, Graph.fieldReferences, h.fieldsOf_eq,
    funext h.type?_eq]

theorem infrastructureNames_eq (port : TypeNode) :
    infrastructureNames g' (.ofGraph g') port = infrastructureNames g (.ofGraph g) port := by
  rw [infrastructureNames, infrastructureNames, h.methodsOf_eq]
  simp only [h.isInfrastructure_eq]

theorem agrees_layering : Agrees g g' k k' layering layering := by
  refine .of_perm rfl rfl (fun v hv => severity_layering hv) ?_
  simp only [layering, presentationDependencies, h.dependenciesOf_eq, h.resolveTypes_eq]
  exact (h.types_perm.filter _).filterMap _

theorem leads_projectTypes_iff (kinds : List EdgeKind) (settings : CycleSettings) {a b : NodeId} :
    (g'.projectTypes kinds settings).Leads a b ↔ (g.projectTypes kinds settings).Leads a b := by
  have hlift : g'.liftedEdge? = g.liftedEdge? := by
    funext e
    simp only [Graph.liftedEdge?, Graph.owningType?, h.node?_eq]
  rw [g'.leads_projectTypes, g.leads_projectTypes, hlift]
  simp only [h.edges.mem_iff]

theorem agrees_packageCycles (settings : CycleSettings) :
    Agrees g g' k k' (packageCycles settings) (packageCycles settings) := by
  have hwf := g.wellFormed_projectPackages (g.projectTypes dependencyKinds settings) settings
  have hwf' := g'.wellFormed_projectPackages (g'.projectTypes dependencyKinds settings) settings
  have hleads : (g'.projectPackages (g'.projectTypes dependencyKinds settings) settings).graph.Leads
      = (g.projectPackages (g.projectTypes dependencyKinds settings) settings).graph.Leads := by
    funext p q
    rw [g'.leads_projectPackages (g'.wellFormed_projectTypes _ _),
      g.leads_projectPackages (g.wellFormed_projectTypes _ _)]
    simp only [leads_projectTypes_iff h, Graph.packageOf?, h.node?_eq]
  refine ⟨rfl, rfl, .of_own (fun v hv => severity_packageCycles hv)
    (fun v hv => severity_packageCycles hv) ?_⟩
  show List.map _ _ = [] ↔ List.map _ _ = []
  rw [List.map_eq_nil_iff, List.map_eq_nil_iff, ← not_iff_not, ← ne_eq, ← ne_eq,
    hwf'.components_ne_nil_iff, hwf.components_ne_nil_iff]
  simp only [Digraph.Together, Digraph.Reaches, hleads]

include hk

theorem hasCycle_iff_of_reordered :
    (g'.aggregateReferences k').HasCycle ↔ (g.aggregateReferences k).HasCycle := by
  have hids : ∀ {a}, a ∈ Graph.aggregateIds k' ↔ a ∈ Graph.aggregateIds k :=
    (Classification.filter_perm hk fun _ => rfl).mem_iff
  rw [h.indexed'.hasCycle_iff, h.indexed.hasCycle_iff, refers_eq h]
  simp only [hids]

theorem agrees_aggregateCycle (settings : CycleSettings) :
    Agrees g g' k k' (aggregateCycle settings) (aggregateCycle settings) := by
  have hcycle := hasCycle_iff_of_reordered h hk
  refine ⟨rfl, rfl, ?_⟩
  refine
    { graded := fun v hv => severity_of_mem_findings hv
      graded' := fun v hv => severity_of_mem_findings hv
      nil_iff := ?_
      own_iff := ?_ }
  · rw [findings_eq_nil_iff, findings_eq_nil_iff, hcycle]
  · rw [show (aggregateCycle settings).severity = .critical from rfl, exists_critical_iff,
      exists_critical_iff, (g'.wellFormed_aggregateReferences k').findCycles_ne_nil_iff,
      (g.wellFormed_aggregateReferences k).findCycles_ne_nil_iff, hcycle]

theorem portsOf_perm (direction : Direction) :
    (portsOf g' k' direction).Perm (portsOf g k direction) := by
  rw [portsOf, portsOf, h.resolveTypes_eq]
  simp only [Classification.ofFamily, List.filter_filter]
  exact (Classification.filter_perm hk fun _ => rfl).filterMap _

theorem agrees_portDependency :
    Agrees g g' k k' (portDependency (.ofGraph g)) (portDependency (.ofGraph g')) := by
  refine .of_perm rfl rfl (fun v hv => severity_portDependency hv) ?_
  simp only [portDependency, infrastructureNames_eq h, funext h.contains_eq]
  exact (portsOf_perm h hk .driven).filterMap _

theorem agrees_valueObjectImmutable :
    Agrees g g' k k' valueObjectImmutable valueObjectImmutable := by
  refine .of_perm rfl rfl (fun v hv => severity_valueObjectImmutable hv) ?_
  simp only [valueObjectImmutable, mutableFields, settersOf, h.fieldsOf_eq, h.methodsOf_eq,
    h.resolveTypes_eq]
  exact ((Classification.filter_perm hk fun _ => rfl).filterMap _).filterMap _

theorem agrees_portCoverage : Agrees g g' k k' portCoverage portCoverage := by
  refine .of_perm rfl rfl (fun v hv => severity_portCoverage hv) ?_
  simp only [portCoverage, (h.implementorsOf_perm _).all_eq]
  exact ((portsOf_perm h hk .driven).filter _).map _

theorem agrees_domainPurity (packages : List String) :
    Agrees g g' k k' (domainPurity packages) (domainPurity packages) := by
  refine .of_perm rfl rfl (fun v hv => severity_domainPurity hv) ?_
  simp only [domainPurity, mentionedNames, h.fieldsOf_eq, h.methodsOf_eq, h.constructorsOf_eq,
    h.resolveTypes_eq]
  exact ((Classification.filter_perm hk fun _ => rfl).filterMap _).filterMap _

theorem agrees_portDirection :
    Agrees g g' k k' (portDirection (.ofGraph g)) (portDirection (.ofGraph g')) := by
  refine ⟨rfl, rfl, .of_own (fun v hv => severity_portDirection hv)
    (fun v hv => severity_portDirection hv) ?_⟩
  show _ ++ _ = [] ↔ _ ++ _ = []
  rw [List.append_eq_nil_iff, List.append_eq_nil_iff]
  simp only [List.filterMap_eq_nil_iff, directionViolation?_eq_none, h.isCore_eq,
    (portsOf_perm h hk _).mem_iff]
  have hempty : ∀ {l l' : List TypeNode}, l'.Perm l → ∀ p : TypeNode → Bool,
      (l'.filter p = [] ↔ l.filter p = []) := by
    intro l l' hl p
    rw [← List.isEmpty_iff, ← List.isEmpty_iff, (hl.filter p).isEmpty_eq]
  simp only [hempty (h.typesInjecting_perm _), hempty (h.implementorsOf_perm _)]

/-- All standard constraints agree, each with the anchors of its own graph. -/
theorem agrees_standard (settings : Settings) :
    List.Forall₂ (Agrees g g' k k') (standard settings (.ofGraph g))
      (standard settings (.ofGraph g')) :=
  .cons (agrees_aggregateCycle h hk _) (.cons (agrees_portDependency h hk)
    (.cons (agrees_valueObjectImmutable h hk) (.cons (agrees_portDirection h hk)
      (.cons (agrees_portCoverage h hk) (.cons (agrees_domainPurity h hk _)
        (.cons (agrees_layering h) (.cons (agrees_packageCycles h _) .nil)))))))

end Standard

end Constraint

end RoleAudit
