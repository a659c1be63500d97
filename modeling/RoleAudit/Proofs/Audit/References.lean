import RoleAudit.Proofs.Audit.Reorder
import RoleAudit.Proofs.Classification.References
import RoleAudit.Proofs.Constraint.PackageCycle
import RoleAudit.Regex.Standard

/-!
# What a report refers to

A report names nodes in four places: in its violations, in its policy failures, as the types of its
results and in the evidence of these. Some of the ids are made anew from names, others come from
projections that put the declaring type in the place of a member. All of them are ids of nodes of the
graph, and every violation is filed under the id of a standard constraint that is not switched off.
-/

namespace RoleAudit

namespace Graph

variable {g : Graph} (h : g.Indexed)

include h

theorem Indexed.mem_nodeIds_of_mem_membersOf {id : NodeId} {n : Node} (hn : n ∈ g.membersOf id) :
    n.id ∈ g.nodeIds :=
  List.mem_map_of_mem (Array.mem_toList_iff.2 (h.mem_nodes_of_mem_resolve hn))

theorem Indexed.mem_nodeIds_of_mem_fieldsOf {id : NodeId} {f : FieldNode} (hf : f ∈ g.fieldsOf id) :
    f.id ∈ g.nodeIds := by
  obtain ⟨n, hn, hfield⟩ := List.mem_filterMap.1 hf
  cases n with
  | field f' =>
    obtain rfl := Option.some.inj hfield
    exact h.mem_nodeIds_of_mem_membersOf hn
  | _ => exact nomatch hfield

theorem Indexed.mem_nodeIds_of_mem_methodsOf {id : NodeId} {m : MethodNode}
    (hm : m ∈ g.methodsOf id) : m.id ∈ g.nodeIds := by
  obtain ⟨n, hn, hmethod⟩ := List.mem_filterMap.1 hm
  cases n with
  | method m' =>
    obtain rfl := Option.some.inj hmethod
    exact h.mem_nodeIds_of_mem_membersOf hn
  | _ => exact nomatch hmethod

end Graph

namespace Constraint

/-- Every violation is filed under the id of the constraint and names nodes of the graph only. -/
def Grounded (g : Graph) (k : Classification) (c : Constraint) : Prop :=
  ∀ v ∈ c.findings g k, v.constraint = c.id ∧ v.nodes ⊆ g.nodeIds

theorem grounded_directionViolation? {g : Graph} {wording : String} {port : TypeNode}
    {cores : List TypeNode} {v : Violation} (hport : port.id ∈ g.nodeIds)
    (hcores : ∀ t ∈ cores, t.id ∈ g.nodeIds) (hv : directionViolation? wording port cores = some v) :
    v.constraint = "hexagonal:port-direction" ∧ v.nodes ⊆ g.nodeIds := by
  unfold directionViolation? at hv
  split at hv
  · exact nomatch hv
  · obtain rfl := Option.some.inj hv
    exact ⟨rfl, List.cons_subset.2 ⟨hport, Graph.map_id_subset hcores⟩⟩

section Indexed

variable {g : Graph} (h : g.Indexed) (k : Classification)

include h

/-- The nodes of a cycle are aggregates, which have results. -/
theorem grounded_aggregateCycle (hk : ∀ r ∈ k.results, r.nodeId ∈ g.nodeIds)
    (settings : CycleSettings) : Grounded g k (aggregateCycle settings) := by
  intro v hv
  rcases List.mem_append.1 hv with hv | hv
  · obtain ⟨cycle, hcycle, rfl⟩ := List.mem_map.1 hv
    have hreported := distinctCycles_subset _ _ hcycle
    have hclosed := (g.wellFormed_aggregateReferences k).isCycle_of_mem hreported
    obtain ⟨-, -, haggregates, -⟩ := nodes_of_isCycle h hclosed
    refine ⟨rfl, fun id hid => ?_⟩
    obtain ⟨r, hr, rfl⟩ := List.mem_map.1 (haggregates id hid)
    exact hk r (List.mem_filter.1 hr).1
  · split at hv
    · rw [List.mem_singleton.1 hv]
      exact ⟨rfl, List.nil_subset _⟩
    · exact absurd hv List.not_mem_nil

/-- Ids made from names are kept only where the graph has them. -/
theorem grounded_portDependency (anchors : Anchors) : Grounded g k (portDependency anchors) := by
  intro v hv
  obtain ⟨port, hport, hfound⟩ := List.mem_filterMap.1 hv
  split at hfound
  · exact nomatch hfound
  · obtain rfl := Option.some.inj hfound
    refine ⟨rfl, List.cons_subset.2 ⟨h.mem_nodeIds_of_mem_resolveTypes hport, fun id hid => ?_⟩⟩
    exact (h.contains_iff id).1 (List.mem_filter.1 hid).2

theorem grounded_valueObjectImmutable : Grounded g k valueObjectImmutable := by
  intro v hv
  obtain ⟨t, ht, hfound⟩ := List.mem_filterMap.1 hv
  dsimp only at hfound
  split at hfound
  · exact nomatch hfound
  · obtain rfl := Option.some.inj hfound
    refine ⟨rfl, List.cons_subset.2 ⟨h.mem_nodeIds_of_mem_resolveTypes ht, fun id hid => ?_⟩⟩
    rcases List.mem_append.1 hid with hid | hid
    · obtain ⟨f, hf, rfl⟩ := List.mem_map.1 hid
      unfold mutableFields at hf
      split at hf
      · exact absurd hf List.not_mem_nil
      · exact h.mem_nodeIds_of_mem_fieldsOf (List.mem_filter.1 hf).1
    · obtain ⟨m, hm, rfl⟩ := List.mem_map.1 hid
      exact h.mem_nodeIds_of_mem_methodsOf (List.mem_filter.1 hm).1

theorem grounded_portDirection (anchors : Anchors) : Grounded g k (portDirection anchors) := by
  intro v hv
  rcases List.mem_append.1 hv with hv | hv <;> obtain ⟨port, hport, hv⟩ := List.mem_filterMap.1 hv
  · refine grounded_directionViolation? (h.mem_nodeIds_of_mem_resolveTypes hport) (fun t ht => ?_) hv
    exact h.mem_nodeIds_of_mem_resolveTypes (List.mem_filter.1 ht).1
  · refine grounded_directionViolation? (h.mem_nodeIds_of_mem_resolveTypes hport) (fun t ht => ?_) hv
    exact h.mem_nodeIds_of_mem_resolveTypes (List.mem_filter.1 ht).1

theorem grounded_portCoverage : Grounded g k portCoverage := by
  intro v hv
  obtain ⟨port, hport, rfl⟩ := List.mem_map.1 hv
  have hid := h.mem_nodeIds_of_mem_resolveTypes (List.mem_filter.1 hport).1
  exact ⟨rfl, List.cons_subset.2 ⟨hid, List.nil_subset _⟩⟩

theorem grounded_domainPurity (packages : List String) : Grounded g k (domainPurity packages) := by
  intro v hv
  obtain ⟨t, ht, hfound⟩ := List.mem_filterMap.1 hv
  split at hfound
  · exact nomatch hfound
  · obtain rfl := Option.some.inj hfound
    have hid := h.mem_nodeIds_of_mem_resolveTypes ht
    exact ⟨rfl, List.cons_subset.2 ⟨hid, List.nil_subset _⟩⟩

theorem grounded_layering : Grounded g k layering := by
  intro v hv
  obtain ⟨t, ht, hfound⟩ := List.mem_filterMap.1 hv
  split at hfound
  · exact nomatch hfound
  · obtain rfl := Option.some.inj hfound
    have hid := h.mem_nodeIds_of_mem_types (List.mem_filter.1 ht).1
    refine ⟨rfl, List.cons_subset.2 ⟨hid, Graph.map_id_subset fun d hd => ?_⟩⟩
    exact h.mem_nodeIds_of_mem_resolveTypes (List.mem_filter.1 hd).1

end Indexed

section Built

variable {m : Model} {derived : Bool} {g : Graph} (h : m.Builds derived g) (k : Classification)

include h

/-- The dependencies that stand behind a circle of packages join types of the graph. -/
theorem grounded_packageCycles (settings : CycleSettings) :
    Grounded g k (packageCycles settings) := by
  intro v hv
  obtain ⟨component, -, rfl⟩ := List.mem_map.1 hv
  refine ⟨rfl, fun id hid => ?_⟩
  obtain ⟨p, q, -, w, hw, hid⟩ := mem_nodes_packageCycleViolation.1 hid
  obtain ⟨⟨t, ht, hsource, -⟩, u, hu, htarget, -⟩ := h.types_of_mem_witnessesFor hw
  rcases hid with rfl | rfl
  · exact hsource ▸ h.indexed.mem_nodeIds_of_mem_types ht
  · exact htarget ▸ h.indexed.mem_nodeIds_of_mem_types hu

theorem grounded_standard (hk : ∀ r ∈ k.results, r.nodeId ∈ g.nodeIds) (settings : Settings)
    (anchors : Anchors) : ∀ c ∈ standard settings anchors, Grounded g k c := by
  have hg := h.indexed
  simp only [standard, List.forall_mem_cons]
  exact ⟨grounded_aggregateCycle hg k hk _, grounded_portDependency hg k _,
    grounded_valueObjectImmutable hg k, grounded_portDirection hg k _, grounded_portCoverage hg k,
    grounded_domainPurity hg k _, grounded_layering hg k, grounded_packageCycles h k _,
    List.forall_mem_nil _⟩

end Built

theorem adjusted_constraint (s : ConstraintSettings) (c : Constraint) (v : Violation) :
    (adjusted s c v).constraint = v.constraint := by
  unfold adjusted
  split <;> rfl

theorem adjusted_nodes (s : ConstraintSettings) (c : Constraint) (v : Violation) :
    (adjusted s c v).nodes = v.nodes := by
  unfold adjusted
  split <;> rfl

/-- A check gives violations of constraints that are not switched off. -/
theorem of_mem_check {cs : List Constraint} {s : ConstraintSettings} {g : Graph} {k : Classification}
    (hcs : ∀ c ∈ cs, Grounded g k c) {v : Violation} (hv : v ∈ check cs s g k) :
    v.nodes ⊆ g.nodeIds ∧ ∃ c ∈ cs, s.isEnabled c.id = true ∧ v.constraint = c.id := by
  obtain ⟨c, hc, hv⟩ := List.mem_flatMap.1 hv
  obtain ⟨hc, henabled⟩ := List.mem_filter.1 hc
  obtain ⟨found, hfound, rfl⟩ := List.mem_map.1 hv
  obtain ⟨hconstraint, hnodes⟩ := hcs c hc found hfound
  rw [adjusted_nodes, adjusted_constraint]
  exact ⟨hnodes, c, hc, henabled, hconstraint⟩

end Constraint

namespace Model

/-- Whatever a report refers to is there. The nodes of its violations, its policy failures, the types
of its results and the nodes that their evidence speaks of are nodes of the graph of the model, and
every violation is filed under the id of a standard constraint that the settings do not switch off. -/
theorem report_refers_to_nodes {m : Model} {regexes : RegexLibrary} {settings : Settings}
    {report : AuditReport} (haudit : m.audit regexes settings = .ok report) :
    ∃ g, m.build = .ok g ∧
      (∀ v ∈ report.violations, (∀ id ∈ v.nodes, id ∈ g.nodeIds) ∧
        ∃ c ∈ Constraint.standard settings (.ofGraph g),
          settings.constraints.isEnabled c.id = true ∧ v.constraint = c.id) ∧
      (∀ id ∈ report.policyFailures, id ∈ g.nodeIds) ∧
      ∀ r ∈ report.classification.results, r.nodeId ∈ g.nodeIds ∧
        ∀ e ∈ r.evidence ++ r.diagnostics, ∀ id ∈ e.relatedNodes, id ∈ g.nodeIds := by
  obtain ⟨g, c, hbuild, hclassifier, rfl⟩ := audit_eq_ok_iff.1 haudit
  have h := builds_of_buildWith hbuild
  have hresults : ∀ r ∈ (c.classify g).results, r.nodeId ∈ g.nodeIds ∧
      ∀ e ∈ r.evidence ++ r.diagnostics, e.Within g := fun r hr =>
    Classifier.within_results h.indexed (Classifier.custom_of_ofSettings hclassifier) hr
  refine ⟨g, hbuild, fun v hv => ?_, fun id hid => ?_, fun r hr => ?_⟩
  · have hstandard := Constraint.grounded_standard h (c.classify g) (fun r hr => (hresults r hr).1)
      settings (.ofGraph g)
    obtain ⟨hnodes, hconstraint⟩ := Constraint.of_mem_check hstandard hv
    exact ⟨fun id hid => hnodes hid, hconstraint⟩
  · obtain ⟨r, hr, rfl⟩ := List.mem_map.1 hid
    exact (hresults r (List.mem_filter.1 hr).1).1
  · obtain ⟨hid, hevidence⟩ := hresults r hr
    exact ⟨hid, fun e he id hrelated => hevidence e he hrelated⟩

section Example

/-- What is shown of a parcel. -/
def parcelView : SourceType where
  name := "post.ParcelView"
  form := .record

/-- A repository of parcels that nothing implements. -/
def parcelRepository : SourceType where
  name := "post.ParcelRepository"
  form := .interface
  methods := [{ name := "find", returnType := .plain "post.ParcelView" }]

def post : Model := { types := [parcelView, parcelRepository] }

/-- The report on the post office names the repository in a violation, as it is not implemented, and
in the evidence of the view, which goes through it. -/
theorem post_report_refers_to_repository :
    ∃ report g, post.audit .standard {} = .ok report ∧ post.build = .ok g ∧
      (∃ v ∈ report.violations, parcelRepository.id ∈ v.nodes) ∧
      (∃ r ∈ report.classification.results, ∃ e ∈ r.evidence,
        parcelRepository.id ∈ e.relatedNodes) ∧
      (∀ v ∈ report.violations, ∀ id ∈ v.nodes, id ∈ g.nodeIds) ∧
      ∀ r ∈ report.classification.results, ∀ e ∈ r.evidence, ∀ id ∈ e.relatedNodes,
        id ∈ g.nodeIds := by
  have hnamed : (post.audit .standard {}).toOption.any (fun report =>
      (report.violations.any fun v => parcelRepository.id ∈ v.nodes)
        && report.classification.results.any fun r => r.evidence.any fun e =>
          parcelRepository.id ∈ e.relatedNodes) = true := by decide +kernel
  cases haudit : post.audit .standard {} with
  | error e =>
    rw [haudit] at hnamed
    exact nomatch hnamed
  | ok report =>
    rw [haudit] at hnamed
    simp only [Except.toOption, Option.any_some, Bool.and_eq_true, List.any_eq_true,
      decide_eq_true_eq] at hnamed
    obtain ⟨g, hbuild, hviolations, -, hresults⟩ := report_refers_to_nodes haudit
    refine ⟨report, g, rfl, hbuild, hnamed.1, hnamed.2, fun v hv => (hviolations v hv).1, ?_⟩
    exact fun r hr e he => (hresults r hr).2 e (List.mem_append_left _ he)

end Example

end Model

end RoleAudit
