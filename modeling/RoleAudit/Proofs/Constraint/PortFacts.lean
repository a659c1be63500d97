import RoleAudit.Constraint.Port
import RoleAudit.Proofs.Classification.Results
import RoleAudit.Proofs.Model.Build
import RoleAudit.Proofs.PortFacts

/-!
# Constraints on ports and facts on interfaces

The facts on an interface are gathered before any type has a role: test code is left out first, and
what is left is counted and compared with the core. The constraints on ports ask the graph again once
the roles are known, and leave out what is not core, or what is test code, at the end. Both come to
the same, because a core class is neither test code nor an interface.
-/

namespace RoleAudit

namespace Anchors

/-- A core class is no interface and no test code. -/
theorem isCoreType_of_isCore {g : Graph} (h : g.Indexed) {u : TypeNode}
    (hu : g.type? u.id = some u) (hcore : (Anchors.ofGraph g).isCore u.id = true) :
    u.isInterface = false ∧ u.isTestCode = false := by
  obtain ⟨t, ht, hclass, -, hproduction, -⟩ := (isCore_ofGraph_iff h).1 hcore
  obtain rfl : u = t := Option.some.inj (hu.symm.trans ht)
  exact ⟨hclass, hproduction⟩

end Anchors

namespace Constraint

/-- A violation that takes in the node says what the opening says. -/
def Reports (vs : List Violation) (opening : String) (id : NodeId) : Prop :=
  ∃ v ∈ vs, Text.startsWith opening v.message = true ∧ id ∈ v.nodes

theorem reports_append {vs ws : List Violation} {opening : String} {id : NodeId} :
    Reports (vs ++ ws) opening id ↔ Reports vs opening id ∨ Reports ws opening id := by
  simp only [Reports, List.mem_append, or_and_right, exists_or]

section Ports

variable {g : Graph} (h : g.Indexed) (c : Classifier)

include h

/-- The ports of a direction are the types whose result says so. -/
theorem mem_portsOf_iff {direction : Direction} {t : TypeNode} :
    t ∈ portsOf g (c.classify g) direction ↔ g.type? t.id = some t ∧
      ∃ r ∈ (c.classify g).ofFamily .port, r.nodeId = t.id ∧ r.direction = some direction := by
  rw [portsOf]
  constructor
  · intro ht
    obtain ⟨hid, htype⟩ := h.type?_of_mem_resolveTypes ht
    obtain ⟨r, hr, hrid⟩ := List.mem_map.1 hid
    obtain ⟨hport, hdirection⟩ := List.mem_filter.1 hr
    exact ⟨htype, r, hport, hrid, by simpa using hdirection⟩
  · rintro ⟨htype, r, hport, hrid, hdirection⟩
    refine List.mem_filterMap.2 ⟨t.id, ?_, htype⟩
    exact List.mem_map.2 ⟨r, List.mem_filter.2 ⟨hport, by simpa using hdirection⟩, hrid⟩

theorem nodup_portsOf (direction : Direction) :
    ((portsOf g (c.classify g) direction).map (·.id)).Nodup := by
  have hresults : (((c.classify g).ofFamily .port).filter (·.direction = some direction)).Sublist
      (c.classify g).results := List.filter_sublist.trans List.filter_sublist
  have hids := (hresults.map (·.nodeId)).nodup (c.nodup_results h)
  exact (h.resolveTypes_sublist _).nodup hids

/-- A type with a result is a port of the direction that the result has, and of no other. -/
theorem mem_portsOf_iff_direction {direction : Direction} {t : TypeNode} {r : ClassificationResult}
    (htype : g.type? t.id = some t) (hr : (c.classify g).get? t.id = some r)
    (hport : r ∈ (c.classify g).ofFamily .port) :
    t ∈ portsOf g (c.classify g) direction ↔ r.direction = some direction := by
  rw [mem_portsOf_iff h c]
  have hrid : r.nodeId = t.id := ((c.get?_eq_some h).1 hr).2
  constructor
  · rintro ⟨-, s, hs, hsid, hdirection⟩
    have hget : (c.classify g).get? t.id = some s :=
      (c.get?_eq_some h).2 ⟨(List.mem_filter.1 hs).1, hsid⟩
    rw [hr] at hget
    rwa [Option.some.inj hget]
  · intro hdirection
    exact ⟨htype, r, hport, hrid, hdirection⟩

end Ports

/-! ## Reports on one port -/

section Reported

variable {ports : List TypeNode} {report : TypeNode → Option Violation} {t : TypeNode}

/-- Where every violation takes in one port alone, a port is reported if it has a violation. -/
theorem exists_report_iff
    (honly : ∀ port ∈ ports, ∀ v, report port = some v → (t.id ∈ v.nodes ↔ port = t)) :
    (∃ v ∈ ports.filterMap report, t.id ∈ v.nodes) ↔ t ∈ ports ∧ (report t).isSome = true := by
  constructor
  · rintro ⟨v, hv, hmem⟩
    obtain ⟨port, hport, hreport⟩ := List.mem_filterMap.1 hv
    obtain rfl := (honly port hport v hreport).1 hmem
    exact ⟨hport, by rw [hreport]; rfl⟩
  · rintro ⟨ht, hsome⟩
    obtain ⟨v, hv⟩ := Option.isSome_iff_exists.1 hsome
    exact ⟨v, List.mem_filterMap.2 ⟨t, ht, hv⟩, (honly t ht v hv).2 rfl⟩

/-- This is so where a violation has the one type for its nodes that it is about. -/
theorem mem_nodes_iff_of_single {g : Graph} (hports : ∀ port ∈ ports, g.type? port.id = some port)
    (htype : g.type? t.id = some t) (hnodes : ∀ port v, report port = some v → v.nodes = [port.id]) :
    ∀ port ∈ ports, ∀ v, report port = some v → (t.id ∈ v.nodes ↔ port = t) := by
  intro port hport v hv
  rw [hnodes port v hv, List.mem_singleton]
  constructor
  · intro hid
    have hsame := hports port hport
    rw [← hid, htype] at hsame
    exact (Option.some.inj hsame).symm
  · rintro rfl
    rfl

theorem reports_iff_exists {vs : List Violation} {opening : String} {id : NodeId}
    (htext : ∀ v ∈ vs, Text.startsWith opening v.message = true) :
    Reports vs opening id ↔ ∃ v ∈ vs, id ∈ v.nodes := by
  refine exists_congr fun v => and_congr_right fun hv => ?_
  exact and_iff_right (htext v hv)

theorem countP_filterMap_le
    (honly : ∀ port ∈ ports, ∀ v, report port = some v → (t.id ∈ v.nodes ↔ port = t)) :
    (ports.filterMap report).countP (fun v => t.id ∈ v.nodes) ≤ ports.count t := by
  rw [List.countP_filterMap, List.count]
  refine List.countP_mono_left fun port hport hcounted => ?_
  cases hreport : report port with
  | none => simp [hreport] at hcounted
  | some v =>
    have hmem : t.id ∈ v.nodes := by simpa [hreport] using hcounted
    simpa using (honly port hport v hreport).1 hmem

end Reported

/-! ## The constraints and the facts -/

/-- There is a violation if one of the related types is core. -/
theorem isSome_directionViolation? {wording : String} {port : TypeNode} {related : List TypeNode}
    {p : TypeNode → Bool} :
    (directionViolation? wording port (related.filter p)).isSome = related.any p := by
  have hany : related.any p = !(related.filter p).isEmpty := by
    rw [Bool.eq_iff_iff]
    simp
  rw [hany]
  cases related.filter p <;> rfl

theorem of_directionViolation? {wording : String} {port : TypeNode} {found : List TypeNode}
    {v : Violation} (hv : directionViolation? wording port found = some v) :
    v.message = wording ++ TypeNode.namesLine found ∧ v.nodes = port.id :: found.map (·.id) := by
  cases found with
  | nil => exact nomatch hv
  | cons u us =>
    obtain rfl := Option.some.inj hv
    exact ⟨rfl, rfl⟩

theorem startsWith_of_mem_filterMap {ports : List TypeNode} {opening ending : String}
    {related : TypeNode → List TypeNode} :
    ∀ v ∈ ports.filterMap fun port =>
        directionViolation? (opening ++ port.simpleName ++ ending) port (related port),
      Text.startsWith opening v.message = true := by
  intro v hv
  obtain ⟨port, -, hreport⟩ := List.mem_filterMap.1 hv
  rw [(of_directionViolation? hreport).1, Text.startsWith_iff, String.append_assoc,
    String.append_assoc, String.toList_append]
  exact List.prefix_append _ _

/-- No text of one half reads like one of the other half. -/
theorem not_reports_other_direction {ports : List TypeNode} {opening other ending : String}
    (hother : ¬ (opening.toList <+: other.toList ∨ other.toList <+: opening.toList))
    {related : TypeNode → List TypeNode} {id : NodeId} :
    ¬ Reports (ports.filterMap fun port =>
      directionViolation? (other ++ port.simpleName ++ ending) port (related port)) opening id := by
  rintro ⟨v, hv, htext, -⟩
  have hstart := startsWith_of_mem_filterMap v hv
  rw [Text.startsWith_iff] at htext hstart
  exact hother (List.prefix_or_prefix_of_prefix htext hstart)

/-- The violation of a driven port that nothing outside of tests implements. -/
def uncovered? (g : Graph) (port : TypeNode) : Option Violation :=
  if (g.implementorsOf port.id).all (·.isTestCode) then
    some {
      constraint := "hexagonal:port-coverage"
      severity := .major
      message := "Driven port '" ++ port.simpleName ++ "' has no production implementation"
      nodes := [port.id] }
  else none

theorem isSome_uncovered? (g : Graph) (port : TypeNode) :
    (uncovered? g port).isSome = (g.implementorsOf port.id).all (·.isTestCode) := by
  unfold uncovered?
  cases (g.implementorsOf port.id).all (·.isTestCode) <;> rfl

theorem nodes_uncovered? {g : Graph} {port : TypeNode} {v : Violation}
    (hv : uncovered? g port = some v) : v.nodes = [port.id] := by
  unfold uncovered? at hv
  split at hv
  · rw [← Option.some.inj hv]
  · exact nomatch hv

theorem findings_portCoverage (g : Graph) (k : Classification) :
    portCoverage.findings g k = (portsOf g k .driven).filterMap (uncovered? g) := by
  simp only [portCoverage, uncovered?]
  rw [← List.filterMap_eq_map, List.filterMap_filter]
  rfl

section Agreement

variable {g : Graph} (h : g.Indexed)

include h

/-- Of the nodes of such a violation only the port is an interface. -/
theorem mem_nodes_directionViolation? {t : TypeNode} (htype : g.type? t.id = some t)
    (hinterface : t.isInterface = true) {wording : String} {port : TypeNode}
    (hport : g.type? port.id = some port) {ids : List NodeId} {v : Violation}
    (hv : directionViolation? wording port
      ((g.resolveTypes ids).filter ((Anchors.ofGraph g).isCore ·.id)) = some v) :
    t.id ∈ v.nodes ↔ port = t := by
  rw [(of_directionViolation? hv).2, List.mem_cons, List.mem_map]
  constructor
  · rintro (hid | ⟨u, hu, hid⟩)
    · rw [hid, hport] at htype
      exact Option.some.inj htype
    · obtain ⟨hmem, hcore⟩ := List.mem_filter.1 hu
      have hutype := (h.type?_of_mem_resolveTypes hmem).2
      have hno := (Anchors.isCoreType_of_isCore h hutype hcore).1
      rw [hid, htype] at hutype
      rw [← Option.some.inj hutype, hinterface] at hno
      exact absurd hno (by simp)
  · rintro rfl
    exact Or.inl rfl

/-- It makes no difference for the core whether test code is left out. -/
theorem any_isCore_productionImplementors (id : NodeId) :
    (g.productionImplementors id).any ((Anchors.ofGraph g).isCore ·.id)
      = (g.implementorsOf id).any ((Anchors.ofGraph g).isCore ·.id) := by
  rw [Graph.productionImplementors, Bool.eq_iff_iff, List.any_eq_true, List.any_eq_true]
  refine exists_congr fun u => and_congr_left fun hcore => ?_
  rw [List.mem_filter]
  refine and_iff_left_of_imp fun hu => ?_
  have hutype := (h.type?_of_mem_resolveTypes hu).2
  simp [(Anchors.isCoreType_of_isCore h hutype hcore).2]

omit h in
theorem isEmpty_productionImplementors (id : NodeId) :
    (g.productionImplementors id).isEmpty = (g.implementorsOf id).all (·.isTestCode) := by
  rw [Graph.productionImplementors, Bool.eq_iff_iff]
  simp

variable (c : Classifier) {t : TypeNode} {r : ClassificationResult}
  (htype : g.type? t.id = some t) (hinterface : t.isInterface = true)
  (hr : (c.classify g).get? t.id = some r) (hport : r ∈ (c.classify g).ofFamily .port)

include htype hinterface hr hport

/-- One half of the constraint on the direction of ports, for an interface that is a port. -/
theorem reports_direction_iff (direction : Direction) (opening ending : String)
    (related : NodeId → List NodeId) :
    let found := (portsOf g (c.classify g) direction).filterMap fun port =>
      directionViolation? (opening ++ port.simpleName ++ ending) port
        ((g.resolveTypes (related port.id)).filter ((Anchors.ofGraph g).isCore ·.id))
    (Reports found opening t.id ↔ r.direction = some direction ∧
      (g.resolveTypes (related t.id)).any ((Anchors.ofGraph g).isCore ·.id) = true) ∧
    found.countP (fun v => t.id ∈ v.nodes) ≤ if r.direction = some direction then 1 else 0 := by
  intro found
  have hmem : t ∈ portsOf g (c.classify g) direction ↔ r.direction = some direction :=
    mem_portsOf_iff_direction h c htype hr hport
  have honly : ∀ port ∈ portsOf g (c.classify g) direction, ∀ v,
      directionViolation? (opening ++ port.simpleName ++ ending) port
        ((g.resolveTypes (related port.id)).filter ((Anchors.ofGraph g).isCore ·.id)) = some v →
      (t.id ∈ v.nodes ↔ port = t) := by
    intro p hp v hv
    exact mem_nodes_directionViolation? h htype hinterface ((mem_portsOf_iff h c).1 hp).1 hv
  constructor
  · rw [reports_iff_exists startsWith_of_mem_filterMap, exists_report_iff honly, hmem,
      isSome_directionViolation?]
  · refine (countP_filterMap_le honly).trans ?_
    split
    · exact List.nodup_iff_count_le_one.1 (nodup_portsOf h c direction).of_map t
    · rename_i hno
      exact (List.count_eq_zero_of_not_mem fun ht => hno (hmem.1 ht)).le

/-- The constraint on the direction of ports, for an interface that is a port. -/
theorem portDirection_reports :
    let found := (portDirection (.ofGraph g)).findings g (c.classify g)
    (Reports found "Driving port '" t.id ↔ r.direction = some .driving ∧
      (g.typesInjecting t.id).any ((Anchors.ofGraph g).isCore ·.id) = true) ∧
    (Reports found "Driven port '" t.id ↔ r.direction = some .driven ∧
      (g.implementorsOf t.id).any ((Anchors.ofGraph g).isCore ·.id) = true) ∧
    found.countP (fun v => t.id ∈ v.nodes) ≤ 1 := by
  obtain ⟨hused, husedonce⟩ := reports_direction_iff h c htype hinterface hr hport
    .driving "Driving port '" "' is consumed by core class(es): "
    fun id => distinct ((g.fieldsOfType id).map (·.owner)
      ++ ((g.membersWithParameter id).filterMap Node.constructor?).map (·.owner))
  obtain ⟨himplemented, himplementedonce⟩ := reports_direction_iff h c htype hinterface hr hport
    .driven "Driven port '" "' is implemented by core class(es): "
    fun id => g.indexes.implementors.get id
  simp only [portDirection]
  refine ⟨?_, ?_, ?_⟩
  · rw [reports_append, or_iff_left (not_reports_other_direction (by decide))]
    exact hused
  · rw [reports_append, or_iff_right (not_reports_other_direction (by decide))]
    exact himplemented
  · rw [List.countP_append]
    refine (Nat.add_le_add husedonce himplementedonce).trans ?_
    by_cases hdriving : r.direction = some .driving
    · simp [hdriving]
    · rw [if_neg hdriving]
      split <;> decide

omit hinterface in
/-- The constraint on the coverage of ports, for a port. -/
theorem portCoverage_reports :
    let found := portCoverage.findings g (c.classify g)
    ((∃ v ∈ found, t.id ∈ v.nodes) ↔ r.direction = some .driven ∧
      (g.implementorsOf t.id).all (·.isTestCode) = true) ∧
    found.countP (fun v => t.id ∈ v.nodes) ≤ 1 := by
  have honly : ∀ port ∈ portsOf g (c.classify g) .driven, ∀ v, uncovered? g port = some v →
      (t.id ∈ v.nodes ↔ port = t) :=
    mem_nodes_iff_of_single (fun p hp => ((mem_portsOf_iff h c).1 hp).1) htype
      fun p v => nodes_uncovered?
  simp only [findings_portCoverage]
  constructor
  · rw [exists_report_iff honly, mem_portsOf_iff_direction h c htype hr hport, isSome_uncovered?]
  · refine (countP_filterMap_le honly).trans ?_
    exact List.nodup_iff_count_le_one.1 (nodup_portsOf h c .driven).of_map t

end Agreement

/-- The constraints on ports say of an interface what the facts on it say. Take a graph whose look-ups
are scans, as they are in every graph that insertions make, any classification of it, and an interface
of it that does not belong to the platform and has the role of a port. It is reported as a driving
port exactly if it is one and the facts say that the core uses it, as a driven port exactly if it is
one and the facts say that the core implements it, and as uncovered exactly if it is a driven port and
the facts say that nothing outside of tests implements it. Neither constraint reports it twice. -/
theorem port_constraints_agree_with_facts {g : Graph} (h : g.Indexed) (c : Classifier) {t : TypeNode}
    (ht : t ∈ g.types) (hinterface : t.isInterface = true) (hplatform : t.isPlatformType = false)
    {r : ClassificationResult} (hr : (c.classify g).get? t.id = some r)
    (hport : r ∈ (c.classify g).ofFamily .port) :
    let direction := (portDirection (.ofGraph g)).findings g (c.classify g)
    let coverage := portCoverage.findings g (c.classify g)
    ∃ f, (PortFactsIndex.ofGraph g (.ofGraph g)).get? t.id = some f ∧
      (Reports direction "Driving port '" t.id ↔
        r.direction = some .driving ∧ f.usedByCore = true) ∧
      (Reports direction "Driven port '" t.id ↔
        r.direction = some .driven ∧ f.implementedByCore = true) ∧
      ((∃ v ∈ coverage, t.id ∈ v.nodes) ↔ r.direction = some .driven ∧ f.missing = true) ∧
      direction.countP (fun v => t.id ∈ v.nodes) ≤ 1 ∧
      coverage.countP (fun v => t.id ∈ v.nodes) ≤ 1 := by
  have htype : g.type? t.id = some t := h.type?_of_mem_types ht
  obtain ⟨hdriving, hdriven, honce⟩ := portDirection_reports h c htype hinterface hr hport
  obtain ⟨hcoverage, hcoverageonce⟩ := portCoverage_reports h c htype hr hport
  refine ⟨PortFacts.ofInterface g (.ofGraph g) t, ?_, hdriving, ?_, ?_, honce, hcoverageonce⟩
  · rw [PortFactsIndex.get?_ofGraph h, htype, Option.bind_some, hinterface, hplatform]
    rfl
  · rw [hdriven, ← any_isCore_productionImplementors h]
    rfl
  · rw [hcoverage, ← isEmpty_productionImplementors]
    rfl

section Example

/-- The rates of a bank, which it should get from outside. -/
def rates : SourceType where
  name := "bank.Rates"
  form := .interface

/-- A use of the bank, which only the outside should call. -/
def transfer : SourceType where
  name := "bank.Transfer"
  form := .interface

/-- A quote asks for the rates and calls a use of the bank. -/
def quote : SourceType where
  name := "bank.Quote"
  form := .plainClass
  fields := [.privateFinal "rates" (.plain "bank.Rates"),
    .privateFinal "transfer" (.plain "bank.Transfer")]

/-- Rates that only tests know. -/
def fakeRates : SourceType where
  name := "bank.test.FakeRates"
  form := .plainClass
  interfaces := [.plain "bank.Rates"]

/-- A bank without production code for its rates. -/
def bank : Model where
  types := [rates, transfer, quote, fakeRates]

/-- The graph of the bank. -/
def bankGraph : Graph := bank.build.toOption.getD .empty

/-- The roles that the settings of the bank give. -/
def bankRoles : Classifier where
  exclusions := {}
  explicit :=
    { entries := [("bank.Rates", .drivenPort), ("bank.Transfer", .useCase)]
      ascending := by decide }

/-- The rates are reported as uncovered, though the test code implements them, and the use of the bank
as a driving port that the core consumes. -/
theorem bank_ports_reported :
    (∃ v ∈ portCoverage.findings bankGraph (bankRoles.classify bankGraph), rates.id ∈ v.nodes) ∧
    Reports ((portDirection (.ofGraph bankGraph)).findings bankGraph (bankRoles.classify bankGraph))
      "Driving port '" transfer.id := by
  have hbuilds : bank.Builds true bankGraph := Model.builds_build (by decide)
  have hix := hbuilds.indexed
  have hresult : ∀ t ∈ bank.types, ∀ role, bankRoles.explicit.get? t.name = some role →
      (bankRoles.classify bankGraph).get? t.toNode.id
        = some (Classifier.explicitResult t.toNode role) :=
    fun t ht role hrole => bankRoles.get?_of_explicit hix (hbuilds.mem_typeNodes ht) rfl hrole
  have hmem : ∀ t ∈ bank.types, t.toNode ∈ bankGraph.types := fun t ht =>
    hix.types_eq ▸ hbuilds.mem_typeNodes ht
  have hfacts : ((PortFactsIndex.ofGraph bankGraph (.ofGraph bankGraph)).get? rates.id).map
        (·.missing) = some true ∧
      ((PortFactsIndex.ofGraph bankGraph (.ofGraph bankGraph)).get? transfer.id).map
        (·.usedByCore) = some true := by decide +kernel
  constructor
  · have hrates : rates ∈ bank.types := by simp [bank]
    have hr := hresult rates hrates .drivenPort (by decide)
    obtain ⟨f, hf, -, -, hcoverage, -⟩ := port_constraints_agree_with_facts hix bankRoles
      (hmem rates hrates) rfl (by decide) hr
      (List.mem_filter.2 ⟨((bankRoles.get?_eq_some hix).1 hr).1, rfl⟩)
    have hmissing := hfacts.1
    rw [show rates.id = rates.toNode.id from rfl, hf] at hmissing
    exact hcoverage.2 ⟨rfl, Option.some.inj hmissing⟩
  · have htransfer : transfer ∈ bank.types := by simp [bank]
    have hr := hresult transfer htransfer .useCase (by decide)
    obtain ⟨f, hf, hdriving, -⟩ := port_constraints_agree_with_facts hix bankRoles
      (hmem transfer htransfer) rfl (by decide) hr
      (List.mem_filter.2 ⟨((bankRoles.get?_eq_some hix).1 hr).1, rfl⟩)
    have hused := hfacts.2
    rw [show transfer.id = transfer.toNode.id from rfl, hf] at hused
    exact hdriving.2 ⟨rfl, Option.some.inj hused⟩

end Example

end Constraint

end RoleAudit
