import RoleAudit.Constraint.PackageCycle
import RoleAudit.Proofs.Digraph.Components
import RoleAudit.Proofs.Model.PackageProjection

/-!
# Circles of packages

A package depends on another where an edge between their types, or between members of these, says
so. The violations that the constraint on packages finds are, one for one, the circles of this
relation: the classes of two or more packages that all depend on each other, directly or by way of
others.

A violation names types, not packages, and of the dependencies between two packages only the first
ones are kept. Still no package of a circle is missed: each has a dependency on another one inside
the circle, and of every dependency at least one is kept.
-/

namespace RoleAudit

open Relation

namespace Graph

variable (g : Graph) (settings : CycleSettings)

/-- The node of an id is the type itself or is declared by it. -/
def Owns (t : TypeNode) (id : NodeId) : Prop :=
  id = t.id ∨ ∃ n ∈ g.nodes, n.id = id ∧ n.owner? = some t.id

/-- An edge between two types or their members makes the first depend on the second. -/
def TypeDepends (t u : TypeNode) : Prop :=
  ∃ e ∈ g.edges,
    (e.kind ∈ [.extends, .implements, .fieldType, .returnType, .parameterType] ∨
      (e.kind = .usesInSignature ∧ settings.includeDerived = true)) ∧
    g.Owns t e.source ∧ g.Owns u e.target

/-- A type of one package depends on a type of another. -/
def PackageDepends (p q : String) : Prop :=
  p ≠ q ∧ ∃ t ∈ g.types, ∃ u ∈ g.types,
    t.package = p ∧ u.package = q ∧ g.TypeDepends settings t u

/-- Two or more packages that all depend on each other, directly or by way of others, and with them
all packages of which this is true. -/
def PackageCircle (circle : Set String) : Prop :=
  circle.Nontrivial ∧ ∃ p, circle = {q |
    ReflTransGen (g.PackageDepends settings) p q ∧ ReflTransGen (g.PackageDepends settings) q p}

variable {g}

theorem Indexed.owningType?_eq_some_iff (h : g.Indexed) {t : TypeNode} (ht : t ∈ g.types)
    {id : NodeId} : g.owningType? id = some t.id ↔ g.Owns t id := by
  rw [owningType?, Option.map_eq_some_iff]
  constructor
  · rintro ⟨n, hn, howner⟩
    obtain ⟨hin, rfl⟩ := h.node?_eq_some.1 hn
    cases hn' : n.owner? with
    | none =>
      rw [hn'] at howner
      exact .inl howner
    | some owner =>
      rw [hn'] at howner
      exact .inr ⟨n, hin, rfl, hn'.trans (congrArg some howner)⟩
  · rintro (rfl | ⟨n, hn, rfl, howner⟩)
    · exact ⟨.type t, h.node?_of_mem_types ht, rfl⟩
    · refine ⟨n, h.node?_eq_some.2 ⟨hn, rfl⟩, ?_⟩
      rw [howner]
      rfl

end Graph

open Constraint (dependencyKinds)

namespace Model

section Built

variable {m : Model} {derived : Bool} {g : Graph} (h : m.Builds derived g)

include h

/-- Uses in signatures are derived and all other edges are raw. -/
theorem Builds.isDerived_iff {e : Edge} (he : e ∈ g.edges) :
    e.isDerived = true ↔ e.kind = .usesInSignature := by
  rw [← Array.mem_toList_iff, h.edges] at he
  rcases List.mem_append.1 he with he | he
  · refine iff_of_false ?_ (kind_of_mem_bodyEdges he)
    simp [Edge.isDerived, provenance_of_mem_bodyEdges he]
  · obtain ⟨⟨t, -, het⟩, hkind⟩ := of_mem_derived he
    refine iff_of_true ?_ hkind
    rw [Edge.isDerived, SourceType.provenance_of_mem_signatureEdges het]
    rfl

theorem Builds.countsFor_iff (settings : CycleSettings) {e : Edge} (he : e ∈ g.edges) :
    Graph.countsFor dependencyKinds settings e = true ↔
      e.kind ∈ [EdgeKind.extends, .implements, .fieldType, .returnType, .parameterType] ∨
        (e.kind = .usesInSignature ∧ settings.includeDerived = true) := by
  have hderived := h.isDerived_iff he
  by_cases huses : e.kind = .usesInSignature
  · have hyes : e.isDerived = true := hderived.2 huses
    simp [Graph.countsFor, dependencyKinds, huses, hyes]
  · have hno : e.isDerived = false := by
      rw [← Bool.not_eq_true]
      exact fun hyes => huses (hderived.1 hyes)
    simp [Graph.countsFor, dependencyKinds, huses, hno]

/-- In the projection onto types an edge is a dependency between the types. -/
theorem Builds.leads_projectTypes_iff (settings : CycleSettings) {t u : TypeNode} (ht : t ∈ g.types)
    (hu : u ∈ g.types) :
    (g.projectTypes dependencyKinds settings).Leads t.id u.id ↔
      t.id ≠ u.id ∧ g.TypeDepends settings t u := by
  simp only [g.leads_projectTypes, g.liftedEdge?_eq_some, h.indexed.owningType?_eq_some_iff ht,
    h.indexed.owningType?_eq_some_iff hu, Array.mem_toList_iff]
  constructor
  · rintro ⟨e, he, hcounts, hfrom, hto, hne⟩
    exact ⟨hne, e, he, (h.countsFor_iff settings he).1 hcounts, hfrom, hto⟩
  · rintro ⟨hne, e, he, hkind, hfrom, hto⟩
    exact ⟨e, he, (h.countsFor_iff settings he).2 hkind, hfrom, hto, hne⟩

/-- In the projection onto packages an edge is a dependency between the packages. -/
theorem Builds.leads_projectPackages_iff (settings : CycleSettings) {p q : String} :
    (g.projectPackages (g.projectTypes dependencyKinds settings) settings).graph.Leads p q ↔
      g.PackageDepends settings p q := by
  rw [h.indexed.leads_projectPackages_iff settings (h.spansTypes dependencyKinds settings),
    Graph.PackageDepends]
  refine and_congr_right fun hne => ?_
  constructor
  · rintro ⟨t, ht, u, hu, hp, hq, hl⟩
    exact ⟨t, ht, u, hu, hp, hq, ((h.leads_projectTypes_iff settings ht hu).1 hl).2⟩
  · rintro ⟨t, ht, u, hu, rfl, rfl, hdepends⟩
    have hids : t.id ≠ u.id := by
      intro hid
      have hsame := h.indexed.packageOf?_of_mem_types ht
      rw [hid, h.indexed.packageOf?_of_mem_types hu, Option.some_inj] at hsame
      exact hne hsame.symm
    exact ⟨t, ht, u, hu, rfl, rfl, (h.leads_projectTypes_iff settings ht hu).2 ⟨hids, hdepends⟩⟩

/-! ## The types of a violation -/

/-- What is kept for two packages is a dependency between a type of one and a type of the other. -/
theorem Builds.types_of_mem_witnessesFor {kinds : List EdgeKind} {settings : CycleSettings}
    {p q : String} {w : Witness}
    (hw : w ∈ (g.projectPackages (g.projectTypes kinds settings) settings).witnessesFor p q) :
    (∃ t ∈ g.types, t.id = w.source ∧ t.package = p) ∧
      ∃ u ∈ g.types, u.id = w.target ∧ u.package = q := by
  have hspans := h.spansTypes kinds settings
  rw [g.witnessesFor_projectPackages] at hw
  obtain ⟨⟨a, b⟩, hedge, rfl⟩ := List.mem_map.1 (List.mem_of_mem_take hw)
  obtain ⟨hab, hpackages⟩ := List.mem_filter.1 hedge
  obtain ⟨hp, hq, -⟩ := g.packageEdge?_eq_some.1 (of_decide_eq_true hpackages)
  obtain ⟨ha, hb⟩ := hspans.exists_types_of_leads (hspans.wellFormed.mem_edges.1 hab)
  exact ⟨(h.indexed.packageOf?_eq_some_iff ha).1 hp, (h.indexed.packageOf?_eq_some_iff hb).1 hq⟩

end Built

end Model

namespace Constraint

theorem mem_innerEdges {packages : PackageGraph} (hwf : packages.graph.WellFormed)
    {component : List String} {p q : String} :
    (p, q) ∈ innerEdges packages component ↔
      packages.graph.Leads p q ∧ p ∈ component ∧ q ∈ component := by
  rw [innerEdges, List.mem_filter, hwf.mem_edges, Bool.and_eq_true, List.contains_iff_mem,
    List.contains_iff_mem]

theorem mem_nodes_packageCycleViolation {packages : PackageGraph} {component : List String}
    {id : NodeId} :
    id ∈ (packageCycleViolation packages component).nodes ↔
      ∃ p q, (p, q) ∈ innerEdges packages component ∧
        ∃ w ∈ packages.witnessesFor p q, id = w.source ∨ id = w.target := by
  simp only [packageCycleViolation, mem_distinct, List.mem_flatMap, Prod.exists, List.mem_cons,
    List.not_mem_nil, or_false]

theorem nodup_nodes_packageCycleViolation (packages : PackageGraph) (component : List String) :
    (packageCycleViolation packages component).nodes.Nodup :=
  nodup_distinct _

/-- The nodes of a violation are different types, all of packages of a circle, and every package of
the circle has one. -/
def Covers (g : Graph) (v : Violation) (circle : Set String) : Prop :=
  v.nodes.Nodup ∧
  (∀ id ∈ v.nodes, ∃ t ∈ g.types, t.id = id ∧ t.package ∈ circle) ∧
  ∀ p ∈ circle, ∃ t ∈ g.types, t.id ∈ v.nodes ∧ t.package = p

theorem covers_packageCycleViolation {m : Model} {derived : Bool} {g : Graph}
    (h : m.Builds derived g) {settings : CycleSettings}
    (hlimit : 1 ≤ settings.maxDependenciesPerEdge) {component : List String}
    (hcomponent : component ∈
      (g.projectPackages (g.projectTypes dependencyKinds settings) settings).graph.components) :
    Covers g (packageCycleViolation
      (g.projectPackages (g.projectTypes dependencyKinds settings) settings) component)
      {p | p ∈ component} := by
  have htypes := g.wellFormed_projectTypes dependencyKinds settings
  have hwf := g.wellFormed_projectPackages (g.projectTypes dependencyKinds settings) settings
  refine ⟨nodup_nodes_packageCycleViolation _ _, ?_, ?_⟩
  · intro id hid
    obtain ⟨p, q, hpq, w, hw, hend⟩ := mem_nodes_packageCycleViolation.1 hid
    obtain ⟨-, hp, hq⟩ := (mem_innerEdges hwf).1 hpq
    obtain ⟨⟨t, ht, htw, htp⟩, u, hu, huw, huq⟩ := h.types_of_mem_witnessesFor hw
    rcases hend with rfl | rfl
    · exact ⟨t, ht, htw, htp ▸ hp⟩
    · exact ⟨u, hu, huw, huq ▸ hq⟩
  · -- the package leads to another one of the circle, and a type of it stands behind that
    intro p hp
    obtain ⟨q, hq, hl⟩ := hwf.exists_leads_of_mem_components hcomponent hp
    obtain ⟨w, hw⟩ := g.exists_mem_witnessesFor htypes hlimit hl
    obtain ⟨⟨t, ht, htw, htp⟩, -⟩ := h.types_of_mem_witnessesFor hw
    refine ⟨t, ht, ?_, htp⟩
    rw [htw]
    exact mem_nodes_packageCycleViolation.2
      ⟨p, q, (mem_innerEdges hwf).2 ⟨hl, hp, hq⟩, w, hw, .inl rfl⟩

theorem findings_packageCycles (settings : CycleSettings) (g : Graph)
    (classification : Classification) :
    (packageCycles settings).findings g classification
      = (g.projectPackages (g.projectTypes dependencyKinds settings) settings).graph.components.map
        (packageCycleViolation
          (g.projectPackages (g.projectTypes dependencyKinds settings) settings)) := by
  rw [packageCycles]

/-- In the graph of a model, and unless no dependency between types may be kept, the violations of
the constraint on packages and the circles of packages belong to each other one by one. The nodes of
a violation are different types of the packages of its circle, and no package of the circle is
without one. -/
theorem packageCycles_are_circles {m : Model} {derived : Bool} {g : Graph}
    (hbuild : m.buildWith derived = .ok g) (settings : CycleSettings)
    (hlimit : 1 ≤ settings.maxDependenciesPerEdge) (classification : Classification) :
    ∃ circles : List (Set String), circles.Nodup ∧
      (∀ circle, circle ∈ circles ↔ g.PackageCircle settings circle) ∧
      List.Forall₂ (Covers g) ((packageCycles settings).findings g classification) circles := by
  have h := Model.builds_of_buildWith hbuild
  have hwf := g.wellFormed_projectPackages (g.projectTypes dependencyKinds settings) settings
  have hleads : (g.projectPackages (g.projectTypes dependencyKinds settings) settings).graph.Leads
      = g.PackageDepends settings :=
    funext fun p => funext fun q => propext (h.leads_projectPackages_iff settings)
  refine ⟨_, hwf.nodup_setOf_components, ?_, ?_⟩
  · intro circle
    rw [hwf.mem_setOf_components_iff, Graph.PackageCircle, ← hleads]
    exact Iff.rfl
  · rw [findings_packageCycles, List.forall₂_map_left_iff, List.forall₂_map_right_iff,
      List.forall₂_same]
    intro component hcomponent
    exact covers_packageCycleViolation h hlimit hcomponent

/-- An order of the sales names items of the stock. -/
def saleOrder : SourceType where
  name := "sales.Order"
  form := .plainClass
  fields := [.privateFinal "items" ⟨"java.util.List", [.plain "stock.Item"]⟩]

/-- So does an invoice. -/
def invoice : SourceType where
  name := "sales.Invoice"
  form := .record
  fields := [.privateFinal "item" (.plain "stock.Item")]

/-- An item of the stock. -/
def item : SourceType := { name := "stock.Item", form := .plainClass }

/-- The stock keeps a ledger of the orders in which items were sold. -/
def ledger : SourceType where
  name := "stock.Ledger"
  form := .interface
  methods := [
    { name := "soldIn"
      returnType := .plain "sales.Order"
      parameters := [{ name := "item", type := .plain "stock.Item" }] },
    { name := "close", returnType := .void }]

/-- Sales and stock, which depend on each other. -/
def trade : Model := { types := [saleOrder, invoice, item, ledger] }

/-- A dependency edge that a declaration states makes packages depend on each other. -/
theorem packageDepends_of_states {m : Model} {derived : Bool} {g : Graph} (h : m.Builds derived g)
    (settings : CycleSettings) {t u : SourceType} (ht : t ∈ m.types) (hu : u ∈ m.types) {e : Edge}
    (he : e ∈ t.dependencyEdges m.declares) (htarget : e.target = u.id)
    (hne : t.package ≠ u.package) : g.PackageDepends settings t.package u.package := by
  have hfrom : g.Owns t.toNode e.source := by
    rw [← h.indexed.owningType?_eq_some_iff (h.mem_types ht)]
    exact h.owningType?_eq_some.2 ⟨t, ht, (SourceType.of_mem_dependencyEdges he).1, rfl⟩
  rw [← SourceType.filter_bodyEdges] at he
  obtain ⟨hstated, hother⟩ := List.mem_filter.1 he
  have hbody : e ∈ m.types.flatMap (·.bodyEdges m.declares) := List.mem_flatMap.2 ⟨t, ht, hstated⟩
  have hedge : e ∈ g.edges := by
    rw [← Array.mem_toList_iff, h.edges]
    exact List.mem_append_left _ hbody
  have hkind : e.kind ∈
      [EdgeKind.extends, .implements, .fieldType, .returnType, .parameterType] := by
    have huses := Model.kind_of_mem_bodyEdges hbody
    cases hk : e.kind <;> simp [hk] at hother huses ⊢
  exact ⟨hne, t.toNode, h.mem_types ht, u.toNode, h.mem_types hu, rfl, rfl, e, hedge, .inl hkind,
    hfrom, .inl htarget⟩

/-- Sales and stock are in one circle, and both are covered although only one dependency between
types is kept for two packages. -/
theorem trade_is_a_circle :
    ∃ g, trade.buildWith true = .ok g ∧ ∃ circles circle,
      List.Forall₂ (Covers g)
        ((packageCycles { maxDependenciesPerEdge := 1 }).findings g ⟨[]⟩) circles ∧
      circle ∈ circles ∧ "sales" ∈ circle ∧ "stock" ∈ circle := by
  obtain ⟨g, hg⟩ := Error.exists_of_isOk ((trade.isOk_buildWith_iff true).2 (by decide))
  have h := Model.builds_of_buildWith hg
  obtain ⟨circles, -, hcircles, hcovers⟩ :=
    packageCycles_are_circles hg { maxDependenciesPerEdge := 1 } (by decide) ⟨[]⟩
  have hsells : g.PackageDepends { maxDependenciesPerEdge := 1 } "sales" "stock" :=
    packageDepends_of_states h _ (t := saleOrder) (u := item) (by simp [trade]) (by simp [trade])
      (e := .raw (.ofField saleOrder.name "items") item.id .fieldType) (by decide +kernel) rfl
      (by decide)
  have hrecords : g.PackageDepends { maxDependenciesPerEdge := 1 } "stock" "sales" :=
    packageDepends_of_states h _ (t := ledger) (u := saleOrder) (by simp [trade]) (by simp [trade])
      (e := .raw (.ofMethod ledger.name "soldIn" ["stock.Item"]) saleOrder.id .returnType)
      (by decide +kernel) rfl (by decide)
  refine ⟨g, hg, circles, _, hcovers, (hcircles _).2 ⟨?_, "sales", rfl⟩, ?_, ?_⟩
  · exact ⟨"sales", ⟨.refl, .refl⟩, "stock", ⟨.single hsells, .single hrecords⟩, by decide⟩
  · exact ⟨.refl, .refl⟩
  · exact ⟨.single hsells, .single hrecords⟩

/-- In the graph of a model it makes no difference to the projection onto types, and so none to the
violations of the constraint on packages, whether derived edges count, unless a result without value
mentions a type of the model. -/
theorem packageCycles_ignore_derived {m : Model} {derived : Bool} {g : Graph}
    (hbuild : m.buildWith derived = .ok g) (hvoids : m.PlainVoids) (settings : CycleSettings)
    (classification : Classification) :
    g.projectTypes dependencyKinds { settings with includeDerived := true }
      = g.projectTypes dependencyKinds { settings with includeDerived := false } ∧
    (packageCycles { settings with includeDerived := true }).findings g classification
      = (packageCycles { settings with includeDerived := false }).findings g classification := by
  have h := Model.builds_of_buildWith hbuild
  have htypes : g.projectTypes dependencyKinds { settings with includeDerived := true }
      = g.projectTypes dependencyKinds { settings with includeDerived := false } :=
    h.projectTypes_includeDerived hvoids (by simp [dependencyKinds]) (by simp [dependencyKinds])
      settings
  -- of the settings, the projection onto packages reads the limit alone
  rw [findings_packageCycles, findings_packageCycles, htypes, g.projectPackages_eq,
    g.projectPackages_eq]
  exact ⟨rfl, rfl⟩

/-- The ledger has a result without value, and derived edges that come from its other method. -/
theorem trade_ignores_derived :
    trade.PlainVoids ∧ trade.signatureEdges ≠ [] ∧ ∃ g, trade.buildWith true = .ok g ∧
      (packageCycles { includeDerived := true }).findings g ⟨[]⟩
        = (packageCycles { includeDerived := false }).findings g ⟨[]⟩ := by
  have hvoids : trade.PlainVoids := by
    simp only [Model.PlainVoids, ← TypeRef.mem_names_iff]
    decide
  obtain ⟨g, hg⟩ := Error.exists_of_isOk ((trade.isOk_buildWith_iff true).2 (by decide))
  exact ⟨hvoids, by decide +kernel, g, hg, (packageCycles_ignore_derived hg hvoids {} ⟨[]⟩).2⟩

end Constraint

end RoleAudit
