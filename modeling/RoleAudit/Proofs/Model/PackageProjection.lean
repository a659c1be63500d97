import RoleAudit.Proofs.Model.TypeDependencies

/-!
# Packages by the types behind them

What the projection onto packages holds, said of the types that were projected: which packages there
are, which of them are joined, which dependencies between types stand behind that, and whether any of
these were left out. All this is true of every digraph whose nodes are types, and the projections onto
types are such digraphs.
-/

namespace RoleAudit

namespace Graph

variable {g : Graph}

theorem Indexed.packageOf?_of_mem_types (h : g.Indexed) {t : TypeNode} (ht : t ∈ g.types) :
    g.packageOf? t.id = some t.package := by
  rw [packageOf?, h.node?_of_mem_types ht]
  rfl

theorem Indexed.packageOf?_eq_some_iff (h : g.Indexed) {a : NodeId} (ha : ∃ t ∈ g.types, t.id = a)
    {p : String} : g.packageOf? a = some p ↔ ∃ t ∈ g.types, t.id = a ∧ t.package = p := by
  constructor
  · intro hp
    obtain ⟨t, ht, rfl⟩ := ha
    rw [h.packageOf?_of_mem_types ht] at hp
    exact ⟨t, ht, rfl, Option.some.inj hp⟩
  · rintro ⟨t, ht, rfl, rfl⟩
    exact h.packageOf?_of_mem_types ht

/-- The nodes of a well-formed digraph are types of the graph. -/
structure SpansTypes (g : Graph) (types : Digraph NodeId) : Prop where
  /-- The digraph is well formed. -/
  wellFormed : types.WellFormed
  /-- Every node is a type. -/
  exists_type : ∀ a ∈ types.nodes, ∃ t ∈ g.types, t.id = a

/-- The edges of a digraph that lead from the types of one package to those of another, in their
order. -/
def edgesBetween (g : Graph) (types : Digraph NodeId) (p q : String) : List (NodeId × NodeId) :=
  types.edges.filter fun (a, b) =>
    (g.types.any fun t => t.id = a && t.package = p) &&
      g.types.any fun u => u.id = b && u.package = q

section Spanned

variable {types : Digraph NodeId}

theorem SpansTypes.exists_types_of_leads (hspans : g.SpansTypes types) {a b : NodeId}
    (hl : types.Leads a b) : (∃ t ∈ g.types, t.id = a) ∧ ∃ u ∈ g.types, u.id = b := by
  obtain ⟨ha, hb⟩ := hspans.wellFormed.leads_mem hl
  exact ⟨hspans.exists_type a ha, hspans.exists_type b hb⟩

theorem SpansTypes.mem_edgesBetween (hspans : g.SpansTypes types) {p q : String} {a b : NodeId} :
    (a, b) ∈ g.edgesBetween types p q ↔ types.Leads a b ∧
      (∃ t ∈ g.types, t.id = a ∧ t.package = p) ∧ ∃ u ∈ g.types, u.id = b ∧ u.package = q := by
  rw [edgesBetween, List.mem_filter, hspans.wellFormed.mem_edges]
  simp

variable (settings : CycleSettings)

/-- The edges of packages bring no package that the nodes have not. -/
theorem Indexed.mem_nodes_projectPackages (h : g.Indexed) (hspans : g.SpansTypes types)
    {p : String} :
    p ∈ (g.projectPackages types settings).graph.nodes ↔
      ∃ t ∈ g.types, t.id ∈ types.nodes ∧ t.package = p := by
  have hnode : (∃ a ∈ types.nodes, g.packageOf? a = some p) ↔
      ∃ t ∈ g.types, t.id ∈ types.nodes ∧ t.package = p := by
    constructor
    · rintro ⟨a, ha, hp⟩
      obtain ⟨t, ht, rfl, hpackage⟩ := (h.packageOf?_eq_some_iff (hspans.exists_type a ha)).1 hp
      exact ⟨t, ht, ha, hpackage⟩
    · rintro ⟨t, ht, ha, rfl⟩
      exact ⟨t.id, ha, h.packageOf?_of_mem_types ht⟩
  rw [← hnode, graph_projectPackages, Digraph.mem_nodes_ofMentions]
  constructor
  · rintro ⟨mention, hmention, hname⟩
    rcases List.mem_append.1 hmention with hmention | hmention
    · obtain ⟨q, hq, rfl⟩ := List.mem_map.1 hmention
      obtain rfl := List.mem_singleton.1 hname
      exact List.mem_filterMap.1 hq
    · obtain ⟨⟨source, target⟩, hpackages, rfl⟩ := List.mem_map.1 hmention
      obtain ⟨⟨a, b⟩, hab, hpackages⟩ := List.mem_filterMap.1 hpackages
      obtain ⟨hsource, htarget, -⟩ := g.packageEdge?_eq_some.1 hpackages
      obtain ⟨ha, hb⟩ := hspans.wellFormed.leads_mem (hspans.wellFormed.mem_edges.1 hab)
      rcases List.mem_pair.1 hname with rfl | rfl
      · exact ⟨a, ha, hsource⟩
      · exact ⟨b, hb, htarget⟩
  · rintro ⟨a, ha, hp⟩
    have hin : p ∈ types.nodes.filterMap g.packageOf? := List.mem_filterMap.2 ⟨a, ha, hp⟩
    exact ⟨.node p, List.mem_append_left _ (List.mem_map_of_mem hin), List.mem_singleton_self p⟩

theorem Indexed.leads_projectPackages_iff (h : g.Indexed) (hspans : g.SpansTypes types)
    {p q : String} :
    (g.projectPackages types settings).graph.Leads p q ↔
      p ≠ q ∧ ∃ t ∈ g.types, ∃ u ∈ g.types,
        t.package = p ∧ u.package = q ∧ types.Leads t.id u.id := by
  rw [g.leads_projectPackages hspans.wellFormed]
  constructor
  · rintro ⟨a, b, hl, hp, hq, hne⟩
    obtain ⟨ha, hb⟩ := hspans.exists_types_of_leads hl
    obtain ⟨t, ht, rfl, rfl⟩ := (h.packageOf?_eq_some_iff ha).1 hp
    obtain ⟨u, hu, rfl, rfl⟩ := (h.packageOf?_eq_some_iff hb).1 hq
    exact ⟨hne, t, ht, u, hu, rfl, rfl, hl⟩
  · rintro ⟨hne, t, ht, u, hu, rfl, rfl, hl⟩
    exact ⟨t.id, u.id, hl, h.packageOf?_of_mem_types ht, h.packageOf?_of_mem_types hu, hne⟩

/-- The edges that the projection takes for those of two packages. -/
theorem Indexed.filter_packageEdge? (h : g.Indexed) (hspans : g.SpansTypes types) (p q : String) :
    types.edges.filter (g.packageEdge? · = some (p, q))
      = if p = q then [] else g.edgesBetween types p q := by
  split
  · rename_i heq
    refine List.filter_eq_nil_iff.2 fun edge _ hedge => ?_
    exact (g.packageEdge?_eq_some.1 (of_decide_eq_true hedge)).2.2 heq
  · rename_i hne
    refine List.filter_congr fun ⟨a, b⟩ hab => ?_
    obtain ⟨ha, hb⟩ := hspans.exists_types_of_leads (hspans.wellFormed.mem_edges.1 hab)
    rw [Bool.eq_iff_iff, decide_eq_true_eq, g.packageEdge?_eq_some, h.packageOf?_eq_some_iff ha,
      h.packageOf?_eq_some_iff hb, and_iff_left hne]
    simp

/-- Something was left out exactly if two different packages have more edges between their types than
may be kept. -/
theorem Indexed.truncated_projectPackages_iff (h : g.Indexed) (hspans : g.SpansTypes types) :
    (g.projectPackages types settings).truncated = true ↔
      ∃ p q, p ≠ q ∧ settings.maxDependenciesPerEdge < (g.edgesBetween types p q).length := by
  rw [g.truncated_projectPackages]
  refine exists_congr fun p => exists_congr fun q => ?_
  rw [h.filter_packageEdge? hspans]
  by_cases heq : p = q
  · simp [heq]
  · simp [heq]

end Spanned

end Graph

namespace Model

variable {m : Model} {derived : Bool} {g : Graph}

/-- What is declared is declared by a type. -/
theorem Builds.exists_type_of_owningType? (h : m.Builds derived g) {id owner : NodeId}
    (howner : g.owningType? id = some owner) : ∃ t ∈ g.types, t.id = owner := by
  obtain ⟨t, ht, -, rfl⟩ := h.owningType?_eq_some.1 howner
  exact ⟨t.toNode, h.mem_types ht, rfl⟩

/-- The projections of the graph of a model onto types join types of the graph. -/
theorem Builds.spansTypesWhere (h : m.Builds derived g) (kinds : List EdgeKind)
    (settings : CycleSettings) (keep : NodeId → Bool) :
    g.SpansTypes (g.projectTypesWhere kinds settings keep) where
  wellFormed := g.wellFormed_projectTypesWhere kinds settings keep
  exists_type a ha := by
    rw [g.projectTypesWhere_eq, Digraph.mem_nodes_ofMentions] at ha
    obtain ⟨mention, hmention, hname⟩ := ha
    rcases List.mem_append.1 hmention with hmention | hmention
    · obtain ⟨b, hb, rfl⟩ := List.mem_map.1 hmention
      obtain rfl := List.mem_singleton.1 hname
      exact List.mem_map.1 (List.mem_filter.1 hb).1
    · -- an edge has been lifted, so its ends declare what it led between
      obtain ⟨⟨source, target⟩, hedge, rfl⟩ := List.mem_map.1 hmention
      obtain ⟨e, -, hlift⟩ := List.mem_filterMap.1 (List.mem_filter.1 hedge).1
      obtain ⟨hsource, htarget, -⟩ := g.liftedEdge?_eq_some.1 hlift
      rcases List.mem_pair.1 hname with rfl | rfl
      · exact h.exists_type_of_owningType? hsource
      · exact h.exists_type_of_owningType? htarget

theorem Builds.spansTypes (h : m.Builds derived g) (kinds : List EdgeKind)
    (settings : CycleSettings) : g.SpansTypes (g.projectTypes kinds settings) :=
  h.spansTypesWhere kinds settings _

/-- The projection onto packages of any projection onto types. Its nodes are the packages of the
projected types, once each; two different packages are joined exactly if there is an edge between
their types; of these edges the first are kept, as many as the settings say; and something was left
out exactly if two packages have more of them. -/
theorem packages_of_projected_types (hbuild : m.buildWith derived = .ok g) (kinds : List EdgeKind)
    (typeSettings : CycleSettings) (keep : NodeId → Bool) (settings : CycleSettings) :
    let types := g.projectTypesWhere kinds typeSettings keep
    let packages := g.projectPackages types settings
    (packages.graph.nodes.Nodup ∧ ∀ p, p ∈ packages.graph.nodes ↔
      ∃ t ∈ g.types, t.id ∈ types.nodes ∧ t.package = p) ∧
    (∀ p q, packages.graph.hasEdge p q = true ↔
      p ≠ q ∧ ∃ t ∈ g.types, ∃ u ∈ g.types,
        t.package = p ∧ u.package = q ∧ types.hasEdge t.id u.id = true) ∧
    (∀ p q, packages.witnessesFor p q = if p = q then [] else
      ((g.edgesBetween types p q).take settings.maxDependenciesPerEdge).map fun (a, b) =>
        { source := a, target := b }) ∧
    (packages.truncated = true ↔
      ∃ p q, p ≠ q ∧ settings.maxDependenciesPerEdge < (g.edgesBetween types p q).length) := by
  intro types packages
  have hbuilds := builds_of_buildWith hbuild
  have h := hbuilds.indexed
  have hspans : g.SpansTypes types := hbuilds.spansTypesWhere kinds typeSettings keep
  have hpackages : packages.graph.WellFormed := g.wellFormed_projectPackages types settings
  refine ⟨⟨?_, fun p => h.mem_nodes_projectPackages settings hspans⟩, fun p q => ?_, fun p q => ?_,
    h.truncated_projectPackages_iff settings hspans⟩
  · exact hpackages.nodup
  · simp only [hpackages.hasEdge_iff, hspans.wellFormed.hasEdge_iff]
    exact h.leads_projectPackages_iff settings hspans
  · rw [g.witnessesFor_projectPackages, h.filter_packageEdge? hspans, ← List.map_take]
    split
    · rw [List.take_nil, List.map_nil]
    · rfl

/-- A desk hands over to a clerk of the back office. -/
def desk : SourceType where
  name := "front.Desk"
  form := .plainClass
  fields := [.privateFinal "clerk" (.plain "back.Clerk")]

/-- A hotline has more than one clerk. -/
def hotline : SourceType where
  name := "front.Hotline"
  form := .plainClass
  fields := [.privateFinal "clerks" ⟨"java.util.List", [.plain "back.Clerk"]⟩]

/-- A clerk of the back office. -/
def clerk : SourceType := { name := "back.Clerk", form := .plainClass }

/-- A front office with two ways to the back office. -/
def office : Model := { types := [desk, hotline, clerk] }

/-- Where one edge may be kept, one of the two from the front office to the back office is, and the
other one is left out. -/
theorem office_keeps_one_edge :
    ∃ g, office.buildWith true = .ok g ∧
      let kinds := [EdgeKind.extends, .implements, .fieldType, .returnType, .parameterType]
      let packages := g.projectPackages (g.projectTypes kinds {}) { maxDependenciesPerEdge := 1 }
      packages.graph.hasEdge "front" "back" = true ∧
        (packages.witnessesFor "front" "back").length = 1 ∧ packages.truncated = true := by
  obtain ⟨g, hg⟩ := Error.exists_of_isOk ((office.isOk_buildWith_iff true).2 (by decide))
  have h := builds_of_buildWith hg
  set kinds := [EdgeKind.extends, .implements, .fieldType, .returnType, .parameterType] with hlist
  have hkinds : ∀ kind, kind ∈ kinds ↔ kind ≠ .declares ∧ kind ≠ .usesInSignature := by
    intro kind
    cases kind <;> simp [hlist]
  obtain ⟨-, hedge, hkept, htruncated⟩ :=
    packages_of_projected_types hg kinds {} (fun _ => true) { maxDependenciesPerEdge := 1 }
  have hleads : ∀ t ∈ [desk, hotline], (g.projectTypes kinds {}).Leads t.id clerk.id := by
    intro t ht
    have hin : t ∈ office.types := List.mem_append_left [clerk] ht
    rw [Digraph.Leads, h.successors_projectTypes hkinds {} hin]
    rcases List.mem_pair.1 ht with rfl | rfl <;> decide +kernel
  have hfront : ∀ t ∈ [desk, hotline], ∃ n ∈ g.types, n.id = t.id ∧ n.package = "front" := by
    intro t ht
    refine ⟨t.toNode, h.mem_types (List.mem_append_left [clerk] ht), rfl, ?_⟩
    rcases List.mem_pair.1 ht with rfl | rfl <;> decide
  have hclerk : clerk.toNode ∈ g.types := h.mem_types (by simp [office])
  have hback : ∃ n ∈ g.types, n.id = clerk.id ∧ n.package = "back" :=
    ⟨clerk.toNode, hclerk, rfl, by decide⟩
  have hbetween : ([desk, hotline].map fun t => (t.id, clerk.id)) ⊆
      g.edgesBetween (g.projectTypes kinds {}) "front" "back" := by
    intro edge hin
    obtain ⟨t, ht, rfl⟩ := List.mem_map.1 hin
    exact (h.spansTypes kinds {}).mem_edgesBetween.2 ⟨hleads t ht, hfront t ht, hback⟩
  have htwo := (List.subperm_of_subset (by decide) hbetween).length_le
  refine ⟨g, hg, (hedge _ _).2 ⟨by decide, ?_⟩, ?_, htruncated.2 ⟨"front", "back", by decide, htwo⟩⟩
  · obtain ⟨n, hn, hid, hpackage⟩ := hfront desk (by simp)
    refine ⟨n, hn, clerk.toNode, hclerk, hpackage, by decide, ?_⟩
    rw [hid]
    exact (g.wellFormed_projectTypes kinds {}).hasEdge_iff.2 (hleads desk (by simp))
  · refine (congrArg List.length (hkept "front" "back")).trans ?_
    rw [if_neg (by decide), List.length_map, List.length_take]
    exact Nat.min_eq_left (Nat.le_of_succ_le htwo)

end Model

end RoleAudit
