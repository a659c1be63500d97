import RoleAudit.Projection
import RoleAudit.Proofs.Digraph.Reach

/-!
# Projections by their edges

Both projections are digraphs of mentions: first all nodes, then one edge after the other. So their
edges are exactly the lifted ones, in whatever order they come, and the successors of a type come in
the order of the edges behind them. For a pair of packages the first of the dependencies between
their types are kept.
-/

namespace RoleAudit

/-- What is added for one pair of packages is kept while there is room, and leaves all other pairs
alone. -/
theorem PackageGraph.witnessesFor_addDependency (packages : PackageGraph) (limit : Nat)
    (source target p q : String) (w : Witness) :
    (packages.addDependency limit source target w).witnessesFor p q
      = if (source, target) = (p, q) ∧ (packages.witnessesFor p q).length < limit
        then packages.witnessesFor p q ++ [w] else packages.witnessesFor p q := by
  by_cases heq : (source, target) = (p, q)
  · obtain ⟨rfl, rfl⟩ := Prod.mk.inj heq
    by_cases hroom : (packages.witnesses.getD (source, target) #[]).size < limit
    · simp [addDependency, witnessesFor, hroom]
    · simp [addDependency, witnessesFor, hroom]
  · have hne : compare (source, target) (p, q) ≠ .eq := fun h =>
      heq (Std.LawfulEqOrd.eq_of_compare h)
    rw [if_neg fun h => heq h.1]
    simp [addDependency, witnessesFor, Std.TreeMap.getD_insert, hne]

theorem PackageGraph.truncated_addDependency (packages : PackageGraph) (limit : Nat)
    (source target : String) (w : Witness) :
    (packages.addDependency limit source target w).truncated = true ↔
      packages.truncated = true ∨ limit ≤ (packages.witnessesFor source target).length := by
  simp [addDependency, witnessesFor]

/-- With one more item the beginning of a list grows while it is shorter than it may be. -/
theorem take_append_singleton {β : Type} (items : List β) (b : β) (limit : Nat) :
    (items ++ [b]).take limit
      = if (items.take limit).length < limit then items.take limit ++ [b]
        else items.take limit := by
  rw [List.length_take]
  by_cases hlen : items.length < limit
  · rw [if_pos (by omega), List.take_of_length_le (by simp; omega), List.take_of_length_le (by omega)]
  · rw [if_neg (by omega), List.take_append_of_le_length (by omega)]

namespace Graph

variable (g : Graph)

/-! ## Types -/

theorem projectTypesWhere_eq (kinds : List EdgeKind) (settings : CycleSettings)
    (keep : NodeId → Bool) :
    g.projectTypesWhere kinds settings keep = .ofMentions
      (((g.types.map (·.id)).filter keep).map .node
        ++ (((g.edges.toList.filter (countsFor kinds settings)).filterMap g.liftedEdge?).filter
            fun (source, target) => keep source && keep target).map
          fun (source, target) => .edge source target) := by
  rw [Digraph.ofMentions, List.foldl_append, List.foldl_map, List.foldl_map, projectTypesWhere]
  rfl

theorem wellFormed_projectTypesWhere (kinds : List EdgeKind) (settings : CycleSettings)
    (keep : NodeId → Bool) : (g.projectTypesWhere kinds settings keep).WellFormed := by
  rw [projectTypesWhere_eq]
  exact Digraph.wellFormed_ofMentions _

theorem projectTypes_eq (kinds : List EdgeKind) (settings : CycleSettings) :
    g.projectTypes kinds settings = .ofMentions
      ((g.types.map (·.id)).map .node
        ++ ((g.edges.toList.filter (countsFor kinds settings)).filterMap g.liftedEdge?).map
          fun (source, target) => .edge source target) := by
  rw [projectTypes, projectTypesWhere_eq, List.filter_true]
  simp only [Bool.and_self, List.filter_true]

theorem wellFormed_projectTypes (kinds : List EdgeKind) (settings : CycleSettings) :
    (g.projectTypes kinds settings).WellFormed :=
  g.wellFormed_projectTypesWhere kinds settings _

theorem liftedEdge?_eq_some {e : Edge} {a b : NodeId} :
    g.liftedEdge? e = some (a, b) ↔
      g.owningType? e.source = some a ∧ g.owningType? e.target = some b ∧ a ≠ b := by
  unfold liftedEdge?
  cases g.owningType? e.source with
  | none => simp
  | some source =>
    cases g.owningType? e.target with
    | none => simp
    | some target => by_cases heq : source = target <;> grind

/-- One type depends on another where an edge that counts is lifted to them. -/
theorem leads_projectTypes {kinds : List EdgeKind} {settings : CycleSettings} {a b : NodeId} :
    (g.projectTypes kinds settings).Leads a b ↔
      ∃ e ∈ g.edges.toList, countsFor kinds settings e = true ∧ g.liftedEdge? e = some (a, b) := by
  rw [projectTypes_eq, Digraph.leads_ofMentions]
  simp only [List.mem_append, List.mem_map, reduceCtorEq, and_false, exists_false, false_or,
    List.mem_filterMap, List.mem_filter]
  constructor
  · rintro ⟨⟨source, target⟩, ⟨e, ⟨he, hcounts⟩, hlift⟩, hedge⟩
    obtain ⟨rfl, rfl⟩ := Digraph.Mention.edge.inj hedge
    exact ⟨e, he, hcounts, hlift⟩
  · rintro ⟨e, he, hcounts, hlift⟩
    exact ⟨(a, b), ⟨e, ⟨he, hcounts⟩, hlift⟩, rfl⟩

/-- Whether an edge makes a type depend on another along some relations. -/
def bindsFrom (kinds : List EdgeKind) (settings : CycleSettings) (id : NodeId) (e : Edge) : Bool :=
  countsFor kinds settings e && (g.liftedEdge? e).any (·.1 = id)

theorem bindsFrom_iff {kinds : List EdgeKind} {settings : CycleSettings} {id : NodeId} {e : Edge} :
    g.bindsFrom kinds settings id e = true ↔
      countsFor kinds settings e = true ∧ ∃ b, g.liftedEdge? e = some (id, b) := by
  rw [bindsFrom, Bool.and_eq_true]
  refine and_congr_right fun _ => ?_
  cases g.liftedEdge? e with
  | none => simp
  | some edge =>
    obtain ⟨a, b⟩ := edge
    simp

/-- The types that a type depends on come in the order of the edges that bind it to them. -/
theorem successors_projectTypes (kinds : List EdgeKind) (settings : CycleSettings) (id : NodeId) :
    (g.projectTypes kinds settings).successors id = distinct
      (((g.edges.toList.filter (g.bindsFrom kinds settings id)).filterMap g.liftedEdge?).map
        Prod.snd) := by
  have hnodes : ((g.types.map (·.id)).map Digraph.Mention.node).filterMap
      (Digraph.Mention.targetFrom? id) = [] := by
    refine List.filterMap_eq_nil_iff.2 fun mention hmention => ?_
    obtain ⟨a, -, rfl⟩ := List.mem_map.1 hmention
    rfl
  rw [projectTypes_eq, Digraph.successors_ofMentions, List.filterMap_append, hnodes, List.nil_append]
  -- both sides go over the edges once, so they are compared edge by edge
  rw [List.filterMap_map, List.filterMap_filterMap, List.filterMap_filter, List.map_filterMap,
    List.filterMap_filter]
  refine congrArg distinct (List.filterMap_congr fun e _ => ?_)
  cases hlift : g.liftedEdge? e with
  | none => simp
  | some edge =>
    obtain ⟨a, b⟩ := edge
    by_cases hcounts : countsFor kinds settings e = true <;> by_cases ha : a = id <;>
      simp [bindsFrom, Digraph.Mention.targetFrom?, hlift, hcounts, ha]

/-! ## Packages -/

/-- The packages between which a dependency of types leads, when they differ. -/
def packageEdge? (edge : NodeId × NodeId) : Option (String × String) :=
  match g.packageOf? edge.1, g.packageOf? edge.2 with
  | some source, some target => if source = target then none else some (source, target)
  | _, _ => none

theorem packageEdge?_eq_some {edge : NodeId × NodeId} {p q : String} :
    g.packageEdge? edge = some (p, q) ↔
      g.packageOf? edge.1 = some p ∧ g.packageOf? edge.2 = some q ∧ p ≠ q := by
  unfold packageEdge?
  cases g.packageOf? edge.1 with
  | none => simp
  | some source =>
    cases g.packageOf? edge.2 with
    | none => simp
    | some target => by_cases heq : source = target <;> grind

/-- A dependency of types adds one of their packages, where these differ. -/
def addLifted (limit : Nat) (packages : PackageGraph) (edge : NodeId × NodeId) : PackageGraph :=
  match g.packageEdge? edge with
  | some (source, target) =>
    packages.addDependency limit source target { source := edge.1, target := edge.2 }
  | none => packages

theorem projectPackages_eq (types : Digraph NodeId) (settings : CycleSettings) :
    g.projectPackages types settings
      = types.edges.foldl (g.addLifted settings.maxDependenciesPerEdge)
        { graph := (types.nodes.filterMap g.packageOf?).foldl Digraph.addNode .empty } := by
  refine List.foldl_ext _ _ _ fun packages edge _ => ?_
  obtain ⟨source, target⟩ := edge
  simp only [addLifted, packageEdge?]
  cases g.packageOf? source with
  | none => rfl
  | some sourcePackage =>
    cases g.packageOf? target with
    | none => rfl
    | some targetPackage =>
      by_cases heq : sourcePackage = targetPackage
      · simp [heq]
      · simp [heq]

theorem graph_projectPackages (types : Digraph NodeId) (settings : CycleSettings) :
    (g.projectPackages types settings).graph = .ofMentions
      ((types.nodes.filterMap g.packageOf?).map .node
        ++ (types.edges.filterMap g.packageEdge?).map fun (source, target) =>
          .edge source target) := by
  rw [Digraph.ofMentions, List.foldl_append, List.foldl_map, List.foldl_map, projectPackages_eq]
  show PackageGraph.graph _ = List.foldl _ (PackageGraph.graph
    { graph := (types.nodes.filterMap g.packageOf?).foldl Digraph.addNode .empty }) _
  generalize ({ graph := (types.nodes.filterMap g.packageOf?).foldl Digraph.addNode .empty } :
    PackageGraph) = start
  -- the graph of packages grows by one edge where the packages differ, and the rest stays apart
  induction types.edges generalizing start with
  | nil => rfl
  | cons edge rest ih =>
    rw [List.foldl_cons, ih, List.filterMap_cons, addLifted]
    cases g.packageEdge? edge with
    | none => rfl
    | some packages => rfl

theorem wellFormed_projectPackages (types : Digraph NodeId) (settings : CycleSettings) :
    (g.projectPackages types settings).graph.WellFormed := by
  rw [graph_projectPackages]
  exact Digraph.wellFormed_ofMentions _

/-- One package depends on another where one of its types depends on one of the other. -/
theorem leads_projectPackages {types : Digraph NodeId} (htypes : types.WellFormed)
    {settings : CycleSettings} {p q : String} :
    (g.projectPackages types settings).graph.Leads p q ↔
      ∃ a b, types.Leads a b ∧ g.packageOf? a = some p ∧ g.packageOf? b = some q ∧ p ≠ q := by
  rw [graph_projectPackages, Digraph.leads_ofMentions]
  simp only [List.mem_append, List.mem_map, reduceCtorEq, and_false, exists_false, false_or,
    List.mem_filterMap]
  constructor
  · rintro ⟨⟨source, target⟩, ⟨⟨a, b⟩, hab, hpackages⟩, hedge⟩
    obtain ⟨rfl, rfl⟩ := Digraph.Mention.edge.inj hedge
    exact ⟨a, b, htypes.mem_edges.1 hab, g.packageEdge?_eq_some.1 hpackages⟩
  · rintro ⟨a, b, hab, hpackages⟩
    exact ⟨(p, q), ⟨(a, b), htypes.mem_edges.2 hab, g.packageEdge?_eq_some.2 hpackages⟩, rfl⟩

theorem witnessesFor_foldl_addLifted (limit : Nat) (packages : Digraph String)
    (edges : List (NodeId × NodeId)) (p q : String) :
    (edges.foldl (g.addLifted limit) { graph := packages }).witnessesFor p q
      = ((edges.filter (g.packageEdge? · = some (p, q))).map fun edge =>
          { source := edge.1, target := edge.2 }).take limit := by
  induction edges using List.reverseRecOn with
  | nil => simp [PackageGraph.witnessesFor, Std.TreeMap.getD_emptyc]
  | append_singleton edges edge ih =>
    rw [List.foldl_append, List.foldl_cons, List.foldl_nil, List.filter_append, List.map_append,
      addLifted]
    cases hedge : g.packageEdge? edge with
    | none =>
      rw [ih, List.filter_singleton, hedge]
      simp
    | some packages =>
      show PackageGraph.witnessesFor (PackageGraph.addDependency _ _ packages.1 packages.2 _) p q = _
      rw [PackageGraph.witnessesFor_addDependency, ih, List.filter_singleton, hedge]
      by_cases heq : packages = (p, q)
      · simp [heq, take_append_singleton]
      · simp [heq]

/-- The dependencies of types behind one between packages are kept in their order, up to the
limit. -/
theorem witnessesFor_projectPackages (types : Digraph NodeId) (settings : CycleSettings)
    (p q : String) :
    (g.projectPackages types settings).witnessesFor p q
      = ((types.edges.filter (g.packageEdge? · = some (p, q))).map fun edge =>
          { source := edge.1, target := edge.2 }).take settings.maxDependenciesPerEdge := by
  rw [projectPackages_eq, witnessesFor_foldl_addLifted]

/-- The note that something was left out is made at the first dependency above the limit. -/
theorem truncated_projectPackages (types : Digraph NodeId) (settings : CycleSettings) :
    (g.projectPackages types settings).truncated = true ↔ ∃ p q, settings.maxDependenciesPerEdge
      < (types.edges.filter (g.packageEdge? · = some (p, q))).length := by
  rw [projectPackages_eq]
  simp only [← List.countP_eq_length_filter]
  induction types.edges using List.reverseRecOn with
  | nil => simp
  | append_singleton edges edge ih =>
    rw [List.foldl_append, List.foldl_cons, List.foldl_nil, addLifted]
    simp only [List.countP_append, List.countP_singleton]
    cases hedge : g.packageEdge? edge with
    | none => simpa using ih
    | some packages =>
      obtain ⟨source, target⟩ := packages
      show (PackageGraph.addDependency _ _ source target _).truncated = true ↔ _
      -- the pair of the new edge is above the limit if it was at the limit, all others as before
      rw [PackageGraph.truncated_addDependency, ih, witnessesFor_foldl_addLifted, List.length_take,
        List.length_map, ← List.countP_eq_length_filter]
      constructor
      · rintro (⟨p, q, hmore⟩ | hfull)
        · exact ⟨p, q, by omega⟩
        · exact ⟨source, target, by simp; omega⟩
      · rintro ⟨p, q, hmore⟩
        by_cases hpair : (source, target) = (p, q)
        · obtain ⟨rfl, rfl⟩ := Prod.mk.inj hpair
          exact .inr (by simp at hmore; omega)
        · exact .inl ⟨p, q, by simpa [hpair] using hmore⟩

/-- If any may be kept, one of the dependencies of types behind one between packages is. -/
theorem exists_mem_witnessesFor {types : Digraph NodeId} (htypes : types.WellFormed)
    {settings : CycleSettings} (hlimit : 1 ≤ settings.maxDependenciesPerEdge) {p q : String}
    (hl : (g.projectPackages types settings).graph.Leads p q) :
    ∃ w, w ∈ (g.projectPackages types settings).witnessesFor p q := by
  obtain ⟨a, b, hab, hpackages⟩ := (g.leads_projectPackages htypes).1 hl
  have hedge : (a, b) ∈ types.edges.filter (g.packageEdge? · = some (p, q)) :=
    List.mem_filter.2 ⟨htypes.mem_edges.2 hab, decide_eq_true (g.packageEdge?_eq_some.2 hpackages)⟩
  rw [g.witnessesFor_projectPackages]
  refine List.exists_mem_of_ne_nil _ fun hnil => ?_
  rcases List.take_eq_nil_iff.1 hnil with hzero | hnil
  · omega
  · rw [List.map_eq_nil_iff] at hnil
    exact absurd hedge (hnil ▸ List.not_mem_nil)

end Graph

end RoleAudit
