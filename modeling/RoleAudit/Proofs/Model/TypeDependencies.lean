import RoleAudit.Proofs.Model.SignatureUses
import RoleAudit.Proofs.Projection

/-!
# Dependencies of types in the graph of a model

The types that a type depends on can be had in two ways. One asks the look-ups for the hierarchy
and the members of the type, the other lifts all edges of the graph to the types that declare their
ends. In the graph of a model both give the targets of `SourceType.dependencyEdges`, each once and
in order.

Derived edges are lifted like all others. Unless a result without value mentions types, each of them
joins two types that a raw edge joins already, and then they leave no trace in the projection.
-/

namespace RoleAudit

namespace SourceType

variable (known : String → Bool) (t : SourceType)

/-- The edges that make a type depend on others: those of its hierarchy, then those of its
members. -/
def dependencyEdges : List Edge :=
  t.hierarchyEdges known ++ t.memberNodes.flatMap (·.uses known)

variable {known t}

/-- Of what a declaration states, all but the declaring of members makes the type depend on
others. -/
theorem filter_bodyEdges (known : String → Bool) (t : SourceType) :
    (t.bodyEdges known).filter (·.kind ≠ .declares) = t.dependencyEdges known := by
  have hhierarchy : (t.hierarchyEdges known).filter (·.kind ≠ .declares)
      = t.hierarchyEdges known := by
    refine List.filter_eq_self.2 fun e he => ?_
    rcases (of_mem_hierarchyEdges he).2.2 with hkind | hkind <;> simp [hkind]
  have hmember : ∀ n : Node, (Edge.raw t.id n.id .declares :: n.uses known).filter
      (·.kind ≠ .declares) = n.uses known := by
    intro n
    rw [List.filter_cons_of_neg (by simp [Edge.raw])]
    exact List.filter_eq_self.2 fun e he => decide_eq_true (Node.kind_of_mem_uses he)
  rw [bodyEdges, List.filter_append, hhierarchy, List.filter_flatMap, funext hmember,
    dependencyEdges]

/-- What a type depends on is a known type. -/
theorem of_mem_dependencyEdges {e : Edge} (h : e ∈ t.dependencyEdges known) :
    e.source ∈ t.nodeIds ∧ ∃ name, known name = true ∧ e.target = .ofType name := by
  rcases List.mem_append.1 h with h | h
  · obtain ⟨hsource, htarget, -⟩ := of_mem_hierarchyEdges h
    exact ⟨hsource ▸ List.mem_cons_self, htarget⟩
  · obtain ⟨n, hn, he⟩ := List.mem_flatMap.1 h
    obtain ⟨hsource, htarget, -⟩ := Node.of_mem_uses he
    exact ⟨hsource ▸ List.mem_cons_of_mem _ (List.mem_map_of_mem hn), htarget⟩

/-- The superclass comes before the interfaces. -/
theorem hierarchyEdges_eq (known : String → Bool) (t : SourceType) :
    t.hierarchyEdges known = (t.hierarchyEdges known).filter (·.kind = .extends)
      ++ (t.hierarchyEdges known).filter (·.kind = .implements) := by
  have hkeep : ∀ (refs : List TypeRef) (kind : EdgeKind),
      (refs.map fun r => Edge.raw t.id (.ofType r.name) kind).filter (·.kind = kind)
        = refs.map fun r => Edge.raw t.id (.ofType r.name) kind := by
    intro refs kind
    refine List.filter_eq_self.2 fun e he => ?_
    obtain ⟨r, -, rfl⟩ := List.mem_map.1 he
    exact decide_eq_true rfl
  have hdrop : ∀ (refs : List TypeRef) (kind other : EdgeKind), other ≠ kind →
      (refs.map fun r => Edge.raw t.id (.ofType r.name) other).filter (·.kind = kind) = [] := by
    intro refs kind other hne
    refine List.filter_eq_nil_iff.2 fun e he hkind => hne ?_
    obtain ⟨r, -, rfl⟩ := List.mem_map.1 he
    exact of_decide_eq_true hkind
  rw [hierarchyEdges, List.filter_append, List.filter_append, hkeep, hkeep, hdrop _ _ _ (by simp),
    hdrop _ _ _ (by simp), List.append_nil, List.nil_append]

end SourceType

namespace Model

section Built

variable {m : Model} {derived : Bool} {g : Graph} (h : m.Builds derived g)

include h

/-- The type behind an id is the one with the declaration that the id is from. -/
theorem Builds.owningType?_eq_some {id owner : NodeId} :
    g.owningType? id = some owner ↔ ∃ t ∈ m.types, id ∈ t.nodeIds ∧ t.id = owner := by
  rw [Graph.owningType?, Option.map_eq_some_iff]
  constructor
  · rintro ⟨n, hn, rfl⟩
    obtain ⟨hin, rfl⟩ := h.indexed.node?_eq_some.1 hn
    rcases List.mem_append.1 (h.mem_nodes.1 hin) with hin | hin
    · obtain ⟨t, ht, rfl⟩ := List.mem_map.1 hin
      exact ⟨t, ht, List.mem_cons_self, rfl⟩
    · obtain ⟨t, ht, hmember⟩ := List.mem_flatMap.1 hin
      refine ⟨t, ht, List.mem_cons_of_mem _ (List.mem_map_of_mem hmember), ?_⟩
      rw [SourceType.owner?_of_mem_memberNodes hmember]
      rfl
  · rintro ⟨t, ht, hid, rfl⟩
    rcases List.mem_cons.1 hid with rfl | hid
    · have hin : Node.type t.toNode ∈ m.nodes := List.mem_append_left _ (List.mem_map_of_mem ht)
      exact ⟨.type t.toNode, h.indexed.node?_eq_some.2 ⟨h.mem_nodes.2 hin, rfl⟩, rfl⟩
    · obtain ⟨n, hn, rfl⟩ := List.mem_map.1 hid
      have hin : n ∈ m.nodes := List.mem_append_right _ (List.mem_flatMap.2 ⟨t, ht, hn⟩)
      refine ⟨n, h.indexed.node?_eq_some.2 ⟨h.mem_nodes.2 hin, rfl⟩, ?_⟩
      rw [SourceType.owner?_of_mem_memberNodes hn]
      rfl

/-- An edge from a declaration to a type leads from the declaring type to that type. -/
theorem Builds.liftedEdge?_eq {t : SourceType} (ht : t ∈ m.types) {e : Edge}
    (hsource : e.source ∈ t.nodeIds) {name : String} (hname : m.declares name = true)
    (htarget : e.target = .ofType name) :
    g.liftedEdge? e = if e.target = t.id then none else some (t.id, e.target) := by
  obtain ⟨u, hu, rfl⟩ := m.declares_iff.1 hname
  have hfrom : g.owningType? e.source = some t.id :=
    h.owningType?_eq_some.2 ⟨t, ht, hsource, rfl⟩
  have hto : g.owningType? e.target = some e.target := by
    rw [htarget]
    exact h.owningType?_eq_some.2 ⟨u, hu, List.mem_cons_self, rfl⟩
  simp only [Graph.liftedEdge?, hfrom, hto, eq_comm]

theorem Builds.liftedEdge?_of_mem_dependencyEdges {t : SourceType} (ht : t ∈ m.types) {e : Edge}
    (he : e ∈ t.dependencyEdges m.declares) :
    g.liftedEdge? e = if e.target = t.id then none else some (t.id, e.target) := by
  obtain ⟨hsource, name, hname, htarget⟩ := SourceType.of_mem_dependencyEdges he
  exact h.liftedEdge?_eq ht hsource hname htarget

/-! ## By lifting edges -/

section Successors

variable {kinds : List EdgeKind}
  (hkinds : ∀ kind, kind ∈ kinds ↔ kind ≠ .declares ∧ kind ≠ .usesInSignature)
  (settings : CycleSettings) {t : SourceType} (ht : t ∈ m.types)

include hkinds ht

/-- What binds a type leaves it or one of its members and is not derived. -/
theorem Builds.of_bindsFrom {e : Edge} (he : g.bindsFrom kinds settings t.id e = true) :
    e.source ∈ t.nodeIds ∧ e.kind ≠ .usesInSignature := by
  obtain ⟨hcounts, other, hlift⟩ := g.bindsFrom_iff.1 he
  obtain ⟨hfrom, -, -⟩ := g.liftedEdge?_eq_some.1 hlift
  obtain ⟨u, hu, hsource, hid⟩ := h.owningType?_eq_some.1 hfrom
  have hut : u = t := h.eq_of_mem_nodeIds hu ht t.id (hid ▸ List.mem_cons_self) List.mem_cons_self
  rw [Graph.countsFor, Bool.and_eq_true, List.contains_iff_mem, hkinds] at hcounts
  exact ⟨hut ▸ hsource, hcounts.1.2⟩

/-- Of what a type states, all binds it but the declaring of members and what leads back to it. -/
theorem Builds.filter_bindsFrom :
    (t.bodyEdges m.declares).filter (g.bindsFrom kinds settings t.id)
      = (t.dependencyEdges m.declares).filter (·.target ≠ t.id) := by
  rw [← SourceType.filter_bodyEdges, List.filter_filter]
  refine List.filter_congr fun e he => ?_
  have hbody : e ∈ m.types.flatMap (·.bodyEdges m.declares) := List.mem_flatMap.2 ⟨t, ht, he⟩
  by_cases hkind : e.kind = .declares
  · have hnot : EdgeKind.declares ∉ kinds := fun hin => ((hkinds _).1 hin).1 rfl
    simp [Graph.bindsFrom, Graph.countsFor, hnot, hkind]
  · have hraw : e.isDerived = false := by simp [Edge.isDerived, provenance_of_mem_bodyEdges hbody]
    have hin : e.kind ∈ kinds := (hkinds _).2 ⟨hkind, kind_of_mem_bodyEdges hbody⟩
    have hdep : e ∈ t.dependencyEdges m.declares := by
      rw [← SourceType.filter_bodyEdges]
      exact List.mem_filter.2 ⟨he, decide_eq_true hkind⟩
    rw [Graph.bindsFrom, h.liftedEdge?_of_mem_dependencyEdges ht hdep]
    by_cases htarget : e.target = t.id <;> simp [Graph.countsFor, hraw, hin, hkind, htarget]

/-- The projection gives the targets of the dependency edges, each once and without the type
itself. -/
theorem Builds.successors_projectTypes :
    (g.projectTypes kinds settings).successors t.id
      = distinctFrom [t.id] ((t.dependencyEdges m.declares).map (·.target)) := by
  have hsome : ∀ e ∈ (t.dependencyEdges m.declares).filter (·.target ≠ t.id),
      g.liftedEdge? e = some (t.id, e.target) := by
    intro e he
    obtain ⟨hdep, hne⟩ := List.mem_filter.1 he
    rw [h.liftedEdge?_of_mem_dependencyEdges ht hdep, if_neg (of_decide_eq_true hne)]
  have htargets : (((t.dependencyEdges m.declares).filter (·.target ≠ t.id)).filterMap
      g.liftedEdge?).map Prod.snd
        = ((t.dependencyEdges m.declares).map (·.target)).filter (· ∉ [t.id]) := by
    rw [List.filterMap_congr hsome, List.filterMap_eq_map', List.map_map, List.filter_map]
    simp [Function.comp_def]
  rw [g.successors_projectTypes,
    h.filter_edges_eq ht fun e he => h.of_bindsFrom hkinds settings ht he,
    h.filter_bindsFrom hkinds settings ht, htargets, distinct_filter, distinctFrom_eq_filter]

end Successors

/-! ## By look-ups -/

/-- Of a relation of the hierarchy, the edges that leave a type are those of its declaration. -/
theorem Builds.targetsOf_hierarchy {t : SourceType} (ht : t ∈ m.types) {kind : EdgeKind}
    (hkind : kind = .extends ∨ kind = .implements) :
    g.targetsOf kind t.id
      = ((t.hierarchyEdges m.declares).filter (·.kind = kind)).map (·.target) := by
  have hown : ∀ e : Edge, decide (e.kind = kind ∧ e.source = t.id) = true →
      e.source ∈ t.nodeIds ∧ e.kind ≠ .usesInSignature := by
    intro e he
    obtain ⟨hk, hsource⟩ := of_decide_eq_true he
    rw [hk, hsource]
    refine ⟨List.mem_cons_self, ?_⟩
    rcases hkind with rfl | rfl <;> simp
  have hhierarchy : (t.hierarchyEdges m.declares).filter (fun e => e.kind = kind ∧ e.source = t.id)
      = (t.hierarchyEdges m.declares).filter (·.kind = kind) := by
    refine List.filter_congr fun e he => ?_
    simp [(SourceType.of_mem_hierarchyEdges he).1]
  have hmembers : (t.members.flatMap (·.memberEdges m.declares)).filter
      (fun e => e.kind = kind ∧ e.source = t.id) = [] := by
    refine List.filter_eq_nil_iff.2 fun e he hk => ?_
    obtain ⟨d, -, hd⟩ := List.mem_flatMap.1 he
    rcases Declaration.kind_of_mem_memberEdges hd with hof | hof <;>
      rw [(of_decide_eq_true hk).1] at hof <;> rcases hkind with rfl | rfl <;>
      simp [EdgeKind.isTypeUsage] at hof
  rw [Graph.targetsOf, h.filter_edges_eq ht hown, SourceType.bodyEdges_eq, List.filter_append,
    hhierarchy, hmembers, List.append_nil]

/-- The edges that leave a member to the types that it mentions are those of its declaration. -/
theorem Builds.edgesFrom_member {t : SourceType} (ht : t ∈ m.types) {n : Node}
    (hn : n ∈ t.memberNodes) :
    (g.edgesFrom n.id).filter (·.kind.isTypeUsage) = n.uses m.declares := by
  have hown : ∀ e : Edge, (e.kind.isTypeUsage && decide (e.source = n.id)) = true →
      e.source ∈ t.nodeIds ∧ e.kind ≠ .usesInSignature := by
    intro e he
    obtain ⟨husage, hsource⟩ := Bool.and_eq_true_iff.1 he
    rw [of_decide_eq_true hsource]
    refine ⟨List.mem_cons_of_mem _ (List.mem_map_of_mem hn), fun hk => ?_⟩
    rw [hk] at husage
    exact absurd husage (by simp [EdgeKind.isTypeUsage])
  have hhierarchy : (t.hierarchyEdges m.declares).filter
      (fun e => e.kind.isTypeUsage && decide (e.source = n.id)) = [] := by
    refine List.filter_eq_nil_iff.2 fun e he husage => ?_
    rcases (SourceType.of_mem_hierarchyEdges he).2.2 with hk | hk <;>
      simp [hk, EdgeKind.isTypeUsage] at husage
  have hmember : ∀ n' : Node, (Edge.raw t.id n'.id .declares :: n'.uses m.declares).filter
      (fun e => e.kind.isTypeUsage && decide (e.source = n.id))
        = if n'.id = n.id then n'.uses m.declares else [] := by
    intro n'
    rw [List.filter_cons_of_neg (by simp [Edge.raw, EdgeKind.isTypeUsage])]
    by_cases heq : n'.id = n.id
    · rw [if_pos heq]
      refine List.filter_eq_self.2 fun e he => ?_
      obtain ⟨hsource, -, husage⟩ := Node.of_mem_uses he
      simp [husage, hsource, heq]
    · rw [if_neg heq]
      refine List.filter_eq_nil_iff.2 fun e he hof => heq ?_
      rw [← (Node.of_mem_uses he).1]
      exact of_decide_eq_true (Bool.and_eq_true_iff.1 hof).2
  have hother : ∀ n' ∈ t.memberNodes, n' ≠ n →
      (if n'.id = n.id then n'.uses m.declares else []) = [] := by
    intro n' hn' hne
    exact if_neg fun hid => hne (List.inj_on_of_nodup_map (h.memberIds_nodup ht) hn' hn hid)
  rw [h.indexed.outgoing, List.filter_filter, h.filter_edges_eq ht hown, SourceType.bodyEdges,
    List.filter_append, hhierarchy, List.nil_append, List.filter_flatMap, funext hmember,
    flatMap_eq_of_forall_ne (List.Nodup.of_map _ (h.memberIds_nodup ht)) hn hother, if_pos rfl]

/-- The look-ups give the targets of the dependency edges, each once and without the type itself. -/
theorem Builds.dependenciesOf_eq {t : SourceType} (ht : t ∈ m.types) :
    g.dependenciesOf t.id
      = distinctFrom [t.id] ((t.dependencyEdges m.declares).map (·.target)) := by
  have hmembers : (g.indexes.declaredMembers.get t.id).flatMap (fun member =>
      ((g.edgesFrom member).filter (·.kind.isTypeUsage)).map (·.target))
        = (t.memberNodes.flatMap (·.uses m.declares)).map (·.target) := by
    rw [h.indexed.declaredMembers, h.targetsOf_declares ht, distinct_eq_self (h.memberIds_nodup ht),
      List.flatMap_map, List.map_flatMap]
    refine List.flatMap_congr fun n hn => ?_
    rw [h.edgesFrom_member ht hn]
  show distinctFrom [t.id] (g.indexes.supertypes.get t.id
    ++ g.indexes.implementedInterfaces.get t.id ++ _) = _
  rw [hmembers, h.indexed.supertypes, h.indexed.implementedInterfaces,
    h.targetsOf_hierarchy ht (.inl rfl), h.targetsOf_hierarchy ht (.inr rfl)]
  -- superclasses and interfaces lose their repeats early, which makes no difference in the end
  rw [List.append_assoc, distinctFrom_distinct_append, distinctFrom_append,
    distinctFrom_distinct_append, ← distinctFrom_append, ← List.append_assoc, ← List.map_append,
    ← t.hierarchyEdges_eq m.declares, ← List.map_append, SourceType.dependencyEdges]

end Built

/-- In the graph of a model the types that a type depends on by the look-ups are, in the same order,
those that it depends on in the projection onto types along all relations that the source states
between types, however cycles are searched. -/
theorem dependencies_are_projected_successors {m : Model} {derived : Bool} {g : Graph}
    (hbuild : m.buildWith derived = .ok g) (settings : CycleSettings) :
    ∀ t ∈ g.types, g.dependenciesOf t.id
      = (g.projectTypes [.extends, .implements, .fieldType, .returnType, .parameterType]
          settings).successors t.id := by
  have h := builds_of_buildWith hbuild
  have hkinds : ∀ kind : EdgeKind,
      kind ∈ [EdgeKind.extends, .implements, .fieldType, .returnType, .parameterType] ↔
        kind ≠ .declares ∧ kind ≠ .usesInSignature := by
    intro kind
    cases kind <;> simp
  intro n hn
  rw [h.types_eq] at hn
  obtain ⟨t, ht, rfl⟩ := List.mem_map.1 hn
  show g.dependenciesOf t.id = _
  rw [h.dependenciesOf_eq ht]
  exact (h.successors_projectTypes hkinds settings ht).symm

/-- A ship depends on vessels twice and on what is tracked twice; both ways give either once, with
the superclass first. -/
theorem fleet_dependencies :
    ∃ g, fleet.buildWith true = .ok g ∧ g.dependenciesOf ship.id = [vessel.id, tracked.id] ∧
      (g.projectTypes [.extends, .implements, .fieldType, .returnType, .parameterType]
        {}).successors ship.id = [vessel.id, tracked.id] := by
  obtain ⟨g, hg⟩ := Error.exists_of_isOk ((fleet.isOk_buildWith_iff true).2 (by decide))
  have h := builds_of_buildWith hg
  have hship : ship ∈ fleet.types := by simp [fleet]
  have hlookups : g.dependenciesOf ship.id = [vessel.id, tracked.id] := by
    rw [h.dependenciesOf_eq hship]
    decide +kernel
  have hboth := dependencies_are_projected_successors hg {} ship.toNode (h.mem_types hship)
  exact ⟨g, hg, hlookups, hboth.symm.trans hlookups⟩

/-! ## Derived edges -/

/-- No result without value mentions a type of the model. -/
def PlainVoids (m : Model) : Prop :=
  ∀ t ∈ m.types, ∀ k ∈ t.methods, k.returnType.name = "void" →
    ∀ u ∈ m.types, ¬ k.returnType.Mentions u.name

section Built

variable {m : Model} {derived : Bool} {g : Graph} (h : m.Builds derived g)

include h

/-- Where a signature mentions a type, an edge from the method to that type is stated, and both
edges are lifted to the same types. -/
theorem Builds.exists_stated_of_mem_signatureEdges (hvoids : m.PlainVoids) {e : Edge}
    (he : e ∈ m.signatureEdges) :
    ∃ e' ∈ m.types.flatMap (·.bodyEdges m.declares),
      (e'.kind = .returnType ∨ e'.kind = .parameterType) ∧ g.liftedEdge? e' = g.liftedEdge? e := by
  obtain ⟨_, _, proof, ⟨t, ht, k, hk, u, hu, -, -, hmentions, rfl, rfl, -⟩, rfl⟩ :=
    mem_signatureEdges_iff.1 he
  have hmember : (Declaration.method t k).id ∈ t.nodeIds := by
    refine List.mem_cons_of_mem _ (List.mem_map.2 ⟨.method (t.methodNode k), ?_, rfl⟩)
    exact List.mem_append_left _ (List.mem_append_right _ (List.mem_map_of_mem hk))
  have hlift : ∀ kind : EdgeKind, g.liftedEdge? (.raw (Declaration.method t k).id u.id kind)
      = g.liftedEdge? (.signatureUse t.id u.id proof) := by
    intro kind
    have hto : m.declares u.name = true := declares_of_mem hu
    rw [h.liftedEdge?_eq ht (e := .raw (Declaration.method t k).id u.id kind) hmember hto rfl,
      h.liftedEdge?_eq ht (e := .signatureUse t.id u.id proof) List.mem_cons_self hto rfl]
    rfl
  obtain ⟨method, position⟩ := proof
  cases position with
  | «return» =>
    have hvalue : k.returnType.name ≠ "void" := fun hvoid => hvoids t ht k hk hvoid u hu hmentions
    exact ⟨_, m.mem_bodyEdges_iff.2 ⟨_, _, _, .returnType ht hu hk hvalue hmentions, rfl⟩, .inl rfl,
      hlift .returnType⟩
  | parameter i =>
    obtain ⟨p, hp, hmentions⟩ := hmentions
    have hstates := States.methodParameter ht hu hk (List.mem_of_getElem? hp) hmentions
    exact ⟨_, m.mem_bodyEdges_iff.2 ⟨_, _, _, hstates, rfl⟩, .inr rfl, hlift .parameterType⟩

/-- Where results and parameters count anyway, it makes no difference whether derived edges do. -/
theorem Builds.projectTypes_includeDerived (hvoids : m.PlainVoids) {kinds : List EdgeKind}
    (hreturn : .returnType ∈ kinds) (hparameter : .parameterType ∈ kinds)
    (settings : CycleSettings) :
    g.projectTypes kinds { settings with includeDerived := true }
      = g.projectTypes kinds { settings with includeDerived := false } := by
  have hbody : ∀ includeDerived, (m.types.flatMap (·.bodyEdges m.declares)).filter
      (Graph.countsFor kinds { settings with includeDerived })
        = (m.types.flatMap (·.bodyEdges m.declares)).filter (kinds.contains ·.kind) := by
    intro includeDerived
    refine List.filter_congr fun e he => ?_
    simp [Graph.countsFor, Edge.isDerived, provenance_of_mem_bodyEdges he]
  have hderived : (if derived then m.signatureEdges else []).filter
      (Graph.countsFor kinds { settings with includeDerived := false }) = [] := by
    refine List.filter_eq_nil_iff.2 fun e he hcounts => ?_
    obtain ⟨⟨t, -, het⟩, -⟩ := of_mem_derived he
    simp [Graph.countsFor, Edge.isDerived, SourceType.provenance_of_mem_signatureEdges het]
      at hcounts
  rw [g.projectTypes_eq, g.projectTypes_eq, h.edges, Model.edges, List.filter_append,
    List.filter_append, hbody, hbody, hderived, List.append_nil, List.filterMap_append,
    List.map_append, ← List.append_assoc]
  -- what derived edges add at the end was mentioned before
  refine Digraph.ofMentions_append_of_subset fun mention hmention => ?_
  obtain ⟨lifted, hlifted, rfl⟩ := List.mem_map.1 hmention
  obtain ⟨e, he, hlift⟩ := List.mem_filterMap.1 hlifted
  obtain ⟨⟨t, ht, het⟩, -⟩ := of_mem_derived (List.mem_filter.1 he).1
  obtain ⟨e', he', hkind, hsame⟩ :=
    h.exists_stated_of_mem_signatureEdges hvoids (List.mem_flatMap.2 ⟨t, ht, het⟩)
  have hcounts : kinds.contains e'.kind = true := by
    rw [List.contains_iff_mem]
    rcases hkind with hkind | hkind
    · rwa [hkind]
    · rwa [hkind]
  refine List.mem_append_right _ (List.mem_map_of_mem (List.mem_filterMap.2 ⟨e', ?_, ?_⟩))
  · exact List.mem_filter.2 ⟨he', hcounts⟩
  · rw [hsame, hlift]

end Built

end Model

end RoleAudit
