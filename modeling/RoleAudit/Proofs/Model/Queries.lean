import RoleAudit.Proofs.Model.SignatureUses

/-!
# Questions to the graph of a model

Who implements an interface, who injects a type and whose signatures mention it is asked of look-ups
that follow the edges of the graph. In the graph of a model the answers can be read off the
declarations: `SourceType.Lists` for the first, `SourceType.Injects` for the second, and the methods
of interfaces for the third.
-/

namespace RoleAudit

/-- The type lists an interface of this name, with whatever arguments. -/
def SourceType.Lists (t : SourceType) (name : String) : Prop := ∃ r ∈ t.interfaces, r.name = name

/-- The type extends one of this name, with whatever arguments. -/
def SourceType.Extends (t : SourceType) (name : String) : Prop :=
  ∃ s, t.superType = some s ∧ s.name = name

/-- A field or a constructor parameter of the type mentions the name, at any depth. -/
def SourceType.Injects (t : SourceType) (name : String) : Prop :=
  (∃ f ∈ t.fields, f.type.Mentions name) ∨
    ∃ c ∈ t.constructors, ∃ p ∈ c.parameters, p.type.Mentions name

theorem Graph.mem_targetsOf_iff {g : Graph} {kind : EdgeKind} {source target : NodeId} :
    target ∈ g.targetsOf kind source ↔ source ∈ g.sourcesOf kind target := by
  simp only [targetsOf, sourcesOf, List.mem_map, List.mem_filter, decide_eq_true_eq]
  constructor
  · rintro ⟨e, ⟨he, hkind, rfl⟩, rfl⟩
    exact ⟨e, ⟨he, hkind, rfl⟩, rfl⟩
  · rintro ⟨e, ⟨he, hkind, rfl⟩, rfl⟩
    exact ⟨e, ⟨he, hkind, rfl⟩, rfl⟩

namespace Model

variable {m : Model}

theorem states_implements_iff {source : NodeId} {u : SourceType} (hu : u ∈ m.types) :
    m.States source .implements u.id ↔ ∃ t ∈ m.types, t.id = source ∧ t.Lists u.name := by
  constructor
  · intro h
    generalize htarget : u.id = target at h
    cases h with
    | @interface t u' i ht _ hi hname =>
      have hsame : u.name = u'.name := NodeId.ofType_injective htarget
      exact ⟨t, ht, rfl, i, hi, hname.trans hsame.symm⟩
  · rintro ⟨t, ht, rfl, i, hi, hname⟩
    exact .interface ht hu hi hname

theorem states_extends_iff {source : NodeId} {u : SourceType} (hu : u ∈ m.types) :
    m.States source .extends u.id ↔ ∃ t ∈ m.types, t.id = source ∧ t.Extends u.name := by
  constructor
  · intro h
    generalize htarget : u.id = target at h
    cases h with
    | @superType t u' s ht _ hs hname =>
      have hsame : u.name = u'.name := NodeId.ofType_injective htarget
      exact ⟨t, ht, rfl, s, hs, hname.trans hsame.symm⟩
  · rintro ⟨t, ht, rfl, s, hs, hname⟩
    exact .superType ht hu hs hname

theorem states_fieldType_iff {source : NodeId} {u : SourceType} (hu : u ∈ m.types) :
    m.States source .fieldType u.id ↔
      ∃ t ∈ m.types, ∃ f ∈ t.fields, (Declaration.field t f).id = source ∧ f.type.Mentions u.name := by
  constructor
  · intro h
    generalize htarget : u.id = target at h
    cases h with
    | @fieldType t u' f ht _ hf hmentions =>
      have hsame : u.name = u'.name := NodeId.ofType_injective htarget
      exact ⟨t, ht, f, hf, rfl, hsame ▸ hmentions⟩
  · rintro ⟨t, ht, f, hf, rfl, hmentions⟩
    exact .fieldType ht hu hf hmentions

/-- The parameters of methods are left out: the id of a constructor is never that of a method. -/
theorem states_parameterType_constructor {t u : SourceType} {c : SourceConstructor}
    (h : m.States (Declaration.constructor t c).id .parameterType u.id) :
    ∃ t' ∈ m.types, ∃ c' ∈ t'.constructors,
      (Declaration.constructor t' c').id = (Declaration.constructor t c).id ∧
        ∃ p ∈ c'.parameters, p.type.Mentions u.name := by
  generalize hsource : (Declaration.constructor t c).id = source at h
  generalize htarget : u.id = target at h
  cases h with
  | methodParameter =>
    have hkind := Declaration.kind_eq_of_id_eq hsource
    exact NodeKind.noConfusion hkind
  | @constructorParameter t' u' c' p ht _ hc hp hmentions =>
    have hsame : u.name = u'.name := NodeId.ofType_injective htarget
    exact ⟨t', ht, c', hc, rfl, p, hp, hsame ▸ hmentions⟩

theorem mem_declarations_of_mem_members {t : SourceType} {d : Declaration} (ht : t ∈ m.types)
    (hd : d ∈ t.members) : d ∈ m.declarations :=
  List.mem_append_right _ (List.mem_flatMap.2 ⟨t, ht, hd⟩)

section Built

variable {derived : Bool} {g : Graph} (h : m.Builds derived g)

include h

theorem Builds.type?_id {t : SourceType} (ht : t ∈ m.types) : g.type? t.id = some t.toNode :=
  h.type?_eq_some.2 ⟨t, ht, rfl, rfl⟩

theorem Builds.mem_resolveTypes_iff {ids : List NodeId} {n : TypeNode} :
    n ∈ g.resolveTypes ids ↔ ∃ u ∈ m.types, u.toNode = n ∧ u.id ∈ ids := by
  rw [Graph.resolveTypes, List.mem_filterMap]
  constructor
  · rintro ⟨id, hid, hn⟩
    obtain ⟨u, hu, rfl, rfl⟩ := h.type?_eq_some.1 hn
    exact ⟨u, hu, rfl, hid⟩
  · rintro ⟨u, hu, rfl, hid⟩
    exact ⟨u.id, hid, h.type?_id hu⟩

theorem Builds.eq_of_toNode_eq {t u : SourceType} (ht : t ∈ m.types) (hu : u ∈ m.types)
    (hnode : t.toNode = u.toNode) : t = u := by
  have hid : t.id = u.id := congrArg TypeNode.id hnode
  refine h.eq_of_mem_nodeIds ht hu t.id List.mem_cons_self ?_
  rw [hid]
  exact List.mem_cons_self

/-- Derived edges aside, an edge enters a node where the declarations state the relation. -/
theorem Builds.mem_sourcesOf_iff {kind : EdgeKind} (hkind : kind ≠ .usesInSignature)
    {source target : NodeId} : source ∈ g.sourcesOf kind target ↔ m.States source kind target := by
  have hedge : ∀ e : Edge, e.kind = kind → (e ∈ g.edges.toList ↔
      ∃ source kind target, m.States source kind target ∧ e = .raw source target kind) := by
    intro e he
    rw [h.edges, Model.edges, List.mem_append, ← mem_bodyEdges_iff]
    refine or_iff_left fun hderived => hkind ?_
    rw [← he, (of_mem_derived hderived).2]
  rw [Graph.sourcesOf, List.mem_map]
  constructor
  · rintro ⟨e, he, rfl⟩
    obtain ⟨hin, hends⟩ := List.mem_filter.1 he
    obtain ⟨hek, rfl⟩ := of_decide_eq_true hends
    obtain ⟨source, kind', target, hstates, rfl⟩ := (hedge e hek).1 hin
    obtain rfl : kind' = kind := hek
    exact hstates
  · intro hstates
    refine ⟨.raw source target kind, List.mem_filter.2 ⟨?_, decide_eq_true ⟨rfl, rfl⟩⟩, rfl⟩
    exact (hedge _ rfl).2 ⟨source, kind, target, hstates, rfl⟩

theorem Builds.declaration_eq {a b : Declaration} (ha : a ∈ m.declarations)
    (hb : b ∈ m.declarations) (hid : a.id = b.id) : a = b := by
  have hnodup : (m.declarations.map Declaration.id).Nodup := by
    rw [map_id_declarations, ← h.nodes]
    exact h.indexed.nodup
  exact List.inj_on_of_nodup_map hnodup ha hb hid

/-- What edges of a relation lead from to a node are the declarations that state the relation. -/
theorem Builds.mem_resolve_sourcesOf_iff {kind : EdgeKind} (hkind : kind ≠ .usesInSignature)
    {target : NodeId} {n : Node} :
    n ∈ g.resolve (distinct (g.sourcesOf kind target)) ↔
      ∃ d ∈ m.declarations, d.node = n ∧ m.States d.id kind target := by
  have hnode : n ∈ g.nodes ↔ ∃ d ∈ m.declarations, d.node = n := by
    rw [h.mem_nodes, ← map_node_declarations, List.mem_map]
  rw [Graph.resolve, List.mem_filterMap]
  constructor
  · rintro ⟨source, hsource, hn⟩
    rw [mem_distinct, h.mem_sourcesOf_iff hkind] at hsource
    obtain ⟨hin, rfl⟩ := h.indexed.node?_eq_some.1 hn
    obtain ⟨d, hd, rfl⟩ := hnode.1 hin
    rw [Declaration.id_node] at hsource
    exact ⟨d, hd, rfl, hsource⟩
  · rintro ⟨d, hd, rfl, hstates⟩
    refine ⟨d.id, mem_distinct.2 ((h.mem_sourcesOf_iff hkind).2 hstates), ?_⟩
    exact h.indexed.node?_eq_some.2 ⟨hnode.2 ⟨d, hd, rfl⟩, d.id_node⟩

theorem Builds.id_mem_sourcesOf_implements_iff {t u : SourceType} (ht : t ∈ m.types)
    (hu : u ∈ m.types) : t.id ∈ g.sourcesOf .implements u.id ↔ t.Lists u.name := by
  rw [h.mem_sourcesOf_iff (by simp), states_implements_iff hu]
  constructor
  · rintro ⟨t', ht', hid, hlists⟩
    exact h.eq_of_id_eq ht' ht hid ▸ hlists
  · intro hlists
    exact ⟨t, ht, rfl, hlists⟩

/-- The implementors of a declared type are the types that list it. -/
theorem Builds.mem_implementorsOf_iff {u : SourceType} (hu : u ∈ m.types) {n : TypeNode} :
    n ∈ g.implementorsOf u.id ↔ ∃ t ∈ m.types, t.toNode = n ∧ t.Lists u.name := by
  rw [Graph.implementorsOf, h.indexed.implementors, h.mem_resolveTypes_iff]
  refine exists_congr fun t => and_congr_right fun ht => and_congr_right fun _ => ?_
  rw [mem_distinct, h.id_mem_sourcesOf_implements_iff ht hu]

theorem Builds.mem_fieldsOfType_iff {u : SourceType} (hu : u ∈ m.types) {n : FieldNode} :
    n ∈ g.fieldsOfType u.id ↔
      ∃ t ∈ m.types, ∃ f ∈ t.fields, t.fieldNode f = n ∧ f.type.Mentions u.name := by
  have hdeclared : ∀ {t : SourceType} {f : SourceField}, t ∈ m.types → f ∈ t.fields →
      Declaration.field t f ∈ m.declarations := fun {t f} ht hf =>
    mem_declarations_of_mem_members ht (by simp [SourceType.members, hf])
  rw [Graph.fieldsOfType, h.indexed.fieldsByType, List.mem_filterMap]
  constructor
  · rintro ⟨node, hnode, hn⟩
    obtain ⟨d, hd, rfl, hstates⟩ := (h.mem_resolve_sourcesOf_iff (by simp)).1 hnode
    obtain ⟨t, ht, f, hf, hid, hmentions⟩ := (states_fieldType_iff hu).1 hstates
    rw [← h.declaration_eq (hdeclared ht hf) hd hid] at hn
    exact ⟨t, ht, f, hf, Option.some.inj hn, hmentions⟩
  · rintro ⟨t, ht, f, hf, rfl, hmentions⟩
    refine ⟨.field (t.fieldNode f), (h.mem_resolve_sourcesOf_iff (by simp)).2 ?_, rfl⟩
    exact ⟨_, hdeclared ht hf, rfl, .fieldType ht hu hf hmentions⟩

theorem Builds.mem_constructorsWithParameter_iff {u : SourceType} (hu : u ∈ m.types)
    {n : ConstructorNode} :
    n ∈ (g.membersWithParameter u.id).filterMap Node.constructor? ↔
      ∃ t ∈ m.types, ∃ c ∈ t.constructors, t.constructorNode c = n ∧
        ∃ p ∈ c.parameters, p.type.Mentions u.name := by
  have hdeclared : ∀ {t : SourceType} {c : SourceConstructor}, t ∈ m.types → c ∈ t.constructors →
      Declaration.constructor t c ∈ m.declarations := fun {t c} ht hc =>
    mem_declarations_of_mem_members ht (by simp [SourceType.members, hc])
  rw [Graph.membersWithParameter, h.indexed.membersByParameterType, List.mem_filterMap]
  constructor
  · rintro ⟨node, hnode, hn⟩
    obtain ⟨d, hd, rfl, hstates⟩ := (h.mem_resolve_sourcesOf_iff (by simp)).1 hnode
    cases d with
    | constructor t c =>
      obtain ⟨t', ht', c', hc', hid, hmentions⟩ := states_parameterType_constructor hstates
      rw [← h.declaration_eq (hdeclared ht' hc') hd hid] at hn
      exact ⟨t', ht', c', hc', Option.some.inj hn, hmentions⟩
    | _ => simp [Declaration.node, Node.constructor?] at hn
  · rintro ⟨t, ht, c, hc, rfl, p, hp, hmentions⟩
    refine ⟨.constructor (t.constructorNode c), (h.mem_resolve_sourcesOf_iff (by simp)).2 ?_, rfl⟩
    exact ⟨_, hdeclared ht hc, rfl, .constructorParameter ht hu hc hp hmentions⟩

/-- The types that inject a declared type are those whose fields or constructors mention it. -/
theorem Builds.mem_typesInjecting_iff {u : SourceType} (hu : u ∈ m.types) {n : TypeNode} :
    n ∈ g.typesInjecting u.id ↔ ∃ t ∈ m.types, t.toNode = n ∧ t.Injects u.name := by
  rw [Graph.typesInjecting, h.mem_resolveTypes_iff]
  refine exists_congr fun t => and_congr_right fun ht => and_congr_right fun _ => ?_
  simp only [mem_distinct, List.mem_append, List.mem_map, h.mem_fieldsOfType_iff hu,
    h.mem_constructorsWithParameter_iff hu]
  constructor
  · -- the owner of the field or constructor is the type that declares it
    rintro (⟨_, ⟨t', ht', f, hf, rfl, hmentions⟩, hid⟩ |
      ⟨_, ⟨t', ht', c, hc, rfl, hmentions⟩, hid⟩)
    · obtain rfl := h.eq_of_id_eq ht' ht hid
      exact .inl ⟨f, hf, hmentions⟩
    · obtain rfl := h.eq_of_id_eq ht' ht hid
      exact .inr ⟨c, hc, hmentions⟩
  · rintro (⟨f, hf, hmentions⟩ | ⟨c, hc, hmentions⟩)
    · exact .inl ⟨_, ⟨t, ht, f, hf, rfl, hmentions⟩, rfl⟩
    · exact .inr ⟨_, ⟨t, ht, c, hc, rfl, hmentions⟩, rfl⟩

/-- Of a relation that the declaration of a type states by a name, the edges that leave the type enter
the types of these names. -/
theorem Builds.mem_resolveTypes_targetsOf {kind : EdgeKind}
    (hkind : kind ≠ .usesInSignature) {relates : SourceType → String → Prop}
    (hstates : ∀ {source : NodeId} {u : SourceType}, u ∈ m.types →
      (m.States source kind u.id ↔ ∃ t ∈ m.types, t.id = source ∧ relates t u.name))
    {t : SourceType} (ht : t ∈ m.types) {n : TypeNode} :
    n ∈ g.resolveTypes (distinct (g.targetsOf kind t.id)) ↔
      ∃ u ∈ m.types, u.toNode = n ∧ relates t u.name := by
  rw [h.mem_resolveTypes_iff]
  refine exists_congr fun u => and_congr_right fun hu => and_congr_right fun _ => ?_
  rw [mem_distinct, Graph.mem_targetsOf_iff, h.mem_sourcesOf_iff hkind, hstates hu]
  constructor
  · rintro ⟨t', ht', hid, hrelates⟩
    exact h.eq_of_id_eq ht' ht hid ▸ hrelates
  · intro hrelates
    exact ⟨t, ht, rfl, hrelates⟩

theorem Builds.mem_interfacesOf_iff {t : SourceType} (ht : t ∈ m.types) {n : TypeNode} :
    n ∈ g.interfacesOf t.id ↔ ∃ u ∈ m.types, u.toNode = n ∧ t.Lists u.name := by
  rw [Graph.interfacesOf, h.indexed.implementedInterfaces]
  exact h.mem_resolveTypes_targetsOf (by simp) states_implements_iff ht

theorem Builds.isSome_supertypeOf? {t : SourceType} (ht : t ∈ m.types) :
    (g.supertypeOf? t.id).isSome = true ↔ ∃ u ∈ m.types, t.Extends u.name := by
  rw [Graph.supertypeOf?, h.indexed.supertypes, List.isSome_head?, ← List.isEmpty_eq_false_iff,
    List.isEmpty_eq_false_iff_exists_mem]
  simp only [h.mem_resolveTypes_targetsOf (by simp) states_extends_iff ht]
  constructor
  · rintro ⟨_, u, hu, -, hextends⟩
    exact ⟨u, hu, hextends⟩
  · rintro ⟨u, hu, hextends⟩
    exact ⟨_, u, hu, rfl, hextends⟩

end Built

/-! ## Uses in signatures -/

section Derived

variable {g : Graph} (h : m.Builds true g)

include h

theorem Builds.id_mem_sourcesOf_usesInSignature_iff {i t : SourceType} (hi : i ∈ m.types)
    (ht : t ∈ m.types) :
    i.id ∈ g.sourcesOf .usesInSignature t.id ↔ i.form = .interface ∧ i ≠ t ∧
      ∃ k ∈ i.methods, ∃ position, k.MentionsAt position t.name := by
  have hedge : ∀ e : Edge, e.kind = .usesInSignature →
      (e ∈ g.edges.toList ↔ e ∈ m.signatureEdges) := by
    intro e hkind
    rw [h.edges, Model.edges, List.mem_append]
    exact or_iff_right fun hbody => kind_of_mem_bodyEdges hbody hkind
  rw [Graph.sourcesOf, List.mem_map]
  constructor
  · rintro ⟨e, he, hsource⟩
    obtain ⟨he, hends⟩ := List.mem_filter.1 he
    obtain ⟨hkind, htarget⟩ := of_decide_eq_true hends
    obtain ⟨_, _, proof, ⟨i', hi', k, hk, u, hu, hform, hother, hmentions, rfl, rfl, -⟩, rfl⟩ :=
      mem_signatureEdges_iff.1 ((hedge e hkind).1 he)
    obtain rfl := h.eq_of_id_eq hi' hi hsource
    obtain rfl := h.eq_of_id_eq hu ht htarget
    exact ⟨hform, fun heq => hother (heq ▸ rfl), k, hk, proof.position, hmentions⟩
  · rintro ⟨hform, hother, k, hk, position, hmentions⟩
    refine ⟨.signatureUse i.id t.id ⟨(Declaration.method i k).id, position⟩, ?_, rfl⟩
    refine List.mem_filter.2 ⟨(hedge _ rfl).2 (mem_signatureEdges_iff.2 ?_), decide_eq_true ⟨rfl, rfl⟩⟩
    have hids : t.id ≠ i.id := fun hid => hother (h.eq_of_id_eq hi ht hid.symm)
    exact ⟨_, _, _, ⟨i, hi, k, hk, t, ht, hform, hids, hmentions, rfl, rfl, rfl⟩, rfl⟩

/-- The interfaces whose signatures mention a declared type; the type itself is not among them. -/
theorem Builds.mem_interfacesUsing_iff {t : SourceType} (ht : t ∈ m.types) {n : TypeNode} :
    n ∈ g.interfacesUsing t.id ↔ ∃ i ∈ m.types, i.toNode = n ∧ i.form = .interface ∧ i ≠ t ∧
      ∃ k ∈ i.methods, ∃ position, k.MentionsAt position t.name := by
  rw [Graph.interfacesUsing, h.indexed.signatureUsers, h.mem_resolveTypes_iff]
  refine exists_congr fun i => and_congr_right fun hi => and_congr_right fun _ => ?_
  rw [mem_distinct, h.id_mem_sourcesOf_usesInSignature_iff hi ht]

end Derived

end Model

end RoleAudit
