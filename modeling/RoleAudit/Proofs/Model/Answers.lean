import RoleAudit.Proofs.Model.Queries

/-!
# Answers in the order of the model

A look-up gives each type once, however many edges lead to it, and an edge of the hierarchy or of a use
in signatures leaves the type that states it. Edges are inserted type by type. So what lists an interface
and what mentions a type in its signatures comes in the order of the model, and each of these questions
is the same as filtering the declared types.

The edges of fields and parameters leave members. They are asked for in two look-ups, fields before
constructors, and the owners do not come in the order of the model.
-/

namespace RoleAudit

/-- Where each item can only give its own name, what the items give comes in the order of the names. -/
theorem distinct_flatMap_sublist {ι β : Type} [DecidableEq β] {l : List ι} {f : ι → List β}
    {name : ι → β} (hnames : (l.map name).Nodup) (hf : ∀ i ∈ l, ∀ b ∈ f i, b = name i) :
    (distinct (l.flatMap f)).Sublist (l.map name) := by
  rw [distinct_flatMap_of_key id hnames hf]
  clear hnames
  induction l with
  | nil => exact .slnil
  | cons i rest ih =>
    have hsame : distinct (f i) = List.replicate (distinct (f i)).length (name i) :=
      List.eq_replicate_of_mem fun b hb => hf i List.mem_cons_self b (mem_distinct.1 hb)
    have honce : (distinct (f i)).length ≤ 1 := by
      have hnodup := nodup_distinct (f i)
      rwa [hsame, List.nodup_replicate] at hnodup
    have hfirst : (distinct (f i)).Sublist [name i] := by
      rw [hsame]
      exact (List.replicate_sublist_replicate (name i)).2 honce
    exact hfirst.append (ih fun j hj => hf j (List.mem_cons_of_mem i hj))

instance (r : TypeRef) (name : String) : Decidable (r.Mentions name) :=
  decidable_of_iff _ TypeRef.mem_names_iff

namespace SourceType

/-- The result or a parameter of a method of the type mentions the name, at any depth. -/
def MentionsInSignature (t : SourceType) (name : String) : Prop :=
  ∃ k ∈ t.methods, k.returnType.Mentions name ∨ ∃ p ∈ k.parameters, p.type.Mentions name

instance (t : SourceType) (name : String) : Decidable (t.Lists name) :=
  inferInstanceAs (Decidable (∃ r ∈ t.interfaces, r.name = name))

instance (t : SourceType) (name : String) : Decidable (t.MentionsInSignature name) :=
  inferInstanceAs (Decidable (∃ k ∈ t.methods,
    k.returnType.Mentions name ∨ ∃ p ∈ k.parameters, p.type.Mentions name))

theorem mentionsInSignature_iff {t : SourceType} {name : String} :
    t.MentionsInSignature name ↔ ∃ k ∈ t.methods, ∃ position, k.MentionsAt position name := by
  refine exists_congr fun k => and_congr_right fun _ => ?_
  constructor
  · rintro (hresult | ⟨p, hp, hmentions⟩)
    · exact ⟨.return, hresult⟩
    · obtain ⟨i, hi⟩ := List.mem_iff_getElem?.1 hp
      exact ⟨.parameter i, p, hi, hmentions⟩
  · rintro ⟨_ | i, hmentions⟩
    · exact .inl hmentions
    · obtain ⟨p, hp, hmentions⟩ := hmentions
      exact .inr ⟨p, List.mem_of_getElem? hp, hmentions⟩

end SourceType

namespace Model

variable {m : Model} {g : Graph}

section Built

variable {derived : Bool} (h : m.Builds derived g)

include h

/-- Edges that leave the types they are stated by come in the order of the model. -/
theorem Builds.distinct_sources_sublist {edgesOf : SourceType → List Edge} {p : Edge → Bool}
    (hsource : ∀ t, ∀ e ∈ edgesOf t, p e = true → e.source = t.id) :
    (distinct (((m.types.flatMap edgesOf).filter p).map (·.source))).Sublist m.typeIds := by
  rw [List.filter_flatMap, List.map_flatMap]
  refine distinct_flatMap_sublist h.typeIds_nodup fun t _ id hid => ?_
  obtain ⟨e, he, rfl⟩ := List.mem_map.1 hid
  obtain ⟨he, hp⟩ := List.mem_filter.1 he
  exact hsource t e he hp

theorem Builds.implementors_sublist (target : NodeId) :
    (distinct (g.sourcesOf .implements target)).Sublist m.typeIds := by
  have hderived : (if derived then m.signatureEdges else []).filter
      (fun e => e.kind = .implements ∧ e.target = target) = [] := by
    refine List.filter_eq_nil_iff.2 fun e he hends => ?_
    have hkind := (of_decide_eq_true hends).1
    rw [(of_mem_derived he).2] at hkind
    exact EdgeKind.noConfusion hkind
  rw [Graph.sourcesOf, h.edges, Model.edges, List.filter_append, hderived, List.append_nil]
  refine h.distinct_sources_sublist fun t e he hends => ?_
  have hkind := (of_decide_eq_true hends).1
  rw [SourceType.bodyEdges_eq] at he
  rcases List.mem_append.1 he with he | he
  · exact (SourceType.of_mem_hierarchyEdges he).1
  · obtain ⟨d, -, hed⟩ := List.mem_flatMap.1 he
    rcases Declaration.kind_of_mem_memberEdges hed with hk | hk <;>
      simp [hkind, EdgeKind.isTypeUsage] at hk

/-- Types that are found by ids in the order of the model are a filter of the model. -/
theorem Builds.resolveTypes_eq_filter {ids : List NodeId} (hids : ids.Sublist m.typeIds)
    {p : SourceType → Prop} [DecidablePred p] (hp : ∀ t ∈ m.types, t.id ∈ ids ↔ p t) :
    g.resolveTypes ids = (m.types.filter p).map SourceType.toNode := by
  have hfilter : ((m.types.filter p).map SourceType.id).Sublist m.typeIds :=
    List.filter_sublist.map _
  have heq : ids = (m.types.filter p).map SourceType.id := by
    refine (h.typeIds_nodup.perm_iff_eq_of_sublist hids hfilter).1 ?_
    refine (List.perm_ext_iff_of_nodup (hids.nodup h.typeIds_nodup)
      (hfilter.nodup h.typeIds_nodup)).2 fun id => ?_
    constructor
    · intro hid
      obtain ⟨t, ht, rfl⟩ := List.mem_map.1 (hids.subset hid)
      exact List.mem_map_of_mem (List.mem_filter.2 ⟨ht, decide_eq_true ((hp t ht).1 hid)⟩)
    · intro hid
      obtain ⟨t, ht, rfl⟩ := List.mem_map.1 hid
      obtain ⟨ht, hpt⟩ := List.mem_filter.1 ht
      exact (hp t ht).2 (of_decide_eq_true hpt)
  rw [heq, Graph.resolveTypes, List.filterMap_map, ← List.filterMap_eq_map]
  refine List.filterMap_congr fun t ht => ?_
  exact h.type?_id (List.mem_filter.1 ht).1

/-- The implementors of a declared type are the types that list it, in model order. -/
theorem Builds.implementorsOf_eq {u : SourceType} (hu : u ∈ m.types) :
    g.implementorsOf u.id = (m.types.filter (·.Lists u.name)).map SourceType.toNode := by
  rw [Graph.implementorsOf, h.indexed.implementors]
  refine h.resolveTypes_eq_filter (h.implementors_sublist u.id) fun t ht => ?_
  rw [mem_distinct, h.id_mem_sourcesOf_implements_iff ht hu]

theorem Builds.toNode_nodup (p : SourceType → Bool) :
    ((m.types.filter p).map SourceType.toNode).Nodup := by
  refine .of_map TypeNode.id ?_
  rw [List.map_map]
  exact (List.filter_sublist.map SourceType.id).nodup h.typeIds_nodup

theorem Builds.typesInjecting_nodup (id : NodeId) : (g.typesInjecting id).Nodup :=
  .of_map TypeNode.id ((h.indexed.resolveTypes_sublist _).nodup (nodup_distinct _))

/-! ## Members and their types -/

/-- The declaring type of a member is the one that has it among its members. -/
theorem Builds.declaringTypeOf?_eq {t : SourceType} (ht : t ∈ m.types) {d : Declaration}
    (hd : d ∈ t.members) : g.declaringTypeOf? d.id = some t.toNode := by
  have hsources : g.sourcesOf .declares d.id = [t.id] := by
    rw [Graph.sourcesOf, h.filter_declares (List.mem_flatMap.2 ⟨t, ht, hd⟩),
      SourceType.owner_of_mem_members hd]
    rfl
  rw [Graph.declaringTypeOf?, h.indexed.declaringType, hsources]
  exact h.type?_id ht

theorem Builds.mem_memberNodes_unique {t u : SourceType} (ht : t ∈ m.types) (hu : u ∈ m.types)
    {n : Node} (hnt : n ∈ t.memberNodes) (hnu : n ∈ u.memberNodes) : t = u :=
  h.eq_of_mem_nodeIds ht hu n.id (List.mem_cons_of_mem _ (List.mem_map_of_mem hnt))
    (List.mem_cons_of_mem _ (List.mem_map_of_mem hnu))

theorem Builds.exists_member {n : Node} (hn : n ∈ g.nodes) (hmember : n.isMember = true) :
    ∃ t ∈ m.types, n ∈ t.memberNodes ∧ g.declaringTypeOf? n.id = some t.toNode := by
  have howner : ∃ owner, n.owner? = some owner := by
    cases n with
    | type => exact absurd hmember Bool.false_ne_true
    | _ => exact ⟨_, rfl⟩
  obtain ⟨owner, howner⟩ := howner
  obtain ⟨t, ht, d, hd, rfl, -⟩ := h.exists_member_of_owner hn howner
  refine ⟨t, ht, ?_, ?_⟩
  · rw [← t.map_node_members]
    exact List.mem_map_of_mem hd
  · rw [Declaration.id_node]
    exact h.declaringTypeOf?_eq ht hd

end Built

/-- The interfaces that use a declared type are a filter of the model. -/
theorem Builds.interfacesUsing_eq (h : m.Builds true g) {u : SourceType} (hu : u ∈ m.types) :
    g.interfacesUsing u.id = (m.types.filter fun t =>
      t.form = .interface ∧ t ≠ u ∧ t.MentionsInSignature u.name).map SourceType.toNode := by
  have hbody : (m.types.flatMap (·.bodyEdges m.declares)).filter
      (fun e => e.kind = .usesInSignature ∧ e.target = u.id) = [] := by
    refine List.filter_eq_nil_iff.2 fun e he hends => ?_
    exact kind_of_mem_bodyEdges he (of_decide_eq_true hends).1
  have hsub : (distinct (g.sourcesOf .usesInSignature u.id)).Sublist m.typeIds := by
    rw [Graph.sourcesOf, h.edges, Model.edges, if_pos rfl, List.filter_append, hbody,
      List.nil_append]
    exact h.distinct_sources_sublist fun t e he _ => (SourceType.of_mem_signatureEdges he).1
  rw [Graph.interfacesUsing, h.indexed.signatureUsers]
  refine h.resolveTypes_eq_filter hsub fun t ht => ?_
  rw [mem_distinct, h.id_mem_sourcesOf_usesInSignature_iff ht hu,
    SourceType.mentionsInSignature_iff]

/-- In the graph of a model, asking for a declared type gives what a reader of the declarations would
say, each type once. What injects it are the types with a field or constructor parameter that mentions
it. What implements it are the types that list it, and what uses it in signatures are the other
interfaces with a method that mentions it, both in the order of the model. Every member has a declaring
type, which is the one that has the member among its own, and that is the one that declares it. -/
theorem queries_answer_from_declarations (hbuild : m.build = .ok g) :
    (∀ u ∈ m.types,
      ((g.typesInjecting u.id).Nodup ∧
        ∀ n, n ∈ g.typesInjecting u.id ↔ ∃ t ∈ m.types, t.toNode = n ∧ t.Injects u.name) ∧
      ((g.implementorsOf u.id).Nodup ∧
        g.implementorsOf u.id = (m.types.filter (·.Lists u.name)).map SourceType.toNode) ∧
      ((g.interfacesUsing u.id).Nodup ∧
        g.interfacesUsing u.id = (m.types.filter fun t =>
          t.form = .interface ∧ t ≠ u ∧ t.MentionsInSignature u.name).map SourceType.toNode) ∧
      (g.membersOf u.id).Nodup) ∧
    ∀ n ∈ g.nodes, n.isMember = true →
      (∃ t ∈ m.types, g.declaringTypeOf? n.id = some t.toNode) ∧
      ∀ t ∈ m.types, (g.declaringTypeOf? n.id = some t.toNode ↔ n ∈ g.membersOf t.id) ∧
        (n ∈ g.membersOf t.id ↔ n ∈ t.memberNodes) := by
  have h := builds_of_buildWith hbuild
  constructor
  · intro u hu
    refine ⟨⟨h.typesInjecting_nodup u.id, fun n => h.mem_typesInjecting_iff hu⟩, ⟨?_, ?_⟩,
      ⟨?_, ?_⟩, ?_⟩
    · rw [h.implementorsOf_eq hu]
      exact h.toNode_nodup _
    · exact h.implementorsOf_eq hu
    · rw [h.interfacesUsing_eq hu]
      exact h.toNode_nodup _
    · exact h.interfacesUsing_eq hu
    · rw [h.membersOf_eq hu]
      exact .of_map Node.id (h.memberIds_nodup hu)
  · intro n hn hmember
    obtain ⟨owner, howner, hdeclared, htype⟩ := h.exists_member hn hmember
    refine ⟨⟨owner, howner, htype⟩, fun t ht => ?_⟩
    rw [h.membersOf_eq ht, htype, Option.some.injEq]
    refine ⟨⟨fun hnode => ?_, fun hin => ?_⟩, Iff.rfl⟩
    · obtain rfl := h.eq_of_toNode_eq howner ht hnode
      exact hdeclared
    · rw [h.mem_memberNodes_unique howner ht hdeclared hin]

/-- In the fleet the ship lists an interface twice and implements it once. The interface mentions ships
in three places, and itself in one, and uses ships once and itself not at all. -/
theorem fleet_answers :
    ∃ g, fleet.build = .ok g ∧ g.implementorsOf tracked.id = [ship.toNode] ∧
      g.interfacesUsing ship.id = [tracked.toNode] ∧ g.interfacesUsing tracked.id = [] ∧
      ship.toNode ∈ g.typesInjecting vessel.id ∧
      g.declaringTypeOf? (Declaration.field ship route).id = some ship.toNode := by
  obtain ⟨g, hg⟩ := Error.exists_of_isOk ((fleet.isOk_buildWith_iff true).2 (by decide))
  have hg : fleet.build = .ok g := hg
  obtain ⟨hanswers, hmembers⟩ := queries_answer_from_declarations hg
  have hship : ship ∈ fleet.types := by simp [fleet]
  have htracked : tracked ∈ fleet.types := by simp [fleet]
  have hvessel : vessel ∈ fleet.types := by simp [fleet]
  have hroute : Node.field (ship.fieldNode route) ∈ g.nodes := by
    rw [(builds_of_buildWith hg).mem_nodes]
    exact List.mem_append_right _ List.mem_cons_self
  have hinjects : ship.Injects vessel.name :=
    .inl ⟨route, List.mem_cons_self, .argument List.mem_cons_self (.own _ _)⟩
  refine ⟨g, hg, ?_, ?_, ?_, ?_, ?_⟩
  · rw [(hanswers tracked htracked).2.1.2]
    decide
  · rw [(hanswers ship hship).2.2.1.2]
    decide
  · rw [(hanswers tracked htracked).2.2.1.2]
    decide
  · exact ((hanswers vessel hvessel).1.2 _).2 ⟨ship, hship, rfl, hinjects⟩
  · obtain ⟨hdeclaring, hhas⟩ := (hmembers _ hroute rfl).2 ship hship
    exact hdeclaring.2 (hhas.2 List.mem_cons_self)

end Model

end RoleAudit
