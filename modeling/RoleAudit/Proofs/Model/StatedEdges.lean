import RoleAudit.Proofs.Model.Declarations

/-!
# The edges that declarations state

`Model.States` says which relations the declarations of a model state, read off the declarations
alone: what a type declares, what it extends and implements, and which types the references of its
members mention. The raw edges of the graph are these relations and no others.

A relation between a type and one of its members, or between a member and a type that it mentions, is
an edge once. The member tells it from the edges of all other members, so it is enough that no
reference list gives a name twice.
-/

namespace RoleAudit

/-- What an edge relates, and how. -/
def Edge.relation (e : Edge) : NodeId × NodeId × EdgeKind := (e.source, e.target, e.kind)

/-- The relations that the declarations of a model state. -/
inductive Model.States (m : Model) : NodeId → EdgeKind → NodeId → Prop
  | declares {t : SourceType} {d : Declaration} (ht : t ∈ m.types) (hd : d ∈ t.members) :
    States m t.id .declares d.id
  | superType {t u : SourceType} {s : TypeRef} (ht : t ∈ m.types) (hu : u ∈ m.types)
    (hs : t.superType = some s) (hname : s.name = u.name) : States m t.id .extends u.id
  | interface {t u : SourceType} {i : TypeRef} (ht : t ∈ m.types) (hu : u ∈ m.types)
    (hi : i ∈ t.interfaces) (hname : i.name = u.name) : States m t.id .implements u.id
  | fieldType {t u : SourceType} {f : SourceField} (ht : t ∈ m.types) (hu : u ∈ m.types)
    (hf : f ∈ t.fields) (hmentions : f.type.Mentions u.name) :
    States m (Declaration.field t f).id .fieldType u.id
  | returnType {t u : SourceType} {k : SourceMethod} (ht : t ∈ m.types) (hu : u ∈ m.types)
    (hk : k ∈ t.methods) (hvoid : k.returnType.name ≠ "void")
    (hmentions : k.returnType.Mentions u.name) :
    States m (Declaration.method t k).id .returnType u.id
  | methodParameter {t u : SourceType} {k : SourceMethod} {p : SourceParameter} (ht : t ∈ m.types)
    (hu : u ∈ m.types) (hk : k ∈ t.methods) (hp : p ∈ k.parameters)
    (hmentions : p.type.Mentions u.name) :
    States m (Declaration.method t k).id .parameterType u.id
  | constructorParameter {t u : SourceType} {c : SourceConstructor} {p : SourceParameter}
    (ht : t ∈ m.types) (hu : u ∈ m.types) (hc : c ∈ t.constructors) (hp : p ∈ c.parameters)
    (hmentions : p.type.Mentions u.name) :
    States m (Declaration.constructor t c).id .parameterType u.id

/-! ## The edges of a member -/

namespace Declaration

/-- The type that a declaration belongs to. -/
def owner : Declaration → SourceType
  | type t => t
  | field t _ => t
  | method t _ => t
  | constructor t _ => t

/-- The edges of a member: the one from its type, then those to the types that it mentions. -/
def memberEdges (known : String → Bool) (d : Declaration) : List Edge :=
  .raw d.owner.id d.id .declares :: d.node.uses known

/-- The member in a relation between it and a type. -/
def memberIn (r : NodeId × NodeId × EdgeKind) : NodeId := if r.2.2 = .declares then r.2.1 else r.1

variable {known : String → Bool} {d : Declaration} {e : Edge}

theorem kind_of_mem_memberEdges (h : e ∈ d.memberEdges known) :
    e.kind = .declares ∨ e.kind.isTypeUsage = true := by
  rcases List.mem_cons.1 h with rfl | h
  · exact .inl rfl
  · exact .inr (Node.of_mem_uses h).2.2

theorem memberIn_of_mem_memberEdges (h : e ∈ d.memberEdges known) : memberIn e.relation = d.id := by
  rcases List.mem_cons.1 h with rfl | h
  · rfl
  · calc memberIn e.relation = e.source := if_neg (Node.kind_of_mem_uses h)
      _ = d.node.id := (Node.of_mem_uses h).1
      _ = d.id := d.id_node

theorem target_of_mem_memberEdges (h : e ∈ d.memberEdges known) (hkind : e.kind = .declares) :
    e.target = d.id := by
  rw [← memberIn_of_mem_memberEdges h]
  exact (if_pos hkind).symm

/-- A member is declared by one edge among those of it. -/
theorem filter_declares_memberEdges (known : String → Bool) (d : Declaration) :
    (d.memberEdges known).filter (·.kind = .declares) = [.raw d.owner.id d.id .declares] := by
  rw [memberEdges, List.filter_cons_of_pos (by simp [Edge.raw])]
  refine congrArg _ (List.filter_eq_nil_iff.2 fun e he hdecl => ?_)
  exact Node.kind_of_mem_uses he (of_decide_eq_true hdecl)

end Declaration

theorem kind_of_mem_usageEdges {known : String → Bool} {member : NodeId} {kind : EdgeKind}
    {refs : List TypeRef} {e : Edge} (h : e ∈ usageEdges known member kind refs) :
    e.kind = kind := by
  obtain ⟨name, -, -, rfl⟩ := mem_usageEdges.1 h
  rfl

/-- A name that references mention twice gives one edge. -/
theorem nodup_relation_usageEdges (known : String → Bool) (member : NodeId) (kind : EdgeKind)
    (refs : List TypeRef) : ((usageEdges known member kind refs).map Edge.relation).Nodup := by
  rw [usageEdges, List.map_map]
  refine (nodup_distinct _).map ?_
  intro a b hab
  exact NodeId.ofType_injective (Prod.mk.inj (Prod.mk.inj hab).2).1

theorem Node.nodup_relation_uses (known : String → Bool) (n : Node) :
    ((n.uses known).map Edge.relation).Nodup := by
  cases n with
  | type t => exact List.nodup_nil
  | field f => exact nodup_relation_usageEdges _ _ _ _
  | method m =>
    rw [uses, List.map_append, List.nodup_append]
    refine ⟨nodup_relation_usageEdges _ _ _ _, nodup_relation_usageEdges _ _ _ _, ?_⟩
    -- one part is about the result, the other about parameters
    intro a ha b hb hab
    obtain ⟨e, he, rfl⟩ := List.mem_map.1 ha
    obtain ⟨e', he', rfl⟩ := List.mem_map.1 hb
    have hkind : e.kind = e'.kind := congrArg (·.2.2) hab
    rw [kind_of_mem_usageEdges he, kind_of_mem_usageEdges he'] at hkind
    exact EdgeKind.noConfusion hkind
  | constructor c => exact nodup_relation_usageEdges _ _ _ _

theorem Declaration.nodup_relation_memberEdges (known : String → Bool) (d : Declaration) :
    ((d.memberEdges known).map Edge.relation).Nodup := by
  rw [memberEdges, List.map_cons, List.nodup_cons]
  refine ⟨fun hin => ?_, d.node.nodup_relation_uses known⟩
  obtain ⟨e, he, hrelation⟩ := List.mem_map.1 hin
  have hkind : e.kind = .declares := congrArg (·.2.2) hrelation
  exact Node.kind_of_mem_uses he hkind

/-! ## The edges of a model -/

theorem SourceType.owner_of_mem_members {t : SourceType} {d : Declaration} (h : d ∈ t.members) :
    d.owner = t := by
  simp only [members, List.mem_append, List.mem_map] at h
  obtain (⟨_, -, rfl⟩ | ⟨_, -, rfl⟩) | ⟨_, -, rfl⟩ := h <;> rfl

theorem SourceType.bodyEdges_eq (known : String → Bool) (t : SourceType) :
    t.bodyEdges known = t.hierarchyEdges known ++ t.members.flatMap (·.memberEdges known) := by
  rw [bodyEdges, ← map_node_members, List.flatMap_map]
  refine congrArg _ (List.flatMap_congr fun d hd => ?_)
  rw [Declaration.memberEdges, owner_of_mem_members hd, Declaration.id_node]

namespace Model

variable (m : Model)

/-- The members of all types. -/
def memberDeclarations : List Declaration := m.types.flatMap SourceType.members

theorem mem_usageEdges_declares {m : Model} {member : NodeId} {kind : EdgeKind}
    {refs : List TypeRef} {e : Edge} :
    e ∈ usageEdges m.declares member kind refs ↔
      ∃ u ∈ m.types, (∃ r ∈ refs, r.Mentions u.name) ∧ e = .raw member u.id kind := by
  simp only [mem_usageEdges, TypeRef.mem_namesOfAll, TypeRef.mem_names_iff, declares_iff]
  constructor
  · rintro ⟨name, hmentions, ⟨u, hu, rfl⟩, rfl⟩
    exact ⟨u, hu, hmentions, rfl⟩
  · rintro ⟨u, hu, hmentions, rfl⟩
    exact ⟨u.name, hmentions, ⟨u, hu, rfl⟩, rfl⟩

/-- The edges to the types that a member mentions are stated. -/
theorem states_of_mem_uses {m : Model} {t : SourceType} {d : Declaration} {e : Edge}
    (ht : t ∈ m.types) (hd : d ∈ t.members) (he : e ∈ d.node.uses m.declares) :
    m.States e.source e.kind e.target ∧ e.provenance = .raw ∧ e.proof = none := by
  simp only [SourceType.members, List.mem_append, List.mem_map] at hd
  obtain (⟨f, hf, rfl⟩ | ⟨k, hk, rfl⟩) | ⟨c, hc, rfl⟩ := hd
  · obtain ⟨u, hu, ⟨r, hr, hmentions⟩, rfl⟩ := mem_usageEdges_declares.1 he
    rw [List.mem_singleton.1 hr] at hmentions
    exact ⟨.fieldType ht hu hf hmentions, rfl, rfl⟩
  · rcases List.mem_append.1 he with he | he
    · obtain ⟨u, hu, ⟨r, hr, hmentions⟩, rfl⟩ := mem_usageEdges_declares.1 he
      split at hr
      · exact absurd hr List.not_mem_nil
      · rename_i hvoid
        rw [List.mem_singleton.1 hr] at hmentions
        refine ⟨.returnType ht hu hk ?_ hmentions, rfl, rfl⟩
        intro hname
        exact hvoid (decide_eq_true hname)
    · obtain ⟨u, hu, ⟨r, hr, hmentions⟩, rfl⟩ := mem_usageEdges_declares.1 he
      rw [t.methodNode_parameterTypes] at hr
      obtain ⟨p, hp, rfl⟩ := List.mem_map.1 hr
      exact ⟨.methodParameter ht hu hk hp hmentions, rfl, rfl⟩
  · obtain ⟨u, hu, ⟨r, hr, hmentions⟩, rfl⟩ := mem_usageEdges_declares.1 he
    rw [t.constructorNode_parameterTypes] at hr
    obtain ⟨p, hp, rfl⟩ := List.mem_map.1 hr
    exact ⟨.constructorParameter ht hu hc hp hmentions, rfl, rfl⟩

theorem states_of_mem_hierarchyEdges {m : Model} {t : SourceType} {e : Edge} (ht : t ∈ m.types)
    (he : e ∈ t.hierarchyEdges m.declares) :
    m.States e.source e.kind e.target ∧ e.provenance = .raw ∧ e.proof = none := by
  rcases List.mem_append.1 he with he | he <;> obtain ⟨r, hr, rfl⟩ := List.mem_map.1 he <;>
    obtain ⟨hr, hknown⟩ := List.mem_filter.1 hr <;>
    obtain ⟨u, hu, hname⟩ := m.declares_iff.1 hknown
  · have hstates := States.superType ht hu (Option.mem_toList.1 hr) hname.symm
    rw [SourceType.id, SourceType.id, hname] at hstates
    exact ⟨hstates, rfl, rfl⟩
  · have hstates := States.interface ht hu hr hname.symm
    rw [SourceType.id, SourceType.id, hname] at hstates
    exact ⟨hstates, rfl, rfl⟩

theorem mem_bodyEdges_of_member {t : SourceType} {d : Declaration} {e : Edge} (ht : t ∈ m.types)
    (hd : d ∈ t.members) (he : e ∈ d.memberEdges m.declares) :
    e ∈ m.types.flatMap (·.bodyEdges m.declares) := by
  refine List.mem_flatMap.2 ⟨t, ht, ?_⟩
  rw [SourceType.bodyEdges_eq]
  exact List.mem_append_right _ (List.mem_flatMap.2 ⟨d, hd, he⟩)

/-- A relation that is stated is added. -/
theorem mem_bodyEdges_of_states {source target : NodeId} {kind : EdgeKind}
    (h : m.States source kind target) :
    .raw source target kind ∈ m.types.flatMap (·.bodyEdges m.declares) := by
  cases h with
  | @declares t d ht hd =>
    refine m.mem_bodyEdges_of_member ht hd ?_
    rw [Declaration.memberEdges, SourceType.owner_of_mem_members hd]
    exact List.mem_cons_self
  | @superType t u s ht hu hs hname =>
    refine List.mem_flatMap.2 ⟨t, ht, List.mem_append_left _ (List.mem_append_left _ ?_)⟩
    refine List.mem_map.2 ⟨s, List.mem_filter.2 ⟨by simp [hs], ?_⟩, by rw [hname]; rfl⟩
    exact m.declares_iff.2 ⟨u, hu, hname.symm⟩
  | @interface t u i ht hu hi hname =>
    refine List.mem_flatMap.2 ⟨t, ht, List.mem_append_left _ (List.mem_append_right _ ?_)⟩
    refine List.mem_map.2 ⟨i, List.mem_filter.2 ⟨hi, ?_⟩, by rw [hname]; rfl⟩
    exact m.declares_iff.2 ⟨u, hu, hname.symm⟩
  | @fieldType t u f ht hu hf hmentions =>
    have hd : Declaration.field t f ∈ t.members := by simp [SourceType.members, hf]
    refine m.mem_bodyEdges_of_member ht hd (List.mem_cons_of_mem _ ?_)
    exact mem_usageEdges_declares.2 ⟨u, hu, ⟨f.type, List.mem_singleton_self _, hmentions⟩, rfl⟩
  | @returnType t u k ht hu hk hvoid hmentions =>
    have hd : Declaration.method t k ∈ t.members := by simp [SourceType.members, hk]
    refine m.mem_bodyEdges_of_member ht hd (List.mem_cons_of_mem _ (List.mem_append_left _ ?_))
    have hnot : ¬ (t.methodNode k).returnType.isVoid = true := fun h => hvoid (of_decide_eq_true h)
    rw [if_neg hnot]
    exact mem_usageEdges_declares.2
      ⟨u, hu, ⟨k.returnType, List.mem_singleton_self _, hmentions⟩, rfl⟩
  | @methodParameter t u k p ht hu hk hp hmentions =>
    have hd : Declaration.method t k ∈ t.members := by simp [SourceType.members, hk]
    refine m.mem_bodyEdges_of_member ht hd (List.mem_cons_of_mem _ (List.mem_append_right _ ?_))
    rw [t.methodNode_parameterTypes]
    exact mem_usageEdges_declares.2 ⟨u, hu, ⟨p.type, List.mem_map_of_mem hp, hmentions⟩, rfl⟩
  | @constructorParameter t u c p ht hu hc hp hmentions =>
    have hd : Declaration.constructor t c ∈ t.members := by simp [SourceType.members, hc]
    refine m.mem_bodyEdges_of_member ht hd (List.mem_cons_of_mem _ ?_)
    show _ ∈ usageEdges m.declares _ _ _
    rw [t.constructorNode_parameterTypes]
    exact mem_usageEdges_declares.2 ⟨u, hu, ⟨p.type, List.mem_map_of_mem hp, hmentions⟩, rfl⟩

/-- What the declarations of all types add are the relations that they state. -/
theorem mem_bodyEdges_iff {e : Edge} :
    e ∈ m.types.flatMap (·.bodyEdges m.declares) ↔
      ∃ source kind target, m.States source kind target ∧ e = .raw source target kind := by
  have hraw : ∀ e : Edge, m.States e.source e.kind e.target ∧ e.provenance = .raw ∧ e.proof = none →
      ∃ source kind target, m.States source kind target ∧ e = .raw source target kind := by
    rintro ⟨source, target, kind, provenance, proof⟩ ⟨hstates, rfl, rfl⟩
    exact ⟨source, kind, target, hstates, rfl⟩
  constructor
  · intro he
    obtain ⟨t, ht, het⟩ := List.mem_flatMap.1 he
    rw [SourceType.bodyEdges_eq] at het
    rcases List.mem_append.1 het with het | het
    · exact hraw e (states_of_mem_hierarchyEdges ht het)
    · obtain ⟨d, hd, hed⟩ := List.mem_flatMap.1 het
      rcases List.mem_cons.1 hed with rfl | hed
      · rw [SourceType.owner_of_mem_members hd]
        exact ⟨t.id, .declares, d.id, .declares ht hd, rfl⟩
      · exact hraw e (states_of_mem_uses ht hd hed)
  · rintro ⟨source, kind, target, hstates, rfl⟩
    exact m.mem_bodyEdges_of_states hstates

/-- The edges between types and members are those of the members, in order. -/
theorem filter_edges_members (derived : Bool) :
    (m.edges derived).filter (fun e => e.kind = .declares ∨ e.kind.isTypeUsage = true)
      = m.memberDeclarations.flatMap (·.memberEdges m.declares) := by
  have hderived : (if derived then m.signatureEdges else []).filter
      (fun e => e.kind = .declares ∨ e.kind.isTypeUsage = true) = [] := by
    refine List.filter_eq_nil_iff.2 fun e he hkind => ?_
    rw [(of_mem_derived he).2] at hkind
    simp [EdgeKind.isTypeUsage] at hkind
  have hbody : ∀ t : SourceType, (t.bodyEdges m.declares).filter
      (fun e => e.kind = .declares ∨ e.kind.isTypeUsage = true)
        = t.members.flatMap (·.memberEdges m.declares) := by
    intro t
    have hhierarchy : (t.hierarchyEdges m.declares).filter
        (fun e => e.kind = .declares ∨ e.kind.isTypeUsage = true) = [] := by
      refine List.filter_eq_nil_iff.2 fun e he hkind => ?_
      rcases (SourceType.of_mem_hierarchyEdges he).2.2 with hk | hk <;>
        simp [hk, EdgeKind.isTypeUsage] at hkind
    rw [SourceType.bodyEdges_eq, List.filter_append, hhierarchy, List.nil_append,
      List.filter_eq_self]
    intro e he
    obtain ⟨d, -, hed⟩ := List.mem_flatMap.1 he
    exact decide_eq_true (Declaration.kind_of_mem_memberEdges hed)
  rw [edges, List.filter_append, hderived, List.append_nil, List.filter_flatMap, funext hbody,
    memberDeclarations, List.flatMap_assoc]

section Built

variable {m} {derived : Bool} {g : Graph} (h : m.Builds derived g)

include h

theorem Builds.memberDeclarations_nodup : (m.memberDeclarations.map Declaration.id).Nodup := by
  have hnodup := h.indexed.nodup
  rw [Graph.nodeIds, h.nodes, ← map_id_declarations] at hnodup
  have hsuffix : m.memberDeclarations.Sublist m.declarations := List.sublist_append_right _ _
  exact (hsuffix.map Declaration.id).nodup hnodup

/-- No relation between a type and a member is stated by two edges. -/
theorem Builds.nodup_relation_members :
    ((g.edges.toList.filter fun e => e.kind = .declares ∨ e.kind.isTypeUsage = true).map
      Edge.relation).Nodup := by
  rw [h.edges, m.filter_edges_members derived, List.map_flatMap]
  refine nodup_flatMap_of_key Declaration.memberIn h.memberDeclarations_nodup
    (fun d _ => d.nodup_relation_memberEdges m.declares) ?_
  intro d _ r hr
  obtain ⟨e, he, rfl⟩ := List.mem_map.1 hr
  exact Declaration.memberIn_of_mem_memberEdges he

/-- A member is declared by one edge among all. -/
theorem Builds.filter_declares {d : Declaration} (hd : d ∈ m.memberDeclarations) :
    g.edges.toList.filter (fun e => e.kind = .declares ∧ e.target = d.id)
      = [.raw d.owner.id d.id .declares] := by
  have hnodup := h.memberDeclarations_nodup
  have hmembers : g.edges.toList.filter (fun e => e.kind = .declares ∧ e.target = d.id)
      = (m.memberDeclarations.flatMap (·.memberEdges m.declares)).filter
          (fun e => e.kind = .declares ∧ e.target = d.id) := by
    rw [← m.filter_edges_members derived, ← h.edges, List.filter_filter]
    refine List.filter_congr fun e _ => ?_
    by_cases hkind : e.kind = .declares <;> simp [hkind]
  have hother : ∀ d' ∈ m.memberDeclarations, d' ≠ d →
      (d'.memberEdges m.declares).filter (fun e => e.kind = .declares ∧ e.target = d.id) = [] := by
    intro d' hd' hne
    refine List.filter_eq_nil_iff.2 fun e he hdecl => hne ?_
    obtain ⟨hkind, htarget⟩ := of_decide_eq_true hdecl
    have hmember : e.target = d'.id := Declaration.target_of_mem_memberEdges he hkind
    exact List.inj_on_of_nodup_map hnodup hd' hd (hmember.symm.trans htarget)
  have hown : (d.memberEdges m.declares).filter (fun e => e.kind = .declares ∧ e.target = d.id)
      = [.raw d.owner.id d.id .declares] := by
    rw [← d.filter_declares_memberEdges m.declares]
    refine List.filter_congr fun e he => ?_
    by_cases hkind : e.kind = .declares
    · simp [hkind, Declaration.target_of_mem_memberEdges he hkind]
    · simp [hkind]
  rw [hmembers, List.filter_flatMap,
    flatMap_eq_of_forall_ne (List.Nodup.of_map _ hnodup) hd hother, hown]

/-- A node with a declaring type is that of a member. -/
theorem Builds.exists_member_of_owner {n : Node} {owner : NodeId} (hn : n ∈ g.nodes)
    (howner : n.owner? = some owner) :
    ∃ t ∈ m.types, ∃ d ∈ t.members, d.node = n ∧ t.id = owner := by
  rw [h.mem_nodes] at hn
  rcases List.mem_append.1 hn with hn | hn
  · obtain ⟨t, -, rfl⟩ := List.mem_map.1 hn
    exact absurd howner (by simp [Node.owner?])
  · obtain ⟨t, ht, hnt⟩ := List.mem_flatMap.1 hn
    have hnode := SourceType.owner?_of_mem_memberNodes hnt
    rw [← SourceType.map_node_members] at hnt
    obtain ⟨d, hd, rfl⟩ := List.mem_map.1 hnt
    exact ⟨t, ht, d, hd, rfl, Option.some.inj (hnode.symm.trans howner)⟩

/-- Edges of the hierarchy that leave a type are those of its declaration. -/
theorem Builds.count_hierarchy {t : SourceType} (ht : t ∈ m.types) {e : Edge}
    (hsource : e.source = t.id) (hkind : e.kind = .extends ∨ e.kind = .implements) :
    g.edges.toList.count e = (t.hierarchyEdges m.declares).count e := by
  have hmembers : (t.members.flatMap (·.memberEdges m.declares)).count e = 0 := by
    refine List.count_eq_zero.2 fun hin => ?_
    obtain ⟨d, -, hed⟩ := List.mem_flatMap.1 hin
    rcases Declaration.kind_of_mem_memberEdges hed with hk | hk <;>
      rcases hkind with hkind | hkind <;> simp [hkind, EdgeKind.isTypeUsage] at hk
  have hown : ∀ e' : Edge, (e' == e) = true → e'.source ∈ t.nodeIds ∧ e'.kind ≠ .usesInSignature := by
    intro e' heq
    obtain rfl : e' = e := by simpa using heq
    refine ⟨hsource ▸ List.mem_cons_self, fun hk => ?_⟩
    rw [hk] at hkind
    simp at hkind
  rw [List.count_eq_length_filter, h.filter_edges_eq ht hown, ← List.count_eq_length_filter,
    SourceType.bodyEdges_eq, List.count_append, hmembers, Nat.add_zero]

end Built

/-- Of some references, those to a declared type are as many as name it. -/
theorem count_map_raw {m : Model} {u : SourceType} (hu : u ∈ m.types) (source : NodeId)
    (kind : EdgeKind) (refs : List TypeRef) :
    ((refs.filter fun r => m.declares r.name).map fun r => Edge.raw source (.ofType r.name) kind).count
      (.raw source u.id kind) = refs.countP (·.name = u.name) := by
  rw [List.count_eq_countP, List.countP_map, List.countP_filter]
  refine List.countP_congr fun r _ => ?_
  have hiff : Edge.raw source (.ofType r.name) kind = .raw source u.id kind ↔ r.name = u.name := by
    constructor
    · intro heq
      exact NodeId.ofType_injective (congrArg Edge.target heq)
    · intro hname
      rw [hname]
      rfl
  simp only [Function.comp_apply, beq_iff_eq, Bool.and_eq_true, decide_eq_true_eq, hiff]
  constructor
  · rintro ⟨hname, -⟩
    exact hname
  · intro hname
    exact ⟨hname, hname ▸ declares_of_mem hu⟩

theorem count_map_raw_of_ne {source target : NodeId} {kind other : EdgeKind} (hne : other ≠ kind)
    (refs : List TypeRef) :
    (refs.map fun r => Edge.raw source (.ofType r.name) other).count (.raw source target kind) = 0 := by
  refine List.count_eq_zero.2 fun hin => ?_
  obtain ⟨r, -, heq⟩ := List.mem_map.1 hin
  exact hne (congrArg Edge.kind heq)

/-- The raw edges of the graph of a model are the relations that its declarations state. A type is
extended by another as often as it is named there, at most once, and implemented as often as it is
listed. A relation of a type to a member or of a member to a type is one edge; and a member is
declared by one edge, which leaves the type that the member names as its own. -/
theorem raw_edges_are_stated {m : Model} {derived : Bool} {g : Graph}
    (hbuild : m.buildWith derived = .ok g) :
    (∀ e, e ∈ g.edges ∧ e.provenance = .raw ↔
      ∃ source kind target, m.States source kind target ∧ e = .raw source target kind) ∧
    (∀ t ∈ m.types, ∀ u ∈ m.types,
      g.edges.toList.count (.raw t.id u.id .extends)
        = t.superType.toList.countP (·.name = u.name) ∧
      g.edges.toList.count (.raw t.id u.id .implements)
        = t.interfaces.countP (·.name = u.name)) ∧
    ((g.edges.toList.filter fun e => e.kind = .declares ∨ e.kind.isTypeUsage = true).map
      Edge.relation).Nodup ∧
    ∀ n ∈ g.nodes, ∀ owner, n.owner? = some owner →
      (∃ t ∈ m.types, t.id = owner) ∧
      g.edges.toList.filter (fun e => e.kind = .declares ∧ e.target = n.id)
        = [.raw owner n.id .declares] := by
  have h := builds_of_buildWith hbuild
  refine ⟨?_, ?_, h.nodup_relation_members, ?_⟩
  · intro e
    rw [← m.mem_bodyEdges_iff, ← Array.mem_toList_iff, h.edges, edges, List.mem_append]
    constructor
    · rintro ⟨he | he, hraw⟩
      · exact he
      · obtain ⟨t, -, het⟩ := (of_mem_derived he).1
        exact absurd hraw (by simp [SourceType.provenance_of_mem_signatureEdges het])
    · intro he
      refine ⟨.inl he, ?_⟩
      obtain ⟨source, kind, target, -, rfl⟩ := m.mem_bodyEdges_iff.1 he
      rfl
  · intro t ht u hu
    rw [h.count_hierarchy ht rfl (.inl rfl), h.count_hierarchy ht rfl (.inr rfl),
      SourceType.hierarchyEdges, List.count_append, List.count_append,
      count_map_raw hu, count_map_raw hu, count_map_raw_of_ne (by simp),
      count_map_raw_of_ne (by simp)]
    exact ⟨Nat.add_zero _, Nat.zero_add _⟩
  · intro n hn owner howner
    obtain ⟨t, ht, d, hd, rfl, rfl⟩ := h.exists_member_of_owner hn howner
    have hfilter := h.filter_declares (List.mem_flatMap.2 ⟨t, ht, hd⟩)
    rw [SourceType.owner_of_mem_members hd] at hfilter
    rw [Declaration.id_node]
    exact ⟨⟨t, ht, rfl⟩, hfilter⟩

section Example

/-- The vessels on the route of a ship. -/
def route : SourceField where
  name := "route"
  type := ⟨"java.util.List", [.plain "fleet.Vessel"]⟩

/-- A ship is a vessel and lists an interface twice. -/
def ship : SourceType where
  name := "fleet.Ship"
  form := .plainClass
  superType := some (.plain "fleet.Vessel")
  interfaces := [.plain "fleet.Tracked", .plain "java.io.Serializable", .plain "fleet.Tracked"]
  fields := [route]

/-- A vessel declares nothing. -/
def vessel : SourceType := { name := "fleet.Vessel", form := .plainClass }

/-- A method that mentions ships in its result and both parameters, and its own type besides. -/
def follow : SourceMethod where
  name := "follow"
  returnType := ⟨"java.util.Map", [.plain "fleet.Ship", .plain "fleet.Ship"]⟩
  parameters := [
    { name := "leader", type := .plain "fleet.Ship" },
    { name := "since", type := ⟨"java.util.Map", [.plain "fleet.Tracked", .plain "fleet.Ship"]⟩ }]

/-- What is tracked can be followed. -/
def tracked : SourceType where
  name := "fleet.Tracked"
  form := .interface
  methods := [follow, { name := "reset", returnType := .void }]

/-- A fleet of ships. -/
def fleet : Model := { types := [ship, vessel, tracked] }

/-- In the fleet the interface that a ship lists twice is two edges, the vessels that a list of its
holds are one, and its field is declared by it and by nothing else. -/
theorem fleet_edges_stated :
    ∃ g, fleet.buildWith true = .ok g ∧
      g.edges.toList.count (.raw ship.id tracked.id .implements) = 2 ∧
      Edge.raw (Declaration.field ship route).id vessel.id .fieldType ∈ g.edges ∧
      g.edges.toList.filter
          (fun e => e.kind = .declares ∧ e.target = (Declaration.field ship route).id)
        = [.raw ship.id (Declaration.field ship route).id .declares] := by
  obtain ⟨g, hg⟩ := Error.exists_of_isOk ((fleet.isOk_buildWith_iff true).2 (by decide))
  obtain ⟨hstated, hhierarchy, -, hdeclared⟩ := raw_edges_are_stated hg
  have hship : ship ∈ fleet.types := by simp [fleet]
  have hvessel : vessel ∈ fleet.types := by simp [fleet]
  have htracked : tracked ∈ fleet.types := by simp [fleet]
  have hroute : Node.field (ship.fieldNode route) ∈ g.nodes := by
    rw [(builds_of_buildWith hg).mem_nodes]
    exact List.mem_append_right _ List.mem_cons_self
  have hmentions : route.type.Mentions vessel.name := .argument List.mem_cons_self (.own _ _)
  refine ⟨g, hg, (hhierarchy ship hship tracked htracked).2, ?_, (hdeclared _ hroute _ rfl).2⟩
  exact ((hstated _).2 ⟨_, _, _, .fieldType hship hvessel List.mem_cons_self hmentions, rfl⟩).1

end Example

end Model

end RoleAudit
