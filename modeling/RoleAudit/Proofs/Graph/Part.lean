import RoleAudit.Criterion.Shape
import RoleAudit.Proofs.Graph.Superclasses

/-!
# Parts of a graph

A base of a graph has some of its nodes, with all edges that leave one of them. The members in it look
for types, their owner and the types of their fields and parameters, and find in the whole graph what
they find in the base. What stands on the base may refer to it and is not referred to. So a question
that follows edges from a node of the base has one answer in both graphs, and one that follows them
backwards has the answer of the base and more.

A part is a base that has also all edges that enter one of its nodes. Then no question about a node of
the part leads out of it: the answer in the whole graph is the answer in the part.
-/

namespace RoleAudit

/-- Look-ups that give back their key can be filtered before or after. -/
theorem filter_filterMap_of_key {ι β : Type} {look look' : ι → Option β} {key : β → ι}
    {inside : ι → Bool} (hkey : ∀ i b, look i = some b → key b = i)
    (hlook : ∀ i, inside i = true → look i = look' i) (l : List ι) :
    (l.filterMap look).filter (fun b => inside (key b)) = (l.filter inside).filterMap look' := by
  rw [List.filter_filterMap, List.filterMap_filter]
  refine List.filterMap_congr fun i _ => ?_
  cases hi : look i with
  | none =>
    cases hinside : inside i with
    | false => rfl
    | true => simp [← hlook i hinside, hi]
  | some b =>
    obtain rfl : key b = i := hkey i b hi
    cases hinside : inside (key b) with
    | false => simp [Option.filter, hinside]
    | true => simp [Option.filter, hinside, ← hlook _ hinside, hi]

/-- The ids under which types are looked up for a member: its owner, the type of a field and those of
the parameters of a constructor. -/
def Node.soughtTypes : Node → List NodeId
  | .type _ => []
  | .field f => [f.owner, .ofType f.type.name]
  | .method m => [m.owner]
  | .constructor c => c.owner :: c.parameters.map (.ofType ·.type.name)

namespace Graph

section Indexed

variable {g : Graph} (h : g.Indexed)

include h

theorem Indexed.mem_nodeIds_of_node? {id : NodeId} {n : Node} (hn : g.node? id = some n) :
    id ∈ g.nodeIds := by
  obtain ⟨hmem, rfl⟩ := h.node?_eq_some.1 hn
  exact List.mem_map_of_mem (Array.mem_toList_iff.2 hmem)

theorem Indexed.mem_nodeIds_of_type? {id : NodeId} {t : TypeNode} (ht : g.type? id = some t) :
    id ∈ g.nodeIds := by
  obtain ⟨n, hn, -⟩ := Option.bind_eq_some_iff.1 ht
  exact h.mem_nodeIds_of_node? hn

theorem Indexed.mem_nodeIds_of_mem_types {t : TypeNode} (ht : t ∈ g.types) : t.id ∈ g.nodeIds := by
  rw [h.types_eq] at ht
  exact h.mem_nodeIds_of_type? (h.type?_eq_some.2 ⟨ht, rfl⟩)

theorem Indexed.mem_nodeIds_of_mem_resolveTypes {ids : List NodeId} {t : TypeNode}
    (ht : t ∈ g.resolveTypes ids) : t.id ∈ g.nodeIds :=
  h.mem_nodeIds_of_type? (h.type?_of_mem_resolveTypes ht).2

theorem Indexed.mem_nodes_of_mem_resolve {ids : List NodeId} {n : Node}
    (hn : n ∈ g.resolve ids) : n ∈ g.nodes := by
  obtain ⟨id, -, hid⟩ := List.mem_filterMap.1 hn
  exact (h.node?_eq_some.1 hid).1

theorem Indexed.field_mem_nodes {ids : List NodeId} {f : FieldNode}
    (hf : f ∈ (g.resolve ids).filterMap Node.field?) : .field f ∈ g.nodes := by
  obtain ⟨n, hn, hfield⟩ := List.mem_filterMap.1 hf
  obtain rfl := Node.field?_eq_some.1 hfield
  exact h.mem_nodes_of_mem_resolve hn

theorem Indexed.constructor_mem_nodes {ids : List NodeId} {c : ConstructorNode}
    (hc : c ∈ (g.resolve ids).filterMap Node.constructor?) : .constructor c ∈ g.nodes := by
  obtain ⟨n, hn, hconstructor⟩ := List.mem_filterMap.1 hc
  obtain rfl := Node.constructor?_eq_some.1 hconstructor
  exact h.mem_nodes_of_mem_resolve hn

theorem Indexed.mem_nodeIds_of_mem_targetsOf {kind : EdgeKind} {id target : NodeId}
    (ht : target ∈ g.targetsOf kind id) : target ∈ g.nodeIds := by
  obtain ⟨e, he, rfl⟩ := List.mem_map.1 ht
  exact (h.ends e (Array.mem_toList_iff.1 (List.mem_filter.1 he).1)).2

theorem Indexed.mem_nodeIds_of_mem_sourcesOf {kind : EdgeKind} {id source : NodeId}
    (hs : source ∈ g.sourcesOf kind id) : source ∈ g.nodeIds := by
  obtain ⟨e, he, rfl⟩ := List.mem_map.1 hs
  exact (h.ends e (Array.mem_toList_iff.1 (List.mem_filter.1 he).1)).1

theorem Indexed.mem_nodeIds_of_supertypeOf? {id : NodeId} {t : TypeNode}
    (ht : g.supertypeOf? id = some t) : t.id ∈ g.nodeIds :=
  h.mem_nodeIds_of_type? (h.type?_of_supertypeOf? ht)

end Indexed

/-- The first graph is a base of the second. -/
structure Base (p g : Graph) : Prop where
  /-- The look-ups of the base are scans. -/
  indexed : p.Indexed
  /-- The look-ups of the whole graph are scans. -/
  whole : g.Indexed
  /-- The nodes of the base are nodes of the whole. -/
  nodes : ∀ n ∈ p.nodes, n ∈ g.nodes
  /-- The edges that leave a node of the base are those of the base, in order. -/
  edges : g.edges.toList.filter (·.source ∈ p.nodeIds) = p.edges.toList
  /-- A member is in the base if its owner is. -/
  owners : ∀ n ∈ g.nodes, ∀ owner, n.owner? = some owner → (owner ∈ p.nodeIds ↔ n.id ∈ p.nodeIds)
  /-- The types that a member of the base looks for are in the base or nowhere. -/
  closed : ∀ n ∈ p.nodes, ∀ id ∈ n.soughtTypes, g.type? id = p.type? id

/-- The first graph is a part of the second. -/
structure Part (p g : Graph) : Prop extends Base p g where
  /-- The edges that enter a node of the part are in the part. -/
  incoming : ∀ id ∈ p.nodeIds,
    g.edges.toList.filter (·.target = id) = p.edges.toList.filter (·.target = id)

namespace Base

variable {p g : Graph} (h : p.Base g)

include h

/-! ## Nodes and edges -/

theorem node?_eq {id : NodeId} (hid : id ∈ p.nodeIds) : g.node? id = p.node? id := by
  obtain ⟨n, hn, rfl⟩ := List.mem_map.1 hid
  have hmem : n ∈ p.nodes := Array.mem_toList_iff.1 hn
  rw [h.whole.node?_eq_some.2 ⟨h.nodes n hmem, rfl⟩, h.indexed.node?_eq_some.2 ⟨hmem, rfl⟩]

theorem type?_eq {id : NodeId} (hid : id ∈ p.nodeIds) : g.type? id = p.type? id := by
  rw [type?, type?, h.node?_eq hid]

theorem resolve_eq {ids : List NodeId} (hids : ∀ id ∈ ids, id ∈ p.nodeIds) :
    g.resolve ids = p.resolve ids :=
  List.filterMap_congr fun id hid => h.node?_eq (hids id hid)

theorem resolveTypes_eq {ids : List NodeId} (hids : ∀ id ∈ ids, id ∈ p.nodeIds) :
    g.resolveTypes ids = p.resolveTypes ids :=
  List.filterMap_congr fun id hid => h.type?_eq (hids id hid)

theorem outgoing {id : NodeId} (hid : id ∈ p.nodeIds) :
    g.edges.toList.filter (·.source = id) = p.edges.toList.filter (·.source = id) := by
  rw [← h.edges, List.filter_filter]
  refine List.filter_congr fun e _ => ?_
  by_cases hsource : e.source = id
  · simp [hsource, hid]
  · simp [hsource]

theorem typeCount_le : p.typeCount ≤ g.typeCount := by
  have hsub : p.indexes.types.toList ⊆ g.indexes.types.toList := by
    rw [h.indexed.types, h.whole.types]
    intro id hid
    obtain ⟨n, hn, rfl⟩ := List.mem_map.1 hid
    obtain ⟨hmem, htype⟩ := List.mem_filter.1 hn
    have hwhole : n ∈ g.nodes.toList :=
      Array.mem_toList_iff.2 (h.nodes n (Array.mem_toList_iff.1 hmem))
    exact List.mem_map_of_mem (List.mem_filter.2 ⟨hwhole, htype⟩)
  simpa [typeCount] using (List.subperm_of_subset h.indexed.typeIds_nodup hsub).length_le

section Node

variable {id : NodeId} (hid : id ∈ p.nodeIds)

include hid

theorem targetsOf_eq (kind : EdgeKind) : g.targetsOf kind id = p.targetsOf kind id := by
  rw [targetsOf_eq_outgoing, targetsOf_eq_outgoing, h.outgoing hid]

theorem signatureProofs_eq (used : NodeId) :
    g.signatureProofs id used = p.signatureProofs id used := by
  rw [h.whole.signatureProofs, h.indexed.signatureProofs, proofsOf_eq_outgoing,
    proofsOf_eq_outgoing, h.outgoing hid]

/-! ## From the source of an edge -/

theorem resolveTypes_targets (kind : EdgeKind) :
    g.resolveTypes (distinct (g.targetsOf kind id)) = p.resolveTypes (distinct (p.targetsOf kind id)) := by
  rw [h.targetsOf_eq hid]
  exact h.resolveTypes_eq fun target htarget =>
    h.indexed.mem_nodeIds_of_mem_targetsOf (mem_distinct.1 htarget)

theorem membersOf_eq : g.membersOf id = p.membersOf id := by
  rw [membersOf, membersOf, h.whole.declaredMembers, h.indexed.declaredMembers, h.targetsOf_eq hid]
  exact h.resolve_eq fun target htarget =>
    h.indexed.mem_nodeIds_of_mem_targetsOf (mem_distinct.1 htarget)

theorem fieldsOf_eq : g.fieldsOf id = p.fieldsOf id := by
  rw [fieldsOf, fieldsOf, h.membersOf_eq hid]

theorem methodsOf_eq : g.methodsOf id = p.methodsOf id := by
  rw [methodsOf, methodsOf, h.membersOf_eq hid]

theorem constructorsOf_eq : g.constructorsOf id = p.constructorsOf id := by
  rw [constructorsOf, constructorsOf, h.membersOf_eq hid]

theorem supertypeOf?_eq : g.supertypeOf? id = p.supertypeOf? id := by
  rw [supertypeOf?, supertypeOf?, h.whole.supertypes, h.indexed.supertypes,
    h.resolveTypes_targets hid]

theorem interfacesOf_eq : g.interfacesOf id = p.interfacesOf id := by
  rw [interfacesOf, interfacesOf, h.whole.implementedInterfaces, h.indexed.implementedInterfaces,
    h.resolveTypes_targets hid]

theorem signatureTypesOf_eq : g.signatureTypesOf id = p.signatureTypesOf id := by
  rw [signatureTypesOf, signatureTypesOf, h.whole.signatureTypes, h.indexed.signatureTypes,
    h.resolveTypes_targets hid]

theorem instanceFieldsOf_eq : g.instanceFieldsOf id = p.instanceFieldsOf id := by
  rw [instanceFieldsOf, instanceFieldsOf, h.fieldsOf_eq hid]

end Node

/-! ## From the target of an edge -/

theorem sourcesOf_filter (kind : EdgeKind) (id : NodeId) :
    (g.sourcesOf kind id).filter (· ∈ p.nodeIds) = p.sourcesOf kind id := by
  rw [sourcesOf, sourcesOf, ← h.edges, List.filter_map, List.filter_filter, List.filter_filter]
  simp only [Function.comp_def, Bool.and_comm]

theorem resolve_filter (ids : List NodeId) :
    (g.resolve ids).filter (·.id ∈ p.nodeIds) = p.resolve (ids.filter (· ∈ p.nodeIds)) :=
  filter_filterMap_of_key (fun _ _ hn => (h.whole.node?_eq_some.1 hn).2)
    (fun _ hid => h.node?_eq (of_decide_eq_true hid)) ids

theorem resolveTypes_filter (ids : List NodeId) :
    (g.resolveTypes ids).filter (·.id ∈ p.nodeIds) = p.resolveTypes (ids.filter (· ∈ p.nodeIds)) :=
  filter_filterMap_of_key (fun _ _ ht => (h.whole.type?_eq_some.1 ht).2)
    (fun _ hid => h.type?_eq (of_decide_eq_true hid)) ids

/-- Of the members of some sort that lead to a node, those with an owner in the base are those of the
base. -/
theorem owners_filter {β : Type} {member? : Node → Option β} {owner : β → NodeId}
    (howner : ∀ n b, member? n = some b → n.owner? = some (owner b)) (kind : EdgeKind) (id : NodeId) :
    (((g.resolve (distinct (g.sourcesOf kind id))).filterMap member?).map owner).filter
        (· ∈ p.nodeIds)
      = ((p.resolve (distinct (p.sourcesOf kind id))).filterMap member?).map owner := by
  rw [← h.sourcesOf_filter, distinct_filter, ← h.resolve_filter, List.filter_map,
    List.filter_filterMap, List.filterMap_filter]
  refine congrArg (List.map owner) (List.filterMap_congr fun n hn => ?_)
  cases hmember : member? n with
  | none => simp
  | some b =>
    have hin := h.owners n (h.whole.mem_nodes_of_mem_resolve hn) _ (howner n b hmember)
    simp [Option.filter, hin]

theorem implementorsOf_filter (id : NodeId) :
    (g.implementorsOf id).filter (·.id ∈ p.nodeIds) = p.implementorsOf id := by
  rw [implementorsOf, implementorsOf, h.whole.implementors, h.indexed.implementors,
    h.resolveTypes_filter, ← distinct_filter, h.sourcesOf_filter]

theorem typesInjecting_filter (id : NodeId) :
    (g.typesInjecting id).filter (·.id ∈ p.nodeIds) = p.typesInjecting id := by
  have hfields : ((g.fieldsOfType id).map (·.owner)).filter (· ∈ p.nodeIds)
      = (p.fieldsOfType id).map (·.owner) := by
    rw [fieldsOfType, fieldsOfType, h.whole.fieldsByType, h.indexed.fieldsByType]
    refine h.owners_filter (fun n f hf => ?_) _ id
    rw [Node.field?_eq_some.1 hf, Node.owner?]
  have hconstructors :
      (((g.membersWithParameter id).filterMap Node.constructor?).map (·.owner)).filter (· ∈ p.nodeIds)
        = ((p.membersWithParameter id).filterMap Node.constructor?).map (·.owner) := by
    rw [membersWithParameter, membersWithParameter, h.whole.membersByParameterType,
      h.indexed.membersByParameterType]
    refine h.owners_filter (fun n c hc => ?_) _ id
    rw [Node.constructor?_eq_some.1 hc, Node.owner?]
  rw [typesInjecting, typesInjecting, h.resolveTypes_filter, ← distinct_filter, List.filter_append,
    hfields, hconstructors]

/-! ## Owners and hierarchies -/

theorem type?_owner_of_fieldsOfType {id owner : NodeId}
    (howner : owner ∈ (p.fieldsOfType id).map (·.owner)) : g.type? owner = p.type? owner := by
  obtain ⟨f, hf, rfl⟩ := List.mem_map.1 howner
  exact h.closed _ (h.indexed.field_mem_nodes hf) _ List.mem_cons_self

theorem type?_owner_of_membersWithParameter {id owner : NodeId}
    (howner : owner ∈ ((p.membersWithParameter id).filterMap Node.constructor?).map (·.owner)) :
    g.type? owner = p.type? owner := by
  obtain ⟨c, hc, rfl⟩ := List.mem_map.1 howner
  exact h.closed _ (h.indexed.constructor_mem_nodes hc) _ List.mem_cons_self

theorem supertypeChain_eq (fuel : Nat) (seen : List NodeId) {id : NodeId} (hid : id ∈ p.nodeIds) :
    g.supertypeChain fuel seen id = p.supertypeChain fuel seen id := by
  induction fuel generalizing seen id with
  | zero => rfl
  | succ fuel ih =>
    rw [supertypeChain, supertypeChain, h.supertypeOf?_eq hid]
    cases hsuper : p.supertypeOf? id with
    | none => rfl
    | some t => simp only [ih _ (h.indexed.mem_nodeIds_of_supertypeOf? hsuper)]

/-- The whole graph has more fuel, which the part does not need. -/
theorem supertypesOf_eq {id : NodeId} (hid : id ∈ p.nodeIds) :
    g.supertypesOf id = p.supertypesOf id := by
  rw [supertypesOf, h.supertypeChain_eq _ _ hid, h.indexed.supertypeChain_of_le h.typeCount_le]

/-! ## The shape of a type -/

section Shape

variable {t : TypeNode} (ht : t.id ∈ p.nodeIds)

include ht

theorem identityField?_eq : g.identityField? t = p.identityField? t := by
  rw [identityField?, identityField?, h.instanceFieldsOf_eq ht]

theorem hasIdentity_eq : g.hasIdentity t = p.hasIdentity t := by
  rw [hasIdentity, hasIdentity, h.identityField?_eq ht]

theorem isImmutable_eq : g.isImmutable t = p.isImmutable t := by
  rw [isImmutable, isImmutable, h.instanceFieldsOf_eq ht, h.methodsOf_eq ht]

end Shape

end Base

namespace Part

variable {p g : Graph} (h : p.Part g)

include h

/-! ## From the target of an edge -/

section Node

variable {id : NodeId} (hid : id ∈ p.nodeIds)

include hid

theorem sourcesOf_eq (kind : EdgeKind) : g.sourcesOf kind id = p.sourcesOf kind id := by
  rw [sourcesOf_eq_incoming, sourcesOf_eq_incoming, h.incoming id hid]

theorem resolveTypes_sources (kind : EdgeKind) :
    g.resolveTypes (distinct (g.sourcesOf kind id)) = p.resolveTypes (distinct (p.sourcesOf kind id)) := by
  rw [h.sourcesOf_eq hid]
  exact h.resolveTypes_eq fun source hsource =>
    h.indexed.mem_nodeIds_of_mem_sourcesOf (mem_distinct.1 hsource)

theorem resolve_sources (kind : EdgeKind) :
    g.resolve (distinct (g.sourcesOf kind id)) = p.resolve (distinct (p.sourcesOf kind id)) := by
  rw [h.sourcesOf_eq hid]
  exact h.resolve_eq fun source hsource =>
    h.indexed.mem_nodeIds_of_mem_sourcesOf (mem_distinct.1 hsource)

theorem implementorsOf_eq : g.implementorsOf id = p.implementorsOf id := by
  rw [implementorsOf, implementorsOf, h.whole.implementors, h.indexed.implementors,
    h.resolveTypes_sources hid]

theorem interfacesUsing_eq : g.interfacesUsing id = p.interfacesUsing id := by
  rw [interfacesUsing, interfacesUsing, h.whole.signatureUsers, h.indexed.signatureUsers,
    h.resolveTypes_sources hid]

theorem fieldsOfType_eq : g.fieldsOfType id = p.fieldsOfType id := by
  rw [fieldsOfType, fieldsOfType, h.whole.fieldsByType, h.indexed.fieldsByType,
    h.resolve_sources hid]

theorem membersWithParameter_eq : g.membersWithParameter id = p.membersWithParameter id := by
  rw [membersWithParameter, membersWithParameter, h.whole.membersByParameterType,
    h.indexed.membersByParameterType, h.resolve_sources hid]

end Node

theorem typesInjecting_eq {id : NodeId} (hid : id ∈ p.nodeIds) :
    g.typesInjecting id = p.typesInjecting id := by
  rw [typesInjecting, typesInjecting, h.fieldsOfType_eq hid, h.membersWithParameter_eq hid]
  refine List.filterMap_congr fun owner howner => ?_
  rcases List.mem_append.1 (mem_distinct.1 howner) with hfield | hconstructor
  · exact h.type?_owner_of_fieldsOfType hfield
  · exact h.type?_owner_of_membersWithParameter hconstructor

end Part

end Graph

end RoleAudit
