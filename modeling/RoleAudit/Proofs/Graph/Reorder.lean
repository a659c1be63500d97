import RoleAudit.Criterion.Shape
import RoleAudit.Proofs.Graph.Scan

/-!
# Graphs that differ in the order of their nodes

Two graphs are reordered if they have the same nodes and the same edges, and the edges that leave one
node come in the same order. Then everything that is asked from the source of an edge has the same
answer in both graphs, and everything that is asked from its target, or of all nodes, has the same
answer up to order.
-/

namespace RoleAudit

variable {α : Type} [DecidableEq α]

theorem distinct_perm {l l' : List α} (h : l.Perm l') : (distinct l).Perm (distinct l') :=
  (List.perm_ext_iff_of_nodup (nodup_distinct l) (nodup_distinct l')).2 fun a => by
    rw [mem_distinct, mem_distinct, h.mem_iff]

namespace Graph

/-- The same nodes and edges in another order, which the edges from one node keep. -/
structure Reordered (g g' : Graph) : Prop where
  /-- The look-ups of the first graph are scans. -/
  indexed : g.Indexed
  /-- The look-ups of the second graph are scans. -/
  indexed' : g'.Indexed
  /-- They have the same nodes. -/
  nodes : g'.nodes.toList.Perm g.nodes.toList
  /-- They have the same edges. -/
  edges : g'.edges.toList.Perm g.edges.toList
  /-- The edges that leave a node keep their order. -/
  outgoing : ∀ id, g'.edges.toList.filter (·.source = id) = g.edges.toList.filter (·.source = id)

namespace Reordered

variable {g g' : Graph} (h : Reordered g g')

include h

/-! ## What stays the same -/

theorem node?_eq (id : NodeId) : g'.node? id = g.node? id := by
  refine Option.ext fun n => ?_
  rw [h.indexed'.node?_eq_some, h.indexed.node?_eq_some, ← Array.mem_toList_iff,
    ← Array.mem_toList_iff, h.nodes.mem_iff]

theorem type?_eq (id : NodeId) : g'.type? id = g.type? id := by
  rw [type?, type?, h.node?_eq]

theorem contains_eq (id : NodeId) : g'.contains id = g.contains id := by
  have hmem : id ∈ g'.nodeIds ↔ id ∈ g.nodeIds := (h.nodes.map Node.id).mem_iff
  rw [Bool.eq_iff_iff, h.indexed'.contains_iff, h.indexed.contains_iff, hmem]

theorem resolve_eq (ids : List NodeId) : g'.resolve ids = g.resolve ids := by
  rw [resolve, resolve, funext h.node?_eq]

theorem resolveTypes_eq (ids : List NodeId) : g'.resolveTypes ids = g.resolveTypes ids := by
  rw [resolveTypes, resolveTypes, funext h.type?_eq]

theorem typeCount_eq : g'.typeCount = g.typeCount := by
  rw [typeCount, typeCount, ← Array.length_toList, ← Array.length_toList, h.indexed'.types,
    h.indexed.types, List.length_map, List.length_map, (h.nodes.filter _).length_eq]

theorem targetsOf_eq (kind : EdgeKind) (id : NodeId) :
    g'.targetsOf kind id = g.targetsOf kind id := by
  rw [targetsOf_eq_outgoing, targetsOf_eq_outgoing, h.outgoing]

theorem proofsOf_eq (interface used : NodeId) :
    g'.proofsOf interface used = g.proofsOf interface used := by
  rw [proofsOf_eq_outgoing, proofsOf_eq_outgoing, h.outgoing]

theorem edgesFrom_eq (id : NodeId) : g'.edgesFrom id = g.edgesFrom id := by
  rw [h.indexed'.outgoing, h.indexed.outgoing, h.outgoing]

theorem membersOf_eq (id : NodeId) : g'.membersOf id = g.membersOf id := by
  rw [membersOf, membersOf, h.indexed'.declaredMembers, h.indexed.declaredMembers,
    h.targetsOf_eq, h.resolve_eq]

theorem fieldsOf_eq (id : NodeId) : g'.fieldsOf id = g.fieldsOf id := by
  rw [fieldsOf, fieldsOf, h.membersOf_eq]

theorem methodsOf_eq (id : NodeId) : g'.methodsOf id = g.methodsOf id := by
  rw [methodsOf, methodsOf, h.membersOf_eq]

theorem constructorsOf_eq (id : NodeId) : g'.constructorsOf id = g.constructorsOf id := by
  rw [constructorsOf, constructorsOf, h.membersOf_eq]

theorem supertypeOf?_eq (id : NodeId) : g'.supertypeOf? id = g.supertypeOf? id := by
  rw [supertypeOf?, supertypeOf?, h.indexed'.supertypes, h.indexed.supertypes, h.targetsOf_eq,
    h.resolveTypes_eq]

theorem supertypesOf_eq (id : NodeId) : g'.supertypesOf id = g.supertypesOf id := by
  have hchain : ∀ fuel seen id, g'.supertypeChain fuel seen id = g.supertypeChain fuel seen id := by
    intro fuel
    induction fuel with
    | zero => intro seen id; rfl
    | succ fuel ih =>
      intro seen id
      rw [supertypeChain, supertypeChain, h.supertypeOf?_eq]
      cases g.supertypeOf? id with
      | none => rfl
      | some t => simp only [ih]
  rw [supertypesOf, supertypesOf, h.typeCount_eq, hchain]

theorem interfacesOf_eq (id : NodeId) : g'.interfacesOf id = g.interfacesOf id := by
  rw [interfacesOf, interfacesOf, h.indexed'.implementedInterfaces,
    h.indexed.implementedInterfaces, h.targetsOf_eq, h.resolveTypes_eq]

theorem signatureTypesOf_eq (id : NodeId) : g'.signatureTypesOf id = g.signatureTypesOf id := by
  rw [signatureTypesOf, signatureTypesOf, h.indexed'.signatureTypes, h.indexed.signatureTypes,
    h.targetsOf_eq, h.resolveTypes_eq]

theorem signatureProofs_eq (interface used : NodeId) :
    g'.signatureProofs interface used = g.signatureProofs interface used := by
  rw [h.indexed'.signatureProofs, h.indexed.signatureProofs, h.proofsOf_eq]

theorem dependenciesOf_eq (id : NodeId) : g'.dependenciesOf id = g.dependenciesOf id := by
  rw [dependenciesOf, dependenciesOf, h.indexed'.supertypes, h.indexed.supertypes,
    h.indexed'.implementedInterfaces, h.indexed.implementedInterfaces, h.indexed'.declaredMembers,
    h.indexed.declaredMembers]
  simp only [h.targetsOf_eq, h.edgesFrom_eq]

theorem instanceFieldsOf_eq (id : NodeId) : g'.instanceFieldsOf id = g.instanceFieldsOf id := by
  rw [instanceFieldsOf, instanceFieldsOf, h.fieldsOf_eq]

theorem identityField?_eq (t : TypeNode) : g'.identityField? t = g.identityField? t := by
  rw [identityField?, identityField?, h.instanceFieldsOf_eq]

theorem hasIdentity_eq (t : TypeNode) : g'.hasIdentity t = g.hasIdentity t := by
  rw [hasIdentity, hasIdentity, h.identityField?_eq]

theorem isImmutable_eq (t : TypeNode) : g'.isImmutable t = g.isImmutable t := by
  rw [isImmutable, isImmutable, h.instanceFieldsOf_eq, h.methodsOf_eq]

/-! ## What stays the same up to order -/

theorem types_perm : g'.types.Perm g.types := by
  rw [h.indexed'.types_eq, h.indexed.types_eq]
  exact h.nodes.filterMap _

theorem sourcesOf_perm (kind : EdgeKind) (id : NodeId) :
    (g'.sourcesOf kind id).Perm (g.sourcesOf kind id) :=
  (h.edges.filter _).map _

theorem implementorsOf_perm (id : NodeId) : (g'.implementorsOf id).Perm (g.implementorsOf id) := by
  rw [implementorsOf, implementorsOf, h.resolveTypes_eq, h.indexed'.implementors,
    h.indexed.implementors]
  exact (distinct_perm (h.sourcesOf_perm _ _)).filterMap _

theorem fieldsOfType_perm (id : NodeId) : (g'.fieldsOfType id).Perm (g.fieldsOfType id) := by
  rw [fieldsOfType, fieldsOfType, h.resolve_eq, h.indexed'.fieldsByType, h.indexed.fieldsByType]
  exact ((distinct_perm (h.sourcesOf_perm _ _)).filterMap _).filterMap _

theorem membersWithParameter_perm (id : NodeId) :
    (g'.membersWithParameter id).Perm (g.membersWithParameter id) := by
  rw [membersWithParameter, membersWithParameter, h.resolve_eq, h.indexed'.membersByParameterType,
    h.indexed.membersByParameterType]
  exact (distinct_perm (h.sourcesOf_perm _ _)).filterMap _

theorem interfacesUsing_perm (id : NodeId) :
    (g'.interfacesUsing id).Perm (g.interfacesUsing id) := by
  rw [interfacesUsing, interfacesUsing, h.resolveTypes_eq, h.indexed'.signatureUsers,
    h.indexed.signatureUsers]
  exact (distinct_perm (h.sourcesOf_perm _ _)).filterMap _

theorem typesInjecting_perm (id : NodeId) : (g'.typesInjecting id).Perm (g.typesInjecting id) := by
  rw [typesInjecting, typesInjecting, h.resolveTypes_eq]
  refine (distinct_perm ?_).filterMap _
  exact ((h.fieldsOfType_perm id).map _).append
    (((h.membersWithParameter_perm id).filterMap _).map _)

end Reordered

end Graph

end RoleAudit
