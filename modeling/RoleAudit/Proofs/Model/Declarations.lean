import RoleAudit.Proofs.Element.Naming
import RoleAudit.Proofs.Model.Build

/-!
# Declarations and their ids

A model declares types, fields, methods and constructors, and the names of a declaration give its id.
The ids of two declarations can be the same: two types can have one name, and as nothing is required
of a name, `a#b` with a field `c` and `a` with a field `b#c` give one id as well. They are never the
same for declarations of different kinds.

Two declarations with one id are the only fault that the graph of a model can have.
-/

namespace RoleAudit

/-- What a model declares. A member comes with the type that declares it. -/
inductive Declaration where
  | type (t : SourceType)
  | field (t : SourceType) (f : SourceField)
  | method (t : SourceType) (m : SourceMethod)
  | constructor (t : SourceType) (c : SourceConstructor)
  deriving DecidableEq, Repr

namespace Declaration

/-- The id that the names of a declaration give. -/
def id : Declaration → NodeId
  | type t => .ofType t.name
  | field t f => .ofField t.name f.name
  | method t m => .ofMethod t.name m.name (m.parameters.map (·.type.name))
  | constructor t c => .ofConstructor t.name (c.parameters.map (·.type.name))

/-- What is declared. -/
def kind : Declaration → NodeKind
  | type _ => .type
  | field .. => .field
  | method .. => .method
  | constructor .. => .constructor

/-- The node of a declaration. -/
def node : Declaration → Node
  | type t => .type t.toNode
  | field t f => .field (t.fieldNode f)
  | method t m => .method (t.methodNode m)
  | constructor t c => .constructor (t.constructorNode c)

theorem id_node (d : Declaration) : d.node.id = d.id := by
  cases d <;> rfl

/-- What the id of a declaration is made from. -/
def origin : Declaration → NodeId.Origin
  | type t => .type t.name
  | field t f => .field t.name f.name
  | method t m => .method t.name m.name (m.parameters.map (·.type.name))
  | constructor t c => .constructor t.name (c.parameters.map (·.type.name))

theorem id_origin (d : Declaration) : d.origin.id = d.id := by
  cases d <;> rfl

theorem kind_origin (d : Declaration) : d.origin.kind = d.kind := by
  cases d <;> rfl

/-- The id of a declaration tells its kind, whatever the names in it are. -/
theorem kind_eq_of_id_eq {a b : Declaration} (h : a.id = b.id) : a.kind = b.kind := by
  rw [← id_origin, ← id_origin] at h
  rw [← kind_origin, ← kind_origin, NodeId.Origin.kind_eq_of_id_eq h]

end Declaration

/-- The members of a type: fields, methods, constructors. -/
def SourceType.members (t : SourceType) : List Declaration :=
  t.fields.map (.field t) ++ t.methods.map (.method t) ++ t.constructors.map (.constructor t)

theorem SourceType.map_node_members (t : SourceType) :
    t.members.map Declaration.node = t.memberNodes := by
  simp only [members, memberNodes, List.map_append, List.map_map]
  rfl

namespace Model

/-- All declarations: the types, then the members type by type. -/
def declarations (m : Model) : List Declaration :=
  m.types.map .type ++ m.types.flatMap SourceType.members

theorem map_node_declarations (m : Model) : m.declarations.map Declaration.node = m.nodes := by
  rw [declarations, nodes, List.map_append, List.map_map, List.map_flatMap]
  simp only [SourceType.map_node_members]
  rfl

theorem map_id_declarations (m : Model) :
    m.declarations.map Declaration.id = m.nodes.map Node.id := by
  rw [← map_node_declarations, List.map_map]
  exact List.map_congr_left fun d _ => d.id_node.symm

/-- The build stops at the first declaration whose id is taken, and nowhere else. -/
theorem buildWith_eq_error_iff (m : Model) (derived : Bool) (e : Error) :
    m.buildWith derived = .error e ↔
      ∃ id, Graph.FirstTaken [] (m.declarations.map Declaration.id) id ∧
        e = .duplicateNode id := by
  have hscoped : Insertion.Scoped (Graph.withMetadata m.metadata).nodeIds (m.insertions derived) :=
    m.scoped_insertions derived
  rw [buildWith, (Graph.Indexed.withMetadata m.metadata).addAll_eq_error_iff hscoped,
    nodesOf_insertions, map_id_declarations]
  rfl

/-- With the derived edges or without, the graph of a model has no dangling edge. There is an error
exactly if two declarations have one id; it names the first id, in the order of the declarations, that
an earlier one has. Two declarations with one id are always of one kind. -/
theorem build_fails_at_first_taken_id (m : Model) (derived : Bool) :
    (∀ source target kind missing,
      m.buildWith derived ≠ .error (.danglingEdge source target kind missing)) ∧
    ((∃ e, m.buildWith derived = .error e) ↔
      ∃ a b, [a, b].Sublist m.declarations ∧ a.id = b.id) ∧
    (∀ e, m.buildWith derived = .error e ↔ ∃ before d after,
      m.declarations = before ++ d :: after ∧ (before.map Declaration.id).Nodup ∧
        d.id ∈ before.map Declaration.id ∧ e = .duplicateNode d.id) ∧
    ∀ a b : Declaration, a.id = b.id → a.kind = b.kind := by
  refine ⟨?_, ?_, ?_, fun a b => Declaration.kind_eq_of_id_eq⟩
  · intro source target kind missing herror
    obtain ⟨id, -, hid⟩ := (m.buildWith_eq_error_iff derived _).1 herror
    exact Error.noConfusion hid
  · simp only [buildWith_eq_error_iff]
    rw [exists_comm]
    simp only [exists_and_left, exists_eq, and_true]
    rw [Graph.exists_firstTaken_iff List.nodup_nil, List.nil_append]
    rw [List.Nodup, List.pairwise_map, List.pairwise_iff_forall_sublist]
    push Not
    rfl
  · intro e
    rw [buildWith_eq_error_iff]
    constructor
    · rintro ⟨id, ⟨before, after, hids, hnodup, hid⟩, rfl⟩
      obtain ⟨ds, rest, hsplit, rfl, hrest⟩ := List.map_eq_append_iff.1 hids
      obtain ⟨d, later, rfl, rfl, -⟩ := List.map_eq_cons_iff.1 hrest
      exact ⟨ds, d, later, hsplit, hnodup, hid, rfl⟩
    · rintro ⟨before, d, after, hsplit, hnodup, hid, rfl⟩
      refine ⟨d.id, ⟨before.map Declaration.id, after.map Declaration.id, ?_, hnodup, hid⟩, rfl⟩
      rw [hsplit, List.map_append, List.map_cons]

/-- Two types can give one id to fields of different names. -/
example : (Declaration.field { name := "a#b", form := .record } { name := "c", type := .void }).id
    = (Declaration.field { name := "a", form := .record } { name := "b#c", type := .void }).id := by
  decide

end Model

end RoleAudit
