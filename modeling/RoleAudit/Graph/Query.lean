import RoleAudit.Distinct
import RoleAudit.Graph.Basic

/-!
# Questions to a graph

What relates a type to its members, its supertypes and the types around it. Every answer comes from
the look-ups and is in the order in which the nodes or edges behind it arrived. Ids that a look-up
gives and that are not of the kind asked for are left out.
-/

namespace RoleAudit.Graph

variable (g : Graph)

/-- The nodes of some ids. -/
def resolve (ids : List NodeId) : List Node := ids.filterMap g.node?

/-- The types among some ids. -/
def resolveTypes (ids : List NodeId) : List TypeNode := ids.filterMap g.type?

/-! ## Nodes by property -/

/-- All types. -/
def types : List TypeNode := g.resolveTypes g.indexes.types.toList

/-- The types of a form. -/
def typesOfForm (form : TypeForm) : List TypeNode :=
  g.resolveTypes (g.indexes.byForm.get form.label)

/-- All interfaces. -/
def interfaces : List TypeNode := g.typesOfForm .interface

/-- The types of a package. -/
def typesInPackage (package : String) : List TypeNode :=
  g.resolveTypes (g.indexes.byPackage.get package)

/-- The nodes that carry the annotation of a qualified name. -/
def annotatedWith (name : String) : List Node := g.resolve (g.indexes.byAnnotation.get name)

/-! ## Members -/

/-- The members that a type declares. -/
def membersOf (id : NodeId) : List Node := g.resolve (g.indexes.declaredMembers.get id)

/-- The fields that a type declares. -/
def fieldsOf (id : NodeId) : List FieldNode := (g.membersOf id).filterMap Node.field?

/-- The methods that a type declares. -/
def methodsOf (id : NodeId) : List MethodNode := (g.membersOf id).filterMap Node.method?

/-- The constructors that a type declares. -/
def constructorsOf (id : NodeId) : List ConstructorNode :=
  (g.membersOf id).filterMap Node.constructor?

/-- The type that declares a member. -/
def declaringTypeOf? (member : NodeId) : Option TypeNode :=
  (g.indexes.declaringType.get? member).bind g.type?

/-! ## Hierarchy -/

/-- The nearest superclass. -/
def supertypeOf? (id : NodeId) : Option TypeNode :=
  (g.resolveTypes (g.indexes.supertypes.get id)).head?

/-- The superclasses above a type, nearest first, up to one in `seen` or to the end of `fuel`. -/
def supertypeChain : Nat → List NodeId → NodeId → List TypeNode
  | 0, _, _ => []
  | fuel + 1, seen, id =>
    match g.supertypeOf? id with
    | none => []
    | some t => if t.id ∈ seen then [] else t :: supertypeChain fuel (t.id :: seen) t.id

/-- All superclasses, nearest first. A hierarchy that runs in a circle ends before the first repeat;
no chain is longer than there are types. -/
def supertypesOf (id : NodeId) : List TypeNode := g.supertypeChain g.typeCount [] id

/-- The types that extend a type. -/
def subtypesOf (id : NodeId) : List TypeNode := g.resolveTypes (g.indexes.subtypes.get id)

/-- The interfaces that a type implements. -/
def interfacesOf (id : NodeId) : List TypeNode :=
  g.resolveTypes (g.indexes.implementedInterfaces.get id)

/-- The types that implement an interface. -/
def implementorsOf (id : NodeId) : List TypeNode := g.resolveTypes (g.indexes.implementors.get id)

/-! ## Uses of a type -/

/-- The fields whose type mentions a type. -/
def fieldsOfType (id : NodeId) : List FieldNode :=
  (g.resolve (g.indexes.fieldsByType.get id)).filterMap Node.field?

/-- The methods whose result mentions a type. -/
def methodsReturning (id : NodeId) : List MethodNode :=
  (g.resolve (g.indexes.methodsByReturnType.get id)).filterMap Node.method?

/-- The methods and constructors with a parameter that mentions a type. -/
def membersWithParameter (id : NodeId) : List Node :=
  g.resolve (g.indexes.membersByParameterType.get id)

/-- The methods with a parameter that mentions a type. -/
def methodsWithParameter (id : NodeId) : List MethodNode :=
  (g.membersWithParameter id).filterMap Node.method?

/-- The interfaces whose signatures mention a type. -/
def interfacesUsing (id : NodeId) : List TypeNode :=
  g.resolveTypes (g.indexes.signatureUsers.get id)

/-- The types that the signatures of an interface mention. -/
def signatureTypesOf (interface : NodeId) : List TypeNode :=
  g.resolveTypes (g.indexes.signatureTypes.get interface)

/-- The places where the signatures of an interface mention a type. -/
def signatureProofs (interface used : NodeId) : List EdgeProof :=
  g.indexes.signatureProofs.get (interface, used)

/-- The types with a field or a constructor parameter that mentions a type, field owners first. -/
def typesInjecting (id : NodeId) : List TypeNode :=
  let fieldOwners := (g.fieldsOfType id).map (·.owner)
  let constructorOwners :=
    ((g.membersWithParameter id).filterMap Node.constructor?).map (·.owner)
  g.resolveTypes (distinct (fieldOwners ++ constructorOwners))

/-- The types that a type depends on: superclasses, then interfaces, then what its members mention.
The type itself is not among them. -/
def dependenciesOf (id : NodeId) : List NodeId :=
  let hierarchy := g.indexes.supertypes.get id ++ g.indexes.implementedInterfaces.get id
  let mentioned := (g.indexes.declaredMembers.get id).flatMap fun member =>
    ((g.edgesFrom member).filter (·.kind.isTypeUsage)).map (·.target)
  distinctFrom [id] (hierarchy ++ mentioned)

end RoleAudit.Graph
