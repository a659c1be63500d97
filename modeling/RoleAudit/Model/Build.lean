import Std.Data.TreeSet
import RoleAudit.Distinct
import RoleAudit.Graph.Basic
import RoleAudit.Model.Basic

/-!
# From a model to its graph

A model is turned into a list of insertions, and the graph is what they make of the empty graph.

1. A node for every declared type.
2. Then, type by type, what the source states: the edges to a known superclass and to the known
   interfaces, and for each field, method and constructor its node, the edge from its declaring
   type, and an edge to every known type that it mentions, at any depth and once each.
3. Then, unless they are not wanted, the derived edges: from each interface to every other known
   type that a signature of it mentions, one for each place.

All types come before all edges, so no edge dangles; only two declarations with one id can fail.
-/

namespace RoleAudit

variable (known : String → Bool)

/-- The known names that some references mention, each once, in order. -/
def knownNames (refs : List TypeRef) : List String :=
  distinct ((TypeRef.namesOfAll refs).filter known)

/-- The edges from a member to the known types that it mentions. -/
def usageEdges (member : NodeId) (kind : EdgeKind) (refs : List TypeRef) : List Edge :=
  (knownNames known refs).map fun name => .raw member (.ofType name) kind

/-- A parameter of a node. -/
def SourceParameter.toParameter (p : SourceParameter) : Parameter :=
  { name := p.name, type := p.type, annotations := p.annotations }

namespace SourceType

variable (t : SourceType)

/-- The node of a type. -/
def toNode : TypeNode :=
  { TypeNode.ofName t.name t.form with
    modifiers := t.modifiers
    superType := t.superType
    interfaces := t.interfaces
    annotations := t.annotations
    location := t.location }

/-- The node of a field of the type. -/
def fieldNode (f : SourceField) : FieldNode where
  id := .ofField t.name f.name
  owner := t.id
  simpleName := f.name
  package := t.package
  type := f.type
  modifiers := f.modifiers
  annotations := f.annotations
  location := f.location

/-- The node of a method of the type. -/
def methodNode (m : SourceMethod) : MethodNode where
  id := .ofMethod t.name m.name (m.parameters.map (·.type.name))
  owner := t.id
  simpleName := m.name
  package := t.package
  returnType := m.returnType
  parameters := m.parameters.map (·.toParameter)
  modifiers := m.modifiers
  annotations := m.annotations
  location := m.location

/-- The node of a constructor of the type. -/
def constructorNode (c : SourceConstructor) : ConstructorNode where
  id := .ofConstructor t.name (c.parameters.map (·.type.name))
  owner := t.id
  simpleName := t.simpleName
  package := t.package
  parameters := c.parameters.map (·.toParameter)
  modifiers := c.modifiers
  annotations := c.annotations
  location := c.location

/-- The edges to the superclass and the listed interfaces, where they are known. -/
def hierarchyEdges : List Edge :=
  let supers := t.superType.toList.filter fun s => known s.name
  let interfaces := t.interfaces.filter fun i => known i.name
  supers.map (fun s => .raw t.id (.ofType s.name) .extends)
    ++ interfaces.map fun i => .raw t.id (.ofType i.name) .implements

/-- A member joins the graph with the edge from its type and its own edges. -/
def memberInsertions (member : Node) (uses : List Edge) : List Insertion :=
  .node member :: .edge (.raw t.id member.id .declares) :: uses.map .edge

/-- What a field adds. -/
def fieldInsertions (f : SourceField) : List Insertion :=
  let node := t.fieldNode f
  t.memberInsertions (.field node) (usageEdges known node.id .fieldType [f.type])

/-- What a method adds. -/
def methodInsertions (m : SourceMethod) : List Insertion :=
  let node := t.methodNode m
  let returned := if m.returnType.isVoid then [] else [m.returnType]
  t.memberInsertions (.method node)
    (usageEdges known node.id .returnType returned
      ++ usageEdges known node.id .parameterType (m.parameters.map (·.type)))

/-- What a constructor adds. -/
def constructorInsertions (c : SourceConstructor) : List Insertion :=
  let node := t.constructorNode c
  t.memberInsertions (.constructor node)
    (usageEdges known node.id .parameterType (c.parameters.map (·.type)))

/-- What the declaration of a type adds to its node. -/
def bodyInsertions : List Insertion :=
  (t.hierarchyEdges known).map .edge
    ++ t.fields.flatMap (t.fieldInsertions known)
    ++ t.methods.flatMap (t.methodInsertions known)
    ++ t.constructors.flatMap (t.constructorInsertions known)

end SourceType

/-- The places of a signature with the types that stand there: the result first, then the
parameters. -/
def SourceMethod.positions (m : SourceMethod) : List (SignaturePosition × TypeRef) :=
  (.return, m.returnType) :: m.parameters.zipIdx.map fun (p, i) => (.parameter i, p.type)

namespace SourceType

variable (t : SourceType)

/-- The derived edges of one place of a signature. -/
def positionEdges (method : NodeId) (position : SignaturePosition) (type : TypeRef) : List Edge :=
  ((knownNames known [type]).filter (· ≠ t.name)).map fun name =>
    .signatureUse t.id (.ofType name) { method, position }

/-- The derived edges of a method. -/
def methodSignatureEdges (m : SourceMethod) : List Edge :=
  m.positions.flatMap fun (position, type) =>
    t.positionEdges known (t.methodNode m).id position type

/-- The derived edges of a type; only interfaces have any. -/
def signatureEdges : List Edge :=
  if t.form = .interface then t.methods.flatMap (t.methodSignatureEdges known) else []

end SourceType

namespace Model

variable (m : Model)

/-- The names of the declared types. -/
def typeNames : List String := m.types.map (·.name)

/-- Whether a name is that of a declared type. -/
def declares : String → Bool :=
  let names := Std.TreeSet.ofList m.typeNames
  fun name => names.contains name

/-- What the source states: all types, then all that their declarations add. -/
def rawInsertions : List Insertion :=
  let known := m.declares
  m.types.map (fun t => .node (.type t.toNode)) ++ m.types.flatMap (·.bodyInsertions known)

/-- The derived edges of the whole model. -/
def signatureEdges : List Edge :=
  let known := m.declares
  m.types.flatMap (·.signatureEdges known)

/-- What is known of the application as a whole. -/
def metadata : Metadata where
  rootPackage := m.rootPackage
  languageLevel := m.languageLevel
  sourceCount := m.types.length

/-- All insertions, with the derived edges or without. -/
def insertions (derived : Bool) : List Insertion :=
  m.rawInsertions ++ if derived then m.signatureEdges.map .edge else []

/-- The graph of a model, with the derived edges or without. -/
def buildWith (derived : Bool) : Except Error Graph :=
  (Graph.withMetadata m.metadata).addAll (m.insertions derived)

/-- The graph of a model. -/
def build : Except Error Graph := m.buildWith true

end Model

end RoleAudit
