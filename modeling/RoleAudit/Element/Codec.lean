import RoleAudit.Element.Edge
import RoleAudit.Element.Node
import RoleAudit.Json.Decoder

/-!
# Nodes and edges as JSON

For every part of a node or edge a writer and, beside it, the reader of the same shape.
-/

namespace RoleAudit

open Json (Decoder Record)

/-! ## Labels -/

/-- A node kind as JSON. -/
def NodeKind.toJson (k : NodeKind) : Json := .string k.label

/-- A form as JSON. -/
def TypeForm.toJson (f : TypeForm) : Json := .string f.label

/-- Reads a form. -/
def TypeForm.decode : Decoder TypeForm := Json.decodeLabel all label

/-- Reads a form inside a node. -/
def TypeForm.decodeInNode : Decoder TypeForm := Json.decodeTag all label

/-- A modifier as JSON. -/
def Modifier.toJson (m : Modifier) : Json := .string m.label

/-- Reads a modifier. -/
def Modifier.decode : Decoder Modifier := Json.decodeLabel all label

/-- Reads a modifier inside a node. -/
def Modifier.decodeInNode : Decoder Modifier := Json.decodeTag all label

/-- A relation as JSON. -/
def EdgeKind.toJson (k : EdgeKind) : Json := .string k.label

/-- Reads a relation. -/
def EdgeKind.decode : Decoder EdgeKind := Json.decodeLabel all label

/-- A provenance as JSON. -/
def Provenance.toJson (p : Provenance) : Json := .string p.label

/-- Reads a provenance. -/
def Provenance.decode : Decoder Provenance := Json.decodeLabel all label

/-- An id as JSON. -/
def NodeId.toJson (id : NodeId) : Json := .string id.text

/-- Reads an id; every text is one. -/
def NodeId.decode : Decoder NodeId := fun levels value =>
  (Json.decodeString levels value).map NodeId.mk

/-- A list of ids as JSON. -/
def NodeId.listToJson (ids : List NodeId) : Json := .array (ids.map toJson)

/-! ## Parts of declarations -/

namespace TypeRef

mutual

/-- A reference as JSON. -/
def toJson : TypeRef → Json
  | ⟨name, arguments⟩ =>
    .object [("qualified_name", .string name), ("arguments", .array (listToJson arguments))]

/-- Several references as JSON. -/
def listToJson : List TypeRef → List Json
  | [] => []
  | t :: ts => toJson t :: listToJson ts

end

/-- Reads a reference whose arguments are read with `argument`. -/
def decodeOver (argument : Json → Option TypeRef) : Decoder TypeRef := fun levels value => do
  let r ← Record.ofJson? ["qualified_name", "arguments"] levels value
  return {
    name := ← r.required "qualified_name" Json.decodeString
    arguments := ← r.defaulted "arguments" [] (Json.decodeList fun _ => argument) }

/-- Reads a reference. Every reference opens a level, and a list of arguments one more. -/
def decode : Decoder TypeRef
  | 0 => decodeOver (fun _ => none) 0
  | 1 => decodeOver (fun _ => none) 1
  | inner + 2 => decodeOver (decode inner) (inner + 2)

end TypeRef

/-- An annotation as JSON. -/
def AnnotationRef.toJson (a : AnnotationRef) : Json :=
  .object [
    ("qualified_name", .string a.name),
    ("simple_name", .string a.simpleName),
    ("values", Json.ofDictionary .string a.values)]

/-- Reads an annotation. -/
def AnnotationRef.decode : Decoder AnnotationRef := fun levels value => do
  let r ← Record.ofJson? ["qualified_name", "simple_name", "values"] levels value
  return {
    name := ← r.required "qualified_name" Json.decodeString
    simpleName := ← r.required "simple_name" Json.decodeString
    values := ← r.defaulted "values" .empty (Json.decodeDictionary Json.decodeString) }

/-- A location as JSON. -/
def Location.toJson (l : Location) : Json :=
  .object [("file", .string l.file), ("line", .ofNat l.line), ("column", .ofNat l.column)]

/-- Reads a location. -/
def Location.decode : Decoder Location := fun levels value => do
  let r ← Record.ofJson? ["file", "line", "column"] levels value
  return {
    file := ← r.required "file" Json.decodeString
    line := ← r.required "line" Json.decodeWord
    column := ← r.defaulted "column" 0 Json.decodeWord }

/-- A parameter as JSON. -/
def Parameter.toJson (p : Parameter) : Json :=
  .object [
    ("name", .string p.name),
    ("param_type", p.type.toJson),
    ("annotations", .array (p.annotations.map AnnotationRef.toJson))]

/-- Reads a parameter. -/
def Parameter.decode : Decoder Parameter := fun levels value => do
  let r ← Record.ofJson? ["name", "param_type", "annotations"] levels value
  return {
    name := ← r.required "name" Json.decodeString
    type := ← r.required "param_type" TypeRef.decode
    annotations := ← r.defaulted "annotations" [] (Json.decodeList AnnotationRef.decode) }

/-! ## Nodes -/

/-- The fields of a type in order. -/
def TypeNode.members (t : TypeNode) : List (String × Json) :=
  [("id", t.id.toJson),
    ("qualified_name", .string t.name),
    ("simple_name", .string t.simpleName),
    ("package", .string t.package),
    ("form", t.form.toJson),
    ("modifiers", .array (t.modifiers.map Modifier.toJson)),
    ("super_type", Json.ofOption TypeRef.toJson t.superType),
    ("interfaces", .array (t.interfaces.map TypeRef.toJson)),
    ("annotations", .array (t.annotations.map AnnotationRef.toJson)),
    ("location", Json.ofOption Location.toJson t.location)]

/-- A type as JSON. -/
def TypeNode.toJson (t : TypeNode) : Json := .object t.members

/-- Reads a type. -/
def TypeNode.decode : Decoder TypeNode := fun levels value => do
  let r ← Record.ofJson? ["id", "qualified_name", "simple_name", "package", "form", "modifiers",
    "super_type", "interfaces", "annotations", "location"] levels value
  return {
    id := ← r.required "id" NodeId.decode
    name := ← r.required "qualified_name" Json.decodeString
    simpleName := ← r.required "simple_name" Json.decodeString
    package := ← r.required "package" Json.decodeString
    form := ← r.required "form" TypeForm.decodeInNode
    modifiers := ← r.required "modifiers" (Json.decodeList Modifier.decodeInNode)
    superType := ← r.optional "super_type" TypeRef.decode
    interfaces := ← r.required "interfaces" (Json.decodeList TypeRef.decode)
    annotations := ← r.required "annotations" (Json.decodeList AnnotationRef.decode)
    location := ← r.optional "location" Location.decode }

/-- The fields of a field in order. -/
def FieldNode.members (f : FieldNode) : List (String × Json) :=
  [("id", f.id.toJson),
    ("declaring_type", f.owner.toJson),
    ("simple_name", .string f.simpleName),
    ("package", .string f.package),
    ("field_type", f.type.toJson),
    ("modifiers", .array (f.modifiers.map Modifier.toJson)),
    ("annotations", .array (f.annotations.map AnnotationRef.toJson)),
    ("location", Json.ofOption Location.toJson f.location)]

/-- Reads a field. -/
def FieldNode.decode : Decoder FieldNode := fun levels value => do
  let r ← Record.ofJson? ["id", "declaring_type", "simple_name", "package", "field_type",
    "modifiers", "annotations", "location"] levels value
  return {
    id := ← r.required "id" NodeId.decode
    owner := ← r.required "declaring_type" NodeId.decode
    simpleName := ← r.required "simple_name" Json.decodeString
    package := ← r.required "package" Json.decodeString
    type := ← r.required "field_type" TypeRef.decode
    modifiers := ← r.required "modifiers" (Json.decodeList Modifier.decodeInNode)
    annotations := ← r.required "annotations" (Json.decodeList AnnotationRef.decode)
    location := ← r.optional "location" Location.decode }

/-- The fields of a method in order. -/
def MethodNode.members (m : MethodNode) : List (String × Json) :=
  [("id", m.id.toJson),
    ("declaring_type", m.owner.toJson),
    ("simple_name", .string m.simpleName),
    ("package", .string m.package),
    ("return_type", m.returnType.toJson),
    ("parameters", .array (m.parameters.map Parameter.toJson)),
    ("modifiers", .array (m.modifiers.map Modifier.toJson)),
    ("annotations", .array (m.annotations.map AnnotationRef.toJson)),
    ("location", Json.ofOption Location.toJson m.location)]

/-- Reads a method. -/
def MethodNode.decode : Decoder MethodNode := fun levels value => do
  let r ← Record.ofJson? ["id", "declaring_type", "simple_name", "package", "return_type",
    "parameters", "modifiers", "annotations", "location"] levels value
  return {
    id := ← r.required "id" NodeId.decode
    owner := ← r.required "declaring_type" NodeId.decode
    simpleName := ← r.required "simple_name" Json.decodeString
    package := ← r.required "package" Json.decodeString
    returnType := ← r.required "return_type" TypeRef.decode
    parameters := ← r.required "parameters" (Json.decodeList Parameter.decode)
    modifiers := ← r.required "modifiers" (Json.decodeList Modifier.decodeInNode)
    annotations := ← r.required "annotations" (Json.decodeList AnnotationRef.decode)
    location := ← r.optional "location" Location.decode }

/-- The fields of a constructor in order. -/
def ConstructorNode.members (c : ConstructorNode) : List (String × Json) :=
  [("id", c.id.toJson),
    ("declaring_type", c.owner.toJson),
    ("simple_name", .string c.simpleName),
    ("package", .string c.package),
    ("parameters", .array (c.parameters.map Parameter.toJson)),
    ("modifiers", .array (c.modifiers.map Modifier.toJson)),
    ("annotations", .array (c.annotations.map AnnotationRef.toJson)),
    ("location", Json.ofOption Location.toJson c.location)]

/-- Reads a constructor. -/
def ConstructorNode.decode : Decoder ConstructorNode := fun levels value => do
  let r ← Record.ofJson? ["id", "declaring_type", "simple_name", "package", "parameters",
    "modifiers", "annotations", "location"] levels value
  return {
    id := ← r.required "id" NodeId.decode
    owner := ← r.required "declaring_type" NodeId.decode
    simpleName := ← r.required "simple_name" Json.decodeString
    package := ← r.required "package" Json.decodeString
    parameters := ← r.required "parameters" (Json.decodeList Parameter.decode)
    modifiers := ← r.required "modifiers" (Json.decodeList Modifier.decodeInNode)
    annotations := ← r.required "annotations" (Json.decodeList AnnotationRef.decode)
    location := ← r.optional "location" Location.decode }

namespace Node

/-- A node as JSON: the fields of what it stands for behind its kind. -/
def toJson (n : Node) : Json :=
  .object (("node", n.kind.toJson) ::
    match n with
    | type t => t.members
    | field f => f.members
    | method m => m.members
    | constructor c => c.members)

/-- Reads the fields of a node whose kind is known. -/
def decodeFields : NodeKind → Decoder Node
  | .type => fun levels value => (TypeNode.decode levels value).map type
  | .field => fun levels value => (FieldNode.decode levels value).map field
  | .method => fun levels value => (MethodNode.decode levels value).map method
  | .constructor => fun levels value => (ConstructorNode.decode levels value).map constructor

/-- Reads the kind of a node off its label. -/
def decodeKind : Json → Option NodeKind
  | .string s => NodeKind.all.find? (·.label = s)
  | _ => none

/-- Reads a node: an object with its kind under `node`, or an array with its kind in front. -/
def decode : Decoder Node
  | levels, .object members => do
    guard (members.countP (·.1 = "node") ≤ 1)
    let kind ← decodeKind (← members.lookup "node")
    decodeFields kind levels (.object members)
  | levels, .array (label :: items) => do
    let kind ← decodeKind label
    decodeFields kind levels (.array items)
  | _, _ => none

end Node

/-! ## Edges -/

/-- A place in a signature as JSON. -/
def SignaturePosition.toJson : SignaturePosition → Json
  | .return => .string "return"
  | .parameter position => .object [("parameter", .ofNat position)]

/-- Reads a place in a signature. -/
def SignaturePosition.decode : Decoder SignaturePosition
  | _, .string "return" => some .return
  | _ + 1, .object [("return", .null)] => some .return
  | levels + 1, .object [("parameter", position)] =>
    (Json.decodeCount levels position).map .parameter
  | _, _ => none

/-- The justification of an edge as JSON. -/
def EdgeProof.toJson (p : EdgeProof) : Json :=
  .object [("method", p.method.toJson), ("position", p.position.toJson)]

/-- Reads the justification of an edge. -/
def EdgeProof.decode : Decoder EdgeProof := fun levels value => do
  let r ← Record.ofJson? ["method", "position"] levels value
  return {
    method := ← r.required "method" NodeId.decode
    position := ← r.required "position" SignaturePosition.decode }

/-- An edge as JSON. -/
def Edge.toJson (e : Edge) : Json :=
  .object [
    ("from", e.source.toJson),
    ("to", e.target.toJson),
    ("kind", e.kind.toJson),
    ("provenance", e.provenance.toJson),
    ("proof", Json.ofOption EdgeProof.toJson e.proof)]

/-- Reads an edge. -/
def Edge.decode : Decoder Edge := fun levels value => do
  let r ← Record.ofJson? ["from", "to", "kind", "provenance", "proof"] levels value
  return {
    source := ← r.required "from" NodeId.decode
    target := ← r.required "to" NodeId.decode
    kind := ← r.required "kind" EdgeKind.decode
    provenance := ← r.required "provenance" Provenance.decode
    proof := ← r.optional "proof" EdgeProof.decode }

end RoleAudit
