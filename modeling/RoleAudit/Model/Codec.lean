import RoleAudit.Element.Codec
import RoleAudit.Error
import RoleAudit.Graph.Basic
import RoleAudit.Model.Basic

/-!
# Models as JSON

The exchange format of models: for every part a writer and, beside it, the reader of the same
shape. All but names, types and forms may be left out.
-/

namespace RoleAudit

open Json (Decoder Record)

/-- A list of modifiers as JSON. -/
def Modifier.listToJson (ms : List Modifier) : Json := .array (ms.map toJson)

/-- A list of annotations as JSON. -/
def AnnotationRef.listToJson (as : List AnnotationRef) : Json := .array (as.map toJson)

/-- A declared field as JSON. -/
def SourceField.toJson (f : SourceField) : Json :=
  .object [
    ("name", .string f.name),
    ("type", f.type.toJson),
    ("modifiers", Modifier.listToJson f.modifiers),
    ("annotations", AnnotationRef.listToJson f.annotations),
    ("location", Json.ofOption Location.toJson f.location)]

/-- Reads a declared field. -/
def SourceField.decode : Decoder SourceField := fun levels value => do
  let r ← Record.ofJson? ["name", "type", "modifiers", "annotations", "location"] levels value
  return {
    name := ← r.required "name" Json.decodeString
    type := ← r.required "type" TypeRef.decode
    modifiers := ← r.defaulted "modifiers" [] (Json.decodeList Modifier.decode)
    annotations := ← r.defaulted "annotations" [] (Json.decodeList AnnotationRef.decode)
    location := ← r.optionalTail "location" Location.decode }

/-- A declared parameter as JSON. -/
def SourceParameter.toJson (p : SourceParameter) : Json :=
  .object [
    ("name", .string p.name),
    ("type", p.type.toJson),
    ("annotations", AnnotationRef.listToJson p.annotations)]

/-- Reads a declared parameter. -/
def SourceParameter.decode : Decoder SourceParameter := fun levels value => do
  let r ← Record.ofJson? ["name", "type", "annotations"] levels value
  return {
    name := ← r.required "name" Json.decodeString
    type := ← r.required "type" TypeRef.decode
    annotations := ← r.defaulted "annotations" [] (Json.decodeList AnnotationRef.decode) }

/-- A declared method as JSON. -/
def SourceMethod.toJson (m : SourceMethod) : Json :=
  .object [
    ("name", .string m.name),
    ("return_type", m.returnType.toJson),
    ("parameters", .array (m.parameters.map SourceParameter.toJson)),
    ("modifiers", Modifier.listToJson m.modifiers),
    ("annotations", AnnotationRef.listToJson m.annotations),
    ("location", Json.ofOption Location.toJson m.location)]

/-- Reads a declared method. -/
def SourceMethod.decode : Decoder SourceMethod := fun levels value => do
  let r ← Record.ofJson? ["name", "return_type", "parameters", "modifiers", "annotations",
    "location"] levels value
  return {
    name := ← r.required "name" Json.decodeString
    returnType := ← r.required "return_type" TypeRef.decode
    parameters := ← r.defaulted "parameters" [] (Json.decodeList SourceParameter.decode)
    modifiers := ← r.defaulted "modifiers" [] (Json.decodeList Modifier.decode)
    annotations := ← r.defaulted "annotations" [] (Json.decodeList AnnotationRef.decode)
    location := ← r.optionalTail "location" Location.decode }

/-- A declared constructor as JSON. -/
def SourceConstructor.toJson (c : SourceConstructor) : Json :=
  .object [
    ("parameters", .array (c.parameters.map SourceParameter.toJson)),
    ("modifiers", Modifier.listToJson c.modifiers),
    ("annotations", AnnotationRef.listToJson c.annotations),
    ("location", Json.ofOption Location.toJson c.location)]

/-- Reads a declared constructor. -/
def SourceConstructor.decode : Decoder SourceConstructor := fun levels value => do
  let r ← Record.ofJson? ["parameters", "modifiers", "annotations", "location"] levels value
  return {
    parameters := ← r.defaulted "parameters" [] (Json.decodeList SourceParameter.decode)
    modifiers := ← r.defaulted "modifiers" [] (Json.decodeList Modifier.decode)
    annotations := ← r.defaulted "annotations" [] (Json.decodeList AnnotationRef.decode)
    location := ← r.optionalTail "location" Location.decode }

/-- A declared type as JSON. -/
def SourceType.toJson (t : SourceType) : Json :=
  .object [
    ("qualified_name", .string t.name),
    ("form", t.form.toJson),
    ("modifiers", Modifier.listToJson t.modifiers),
    ("annotations", AnnotationRef.listToJson t.annotations),
    ("super_type", Json.ofOption TypeRef.toJson t.superType),
    ("interfaces", .array (t.interfaces.map TypeRef.toJson)),
    ("fields", .array (t.fields.map SourceField.toJson)),
    ("methods", .array (t.methods.map SourceMethod.toJson)),
    ("constructors", .array (t.constructors.map SourceConstructor.toJson)),
    ("location", Json.ofOption Location.toJson t.location)]

/-- Reads a declared type. -/
def SourceType.decode : Decoder SourceType := fun levels value => do
  let r ← Record.ofJson? ["qualified_name", "form", "modifiers", "annotations", "super_type",
    "interfaces", "fields", "methods", "constructors", "location"] levels value
  return {
    name := ← r.required "qualified_name" Json.decodeString
    form := ← r.required "form" TypeForm.decode
    modifiers := ← r.defaulted "modifiers" [] (Json.decodeList Modifier.decode)
    annotations := ← r.defaulted "annotations" [] (Json.decodeList AnnotationRef.decode)
    superType := ← r.optionalTail "super_type" TypeRef.decode
    interfaces := ← r.defaulted "interfaces" [] (Json.decodeList TypeRef.decode)
    fields := ← r.defaulted "fields" [] (Json.decodeList SourceField.decode)
    methods := ← r.defaulted "methods" [] (Json.decodeList SourceMethod.decode)
    constructors := ← r.defaulted "constructors" [] (Json.decodeList SourceConstructor.decode)
    location := ← r.optionalTail "location" Location.decode }

namespace Model

/-- A model as JSON. -/
def toJson (m : Model) : Json :=
  .object [
    ("root_package", Json.ofOption .string m.rootPackage),
    ("language_level", Json.ofOption .string m.languageLevel),
    ("types", .array (m.types.map SourceType.toJson))]

/-- Reads a model. -/
def decode : Decoder Model := fun levels value => do
  let r ← Record.ofJson? ["root_package", "language_level", "types"] levels value
  return {
    rootPackage := ← r.optionalTail "root_package" Json.decodeString
    languageLevel := ← r.optionalTail "language_level" Json.decodeString
    types := ← r.defaulted "types" [] (Json.decodeList SourceType.decode) }

/-- Reads a model off a JSON text. -/
def ofText (text : String) : Except Error Model :=
  match Decoder.ofText? decode text with
  | some m => .ok m
  | none => .error .malformedJson

end Model

/-- What is known of an application as JSON. -/
def Metadata.toJson (m : Metadata) : Json :=
  .object [
    ("root_package", Json.ofOption .string m.rootPackage),
    ("language_level", Json.ofOption .string m.languageLevel),
    ("source_count", .ofNat m.sourceCount)]

/-- Reads what is known of an application. -/
def Metadata.decode : Decoder Metadata := fun levels value => do
  let r ← Record.ofJson? ["root_package", "language_level", "source_count"] levels value
  return {
    rootPackage := ← r.optional "root_package" Json.decodeString
    languageLevel := ← r.optional "language_level" Json.decodeString
    sourceCount := ← r.required "source_count" Json.decodeCount }

end RoleAudit
