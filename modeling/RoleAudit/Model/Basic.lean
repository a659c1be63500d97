import RoleAudit.Element.Node

/-!
# The model of an application

What the source code of an application declares: its types with their fields, methods and
constructors. A model is given from outside and holds names only. Whether a name is that of a
declared type is found out when the graph is built.
-/

namespace RoleAudit

/-- A declared field. -/
structure SourceField where
  /-- The name. -/
  name : String
  /-- The type. -/
  type : TypeRef
  /-- The modifiers. -/
  modifiers : List Modifier := []
  /-- The annotations. -/
  annotations : List AnnotationRef := []
  /-- The place in the source. -/
  location : Option Location := none
  deriving DecidableEq, Repr

/-- A private field that may not change, the usual form of an injected dependency. -/
def SourceField.privateFinal (name : String) (type : TypeRef) : SourceField :=
  { name, type, modifiers := [.privateAccess, .final] }

/-- A declared parameter. -/
structure SourceParameter where
  /-- The name. -/
  name : String
  /-- The type. -/
  type : TypeRef
  /-- The annotations. -/
  annotations : List AnnotationRef := []
  deriving DecidableEq, Repr

/-- A declared method. -/
structure SourceMethod where
  /-- The name. -/
  name : String
  /-- The type of the result. -/
  returnType : TypeRef
  /-- The parameters, first to last. -/
  parameters : List SourceParameter := []
  /-- The modifiers. -/
  modifiers : List Modifier := []
  /-- The annotations. -/
  annotations : List AnnotationRef := []
  /-- The place in the source. -/
  location : Option Location := none
  deriving DecidableEq, Repr

/-- A declared constructor. -/
structure SourceConstructor where
  /-- The parameters, first to last. -/
  parameters : List SourceParameter := []
  /-- The modifiers. -/
  modifiers : List Modifier := []
  /-- The annotations. -/
  annotations : List AnnotationRef := []
  /-- The place in the source. -/
  location : Option Location := none
  deriving DecidableEq, Repr

/-- A declared type. -/
structure SourceType where
  /-- The qualified name. -/
  name : String
  /-- The form of the declaration. -/
  form : TypeForm
  /-- The modifiers. -/
  modifiers : List Modifier := []
  /-- The annotations. -/
  annotations : List AnnotationRef := []
  /-- The superclass. -/
  superType : Option TypeRef := none
  /-- The listed interfaces. -/
  interfaces : List TypeRef := []
  /-- The fields. -/
  fields : List SourceField := []
  /-- The methods. -/
  methods : List SourceMethod := []
  /-- The constructors. -/
  constructors : List SourceConstructor := []
  /-- The place in the source. -/
  location : Option Location := none
  deriving DecidableEq, Repr

namespace SourceType

/-- The last part of the name. -/
def simpleName (t : SourceType) : String := Text.simpleName t.name

/-- The package of the name. -/
def package (t : SourceType) : String := Text.packageName t.name

/-- The id of the type. -/
def id (t : SourceType) : NodeId := .ofType t.name

/-- The type with one more annotation. -/
def annotated (t : SourceType) (name : String) : SourceType :=
  { t with annotations := t.annotations ++ [.ofName name] }

/-- The type with the given superclass. -/
def extending (t : SourceType) (name : String) : SourceType :=
  { t with superType := some (.plain name) }

/-- The type with one more listed interface. -/
def implementing (t : SourceType) (name : String) : SourceType :=
  { t with interfaces := t.interfaces ++ [.plain name] }

/-- The type with one more field. -/
def withField (t : SourceType) (f : SourceField) : SourceType :=
  { t with fields := t.fields ++ [f] }

/-- The type with one more method. -/
def withMethod (t : SourceType) (m : SourceMethod) : SourceType :=
  { t with methods := t.methods ++ [m] }

/-- The type with one more constructor. -/
def withConstructor (t : SourceType) (c : SourceConstructor) : SourceType :=
  { t with constructors := t.constructors ++ [c] }

end SourceType

/-- What an application declares. -/
structure Model where
  /-- The package that all others stand in. -/
  rootPackage : Option String := none
  /-- The level of the source language. -/
  languageLevel : Option String := none
  /-- The declared types. -/
  types : List SourceType := []
  deriving DecidableEq, Repr

end RoleAudit
