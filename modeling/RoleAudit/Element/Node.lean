import RoleAudit.Element.AnnotationRef
import RoleAudit.Element.Id
import RoleAudit.Element.TypeRef

/-!
# Nodes

A node is a declared type or a member of one: a field, a method or a constructor. Nodes do not hold
each other. A member names its declaring type by id, and every other relation is an edge of the
graph.
-/

namespace RoleAudit

/-- The form in which a type is declared. -/
inductive TypeForm where
  /-- An ordinary class. -/
  | plainClass
  /-- An interface. -/
  | interface
  /-- A record. -/
  | record
  /-- An enumeration. -/
  | enum
  /-- An annotation type. -/
  | annotationType
  deriving DecidableEq, Repr, Inhabited

namespace TypeForm

/-- The name of a form in models and reports. -/
def label : TypeForm → String
  | .plainClass => "CLASS"
  | .interface => "INTERFACE"
  | .record => "RECORD"
  | .enum => "ENUM"
  | .annotationType => "ANNOTATION"

/-- Every form. -/
def all : List TypeForm := [.plainClass, .interface, .record, .enum, .annotationType]

end TypeForm

/-- A modifier of a declaration. -/
inductive Modifier where
  /-- Visible everywhere. -/
  | publicAccess
  /-- Visible to subtypes. -/
  | protectedAccess
  /-- Visible to the declaring type. -/
  | privateAccess
  /-- Belongs to the type and not to its instances. -/
  | static
  /-- May not change. -/
  | final
  /-- Has no body. -/
  | abstract
  /-- Has a body in an interface. -/
  | default
  /-- Lists its subtypes. -/
  | sealed
  deriving DecidableEq, Repr, Inhabited

namespace Modifier

/-- The name of a modifier in models and reports. -/
def label : Modifier → String
  | .publicAccess => "PUBLIC"
  | .protectedAccess => "PROTECTED"
  | .privateAccess => "PRIVATE"
  | .static => "STATIC"
  | .final => "FINAL"
  | .abstract => "ABSTRACT"
  | .default => "DEFAULT"
  | .sealed => "SEALED"

/-- Every modifier. -/
def all : List Modifier :=
  [.publicAccess, .protectedAccess, .privateAccess, .static, .final, .abstract, .default, .sealed]

end Modifier

/-- Where a declaration stands in the source. -/
structure Location where
  /-- The file. -/
  file : String
  /-- The line. -/
  line : Nat
  /-- The column. -/
  column : Nat
  deriving DecidableEq, Repr

/-- The location as reports show it. -/
def Location.text (l : Location) : String :=
  l.file ++ ":" ++ toString l.line ++ ":" ++ toString l.column

/-- A declared type. -/
structure TypeNode where
  /-- The identity. -/
  id : NodeId
  /-- The qualified name. -/
  name : String
  /-- The simple name. -/
  simpleName : String
  /-- The package. -/
  package : String
  /-- The form of the declaration. -/
  form : TypeForm
  /-- The modifiers. -/
  modifiers : List Modifier
  /-- The superclass, known to the graph or not. -/
  superType : Option TypeRef
  /-- The interfaces that the declaration lists, known to the graph or not. -/
  interfaces : List TypeRef
  /-- The annotations. -/
  annotations : List AnnotationRef
  /-- The place in the source. -/
  location : Option Location
  deriving DecidableEq, Repr

namespace TypeNode

/-- The node of a qualified name and a form, with nothing else declared. -/
def ofName (name : String) (form : TypeForm) : TypeNode where
  id := .ofType name
  name := name
  simpleName := Text.simpleName name
  package := Text.packageName name
  form := form
  modifiers := []
  superType := none
  interfaces := []
  annotations := []
  location := none

/-- Whether the type is an interface. -/
def isInterface (t : TypeNode) : Bool := t.form = .interface

/-- Whether the type is a record. -/
def isRecord (t : TypeNode) : Bool := t.form = .record

/-- Whether the type carries the annotation of a qualified name. -/
def isAnnotatedWith (t : TypeNode) (name : String) : Bool :=
  t.annotations.any (·.name = name)

/-- Whether the declaration lists the interface of a qualified name. -/
def listsInterface (t : TypeNode) (name : String) : Bool :=
  t.interfaces.any (·.name = name)

/-- The type with one more annotation. -/
def annotated (t : TypeNode) (a : AnnotationRef) : TypeNode :=
  { t with annotations := t.annotations ++ [a] }

/-- The type with one more listed interface. -/
def implementing (t : TypeNode) (i : TypeRef) : TypeNode :=
  { t with interfaces := t.interfaces ++ [i] }

/-- The type with the given superclass. -/
def extending (t : TypeNode) (s : TypeRef) : TypeNode :=
  { t with superType := some s }

end TypeNode

/-- A field of a type. -/
structure FieldNode where
  /-- The identity. -/
  id : NodeId
  /-- The declaring type. -/
  owner : NodeId
  /-- The name. -/
  simpleName : String
  /-- The package of the declaring type. -/
  package : String
  /-- The type of the field. -/
  type : TypeRef
  /-- The modifiers. -/
  modifiers : List Modifier
  /-- The annotations. -/
  annotations : List AnnotationRef
  /-- The place in the source. -/
  location : Option Location
  deriving DecidableEq, Repr

namespace FieldNode

/-- Whether the field may not change. -/
def isFinal (f : FieldNode) : Bool := f.modifiers.contains .final

/-- Whether the field belongs to the type and not to its instances. -/
def isStatic (f : FieldNode) : Bool := f.modifiers.contains .static

end FieldNode

/-- A parameter of a method or constructor. -/
structure Parameter where
  /-- The name. -/
  name : String
  /-- The type. -/
  type : TypeRef
  /-- The annotations. -/
  annotations : List AnnotationRef
  deriving DecidableEq, Repr

/-- A method of a type. -/
structure MethodNode where
  /-- The identity. -/
  id : NodeId
  /-- The declaring type. -/
  owner : NodeId
  /-- The name. -/
  simpleName : String
  /-- The package of the declaring type. -/
  package : String
  /-- The type of the result. -/
  returnType : TypeRef
  /-- The parameters, first to last. -/
  parameters : List Parameter
  /-- The modifiers. -/
  modifiers : List Modifier
  /-- The annotations. -/
  annotations : List AnnotationRef
  /-- The place in the source. -/
  location : Option Location
  deriving DecidableEq, Repr

namespace MethodNode

/-- Whether the method belongs to the type and not to its instances. -/
def isStatic (m : MethodNode) : Bool := m.modifiers.contains .static

/-- Whether a name is `set` and a Latin capital letter, with anything after that. -/
def isSetterName (name : String) : Bool :=
  match name.toList with
  | 's' :: 'e' :: 't' :: c :: _ => c.isUpper
  | _ => false

/-- Whether the method sets a value: a setter's name and exactly one parameter. -/
def isSetter (m : MethodNode) : Bool :=
  isSetterName m.simpleName && m.parameters.length == 1

/-- The types of the signature: the result first, then the parameters. -/
def signatureTypes (m : MethodNode) : List TypeRef :=
  m.returnType :: m.parameters.map (·.type)

end MethodNode

/-- A constructor of a type. -/
structure ConstructorNode where
  /-- The identity. -/
  id : NodeId
  /-- The declaring type. -/
  owner : NodeId
  /-- The simple name of the declaring type. -/
  simpleName : String
  /-- The package of the declaring type. -/
  package : String
  /-- The parameters, first to last. -/
  parameters : List Parameter
  /-- The modifiers. -/
  modifiers : List Modifier
  /-- The annotations. -/
  annotations : List AnnotationRef
  /-- The place in the source. -/
  location : Option Location
  deriving DecidableEq, Repr

/-- A type or a member of one. -/
inductive Node where
  /-- A declared type. -/
  | type (node : TypeNode)
  /-- A field. -/
  | field (node : FieldNode)
  /-- A method. -/
  | method (node : MethodNode)
  /-- A constructor. -/
  | constructor (node : ConstructorNode)
  deriving DecidableEq, Repr

namespace Node

/-- The identity. -/
def id : Node → NodeId
  | type n => n.id
  | field n => n.id
  | method n => n.id
  | constructor n => n.id

/-- What the node stands for. -/
def kind : Node → NodeKind
  | type _ => .type
  | field _ => .field
  | method _ => .method
  | constructor _ => .constructor

/-- The simple name. -/
def simpleName : Node → String
  | type n => n.simpleName
  | field n => n.simpleName
  | method n => n.simpleName
  | constructor n => n.simpleName

/-- The qualified name; a member has its id without the kind. -/
def qualifiedName : Node → String
  | type n => n.name
  | field n => n.id.value
  | method n => n.id.value
  | constructor n => n.id.value

/-- The package. -/
def package : Node → String
  | type n => n.package
  | field n => n.package
  | method n => n.package
  | constructor n => n.package

/-- The annotations. -/
def annotations : Node → List AnnotationRef
  | type n => n.annotations
  | field n => n.annotations
  | method n => n.annotations
  | constructor n => n.annotations

/-- The place in the source. -/
def location : Node → Option Location
  | type n => n.location
  | field n => n.location
  | method n => n.location
  | constructor n => n.location

/-- The declaring type of a member. -/
def owner? : Node → Option NodeId
  | type _ => none
  | field n => some n.owner
  | method n => some n.owner
  | constructor n => some n.owner

/-- The node as a type. -/
def type? : Node → Option TypeNode
  | type n => some n
  | _ => none

/-- The node as a field. -/
def field? : Node → Option FieldNode
  | field n => some n
  | _ => none

/-- The node as a method. -/
def method? : Node → Option MethodNode
  | method n => some n
  | _ => none

/-- The node as a constructor. -/
def constructor? : Node → Option ConstructorNode
  | constructor n => some n
  | _ => none

/-- Whether the node is a member of a type. -/
def isMember : Node → Bool
  | type _ => false
  | _ => true

theorem field?_eq_some {n : Node} {f : FieldNode} : n.field? = some f ↔ n = .field f := by
  cases n <;> simp [field?]

theorem constructor?_eq_some {n : Node} {c : ConstructorNode} :
    n.constructor? = some c ↔ n = .constructor c := by
  cases n <;> simp [constructor?]

end Node

end RoleAudit
