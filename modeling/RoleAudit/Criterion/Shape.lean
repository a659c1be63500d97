import RoleAudit.Graph.Query
import RoleAudit.Role.Basic

/-!
# The shape of a type

What the built-in criteria ask about a declaration.
-/

namespace RoleAudit

namespace Graph

variable (g : Graph)

/-- The fields of a type that belong to its instances. -/
def instanceFieldsOf (id : NodeId) : List FieldNode := (g.fieldsOf id).filter (!·.isStatic)

/-- The first instance field named `id`, or named as the type with `Id` behind it, in any case. -/
def identityField? (t : TypeNode) : Option FieldNode :=
  let ownName := Text.toLowerAscii t.simpleName ++ "id"
  (g.instanceFieldsOf t.id).find? fun f =>
    let name := Text.toLowerAscii f.simpleName
    name = "id" || name = ownName

/-- Whether instances of a type have an identity. -/
def hasIdentity (t : TypeNode) : Bool := (g.identityField? t).isSome

/-- Whether instances of a type do not change: it is a record, or its instance fields are final
and it has no setters. -/
def isImmutable (t : TypeNode) : Bool :=
  t.isRecord
    || ((g.instanceFieldsOf t.id).all (·.isFinal) && !(g.methodsOf t.id).any (·.isSetter))

end Graph

namespace TypeNode

/-- Whether the type is a class or a record. -/
def isClassOrRecord (t : TypeNode) : Bool := t.form = .plainClass || t.form = .record

/-- The simple names of some types in one line. -/
def namesLine (ts : List TypeNode) : String := ", ".intercalate (ts.map (·.simpleName))

end TypeNode

/-- The driven role that the name of an interface suggests. -/
def drivenRoleOfName (name : String) : Role :=
  if Text.contains "Repository" name then .repository
  else if Text.contains "Gateway" name then .gateway
  else if Text.contains "Publisher" name then .eventPublisher
  else .drivenPort

/-- Whether a package has a given part. -/
def hasPackageSegment (package segment : String) : Bool := (Text.segments package).contains segment

end RoleAudit
