import RoleAudit.Dictionary
import RoleAudit.Text.Affix
import RoleAudit.Text.Name

/-!
# Annotations

An annotation marks a declaration. It has a qualified name, a simple name and attribute values. The
annotations of two vocabularies are markers of their own: one speaks of domain models, the other of
the ports of an application.
-/

namespace RoleAudit

/-- An annotation of a declaration. -/
structure AnnotationRef where
  /-- The qualified name. -/
  name : String
  /-- The simple name, as the declaration gives it. -/
  simpleName : String
  /-- The attribute values by attribute. -/
  values : Dictionary String
  deriving DecidableEq, Repr

namespace AnnotationRef

/-- The annotation of a name, without attribute values. -/
def ofName (name : String) : AnnotationRef :=
  { name, simpleName := Text.simpleName name, values := .empty }

/-- The annotation with an attribute set. -/
def withValue (a : AnnotationRef) (key value : String) : AnnotationRef :=
  { a with values := a.values.insert key value }

/-- The value of an attribute. -/
def value? (a : AnnotationRef) (key : String) : Option String :=
  a.values.get? key

/-- Whether a name belongs to the vocabulary of domain models. -/
def isDomainMarkerName (name : String) : Bool :=
  Text.startsWith "org.jmolecules.ddd.annotation." name
    || Text.startsWith "org.jmolecules.event.annotation." name

/-- Whether the annotation belongs to the vocabulary of domain models. -/
def isDomainMarker (a : AnnotationRef) : Bool := isDomainMarkerName a.name

/-- Whether the annotation belongs to the vocabulary of ports. -/
def isPortMarker (a : AnnotationRef) : Bool :=
  Text.startsWith "org.jmolecules.architecture.hexagonal." a.name

end AnnotationRef

end RoleAudit
