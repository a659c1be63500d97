import RoleAudit.Constraint.Basic
import RoleAudit.Criterion.Shape

/-!
# Layers

The layer of a type is told by its markers, or else by its package, or else by its name; the first
hint decides. Types of the application layer do not depend on types of the presentation layer.
-/

namespace RoleAudit

/-- A layer of an application. -/
inductive Layer where
  /-- What users and other systems see. -/
  | presentation
  /-- What the application does. -/
  | application
  /-- What the application is about. -/
  | domain
  /-- What the application runs on. -/
  | infrastructure
  /-- Nothing tells. -/
  | unknown
  deriving DecidableEq, Repr, Inhabited

namespace Layer

/-- The name of a layer in reports. -/
def label : Layer → String
  | presentation => "PRESENTATION"
  | application => "APPLICATION"
  | domain => "DOMAIN"
  | infrastructure => "INFRASTRUCTURE"
  | unknown => "UNKNOWN"

/-- Markers of the presentation layer. -/
def presentationMarkers : List String :=
  ["org.springframework.web.bind.annotation.RestController",
    "org.springframework.stereotype.Controller",
    "javax.ws.rs.Path",
    "jakarta.ws.rs.Path"]

/-- Markers of the application layer. -/
def applicationMarkers : List String := ["org.springframework.stereotype.Service"]

/-- Markers of the infrastructure layer. -/
def infrastructureMarkers : List String :=
  ["org.springframework.stereotype.Repository",
    "javax.persistence.Entity",
    "jakarta.persistence.Entity",
    "org.springframework.context.annotation.Configuration"]

/-- Package parts that tell a layer. -/
def packageSegments : List (String × Layer) :=
  [("presentation", presentation),
    ("ui", presentation),
    ("web", presentation),
    ("rest", presentation),
    ("application", application),
    ("domain", domain),
    ("model", domain),
    ("infrastructure", infrastructure),
    ("persistence", infrastructure)]

/-- Endings of names that tell a layer. -/
def nameEndings : List (String × Layer) :=
  [("Controller", presentation),
    ("Resolver", presentation),
    ("Service", application),
    ("UseCase", application),
    ("Entity", domain),
    ("ValueObject", domain),
    ("Repository", infrastructure),
    ("Adapter", infrastructure)]

/-- The layer that markers tell. -/
def ofMarkers? (markers : List String) : Option Layer :=
  if markers.any presentationMarkers.contains then some presentation
  else if markers.any infrastructureMarkers.contains then some infrastructure
  else if markers.any applicationMarkers.contains then some application
  else none

/-- The layer that a package tells, by its first telling part. -/
def ofPackage? (package : String) : Option Layer :=
  (Text.segments package).findSome? fun segment => packageSegments.lookup segment

/-- The layer that a simple name tells. -/
def ofName? (name : String) : Option Layer :=
  (nameEndings.find? fun (ending, _) => Text.endsWith ending name).map (·.2)

/-- The layer that markers, package and simple name tell. -/
def ofNames (package name : String) (markers : List String) : Layer :=
  ((ofMarkers? markers <|> ofPackage? package) <|> ofName? name).getD unknown

/-- The layer of a type. -/
def ofType (t : TypeNode) : Layer :=
  ofNames t.package t.simpleName (t.annotations.map (·.name))

end Layer

namespace Constraint

/-- The types of the presentation layer that a type depends on. -/
def presentationDependencies (g : Graph) (t : TypeNode) : List TypeNode :=
  (g.resolveTypes (g.dependenciesOf t.id)).filter fun d => Layer.ofType d = .presentation

/-- Types of the application layer do not depend on types of the presentation layer. -/
def layering : Constraint where
  id := "hexagonal:layering"
  severity := .critical
  findings g _ :=
    (g.types.filter fun t => Layer.ofType t = .application).filterMap fun t =>
      match presentationDependencies g t with
      | [] => none
      | found => some {
          constraint := "hexagonal:layering"
          severity := .critical
          message := "Application type '" ++ t.simpleName ++ "' depends on presentation type(s): "
            ++ TypeNode.namesLine found
          nodes := t.id :: found.map (·.id) }

end Constraint

end RoleAudit
