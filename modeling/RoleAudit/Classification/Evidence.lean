import RoleAudit.Element.Codec
import RoleAudit.Role.Basic

/-!
# Evidence

Why a type should have a role: how sure a match is, and what it rests on.
-/

namespace RoleAudit

/-- How sure a match is. -/
inductive Confidence where
  /-- A hint. -/
  | low
  /-- Likely. -/
  | medium
  /-- As good as certain. -/
  | high
  deriving DecidableEq, Repr, Inhabited

namespace Confidence

/-- The name of a confidence in reports. -/
def label : Confidence → String
  | low => "LOW"
  | medium => "MEDIUM"
  | high => "HIGH"

/-- Every confidence, the lowest first. -/
def all : List Confidence := [low, medium, high]

/-- The place of a confidence in the order. -/
def strength : Confidence → Nat
  | low => 0
  | medium => 1
  | high => 2

/-- A confidence as JSON. -/
def toJson (c : Confidence) : Json := .string c.label

/-- Reads a confidence. -/
def decode : Json.Decoder Confidence := Json.decodeLabel all label

end Confidence

/-- What a piece of evidence rests on. -/
inductive EvidenceKind where
  /-- A marker on the declaration. -/
  | marker
  /-- Other types around the type. -/
  | relationship
  /-- The settings. -/
  | explicitConfig
  /-- The name. -/
  | naming
  /-- The form of the declaration. -/
  | structural
  /-- A remark on the evaluation itself. -/
  | diagnostic
  deriving DecidableEq, Repr, Inhabited

namespace EvidenceKind

/-- The name of a kind of evidence in reports. -/
def label : EvidenceKind → String
  | marker => "ANNOTATION"
  | relationship => "RELATIONSHIP"
  | explicitConfig => "EXPLICIT_CONFIG"
  | naming => "NAMING"
  | structural => "STRUCTURE"
  | diagnostic => "DIAGNOSTIC"

/-- Every kind of evidence. -/
def all : List EvidenceKind :=
  [marker, relationship, explicitConfig, naming, structural, diagnostic]

end EvidenceKind

/-- A reason for a match. -/
structure Evidence where
  /-- What it rests on. -/
  kind : EvidenceKind
  /-- The reason in words. -/
  description : String
  /-- The nodes that it speaks of. -/
  relatedNodes : List NodeId := []
  deriving DecidableEq, Repr

namespace Evidence

/-- Evidence from a marker on the declaration. -/
def ofMarker (description : String) : Evidence := { kind := .marker, description }

/-- Evidence from other nodes. -/
def ofRelationship (description : String) (relatedNodes : List NodeId) : Evidence :=
  { kind := .relationship, description, relatedNodes }

/-- Evidence from a name. -/
def ofNaming (description : String) : Evidence := { kind := .naming, description }

/-- Evidence from the form of a declaration. -/
def ofStructure (description : String) : Evidence := { kind := .structural, description }

/-- A remark on the evaluation. -/
def ofDiagnostic (description : String) : Evidence := { kind := .diagnostic, description }

/-- Evidence as JSON. -/
def toJson (e : Evidence) : Json :=
  .object [
    ("type", .string e.kind.label),
    ("description", .string e.description),
    ("related_nodes", NodeId.listToJson e.relatedNodes)]

/-- Reads evidence. -/
def decode : Json.Decoder Evidence := fun levels value => do
  let r ← Json.Record.ofJson? ["type", "description", "related_nodes"] levels value
  return {
    kind := ← r.required "type" (Json.decodeLabel EvidenceKind.all EvidenceKind.label)
    description := ← r.required "description" Json.decodeString
    relatedNodes := ← r.required "related_nodes" (Json.decodeList NodeId.decode) }

/-- A list of evidence as JSON. -/
def listToJson (es : List Evidence) : Json := .array (es.map toJson)

end Evidence

/-- A criterion that applies to a type, with its reasons. -/
structure Match where
  /-- How sure it is. -/
  confidence : Confidence
  /-- The reason in one line. -/
  justification : String
  /-- The reasons one by one. -/
  evidence : List Evidence
  deriving DecidableEq, Repr

end RoleAudit
