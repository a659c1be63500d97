import RoleAudit.Element.Id

/-!
# Edges

An edge relates two nodes by id. Edges that state what the source declares are raw; edges that are
computed from others are derived, and a derived edge may carry the place that justifies it.
-/

namespace RoleAudit

/-- The relation that an edge states. -/
inductive EdgeKind where
  /-- A type declares a member. -/
  | declares
  /-- A type extends a superclass. -/
  | extends
  /-- A type implements an interface. -/
  | implements
  /-- The type of a field mentions a type. -/
  | fieldType
  /-- The result of a method mentions a type. -/
  | returnType
  /-- A parameter of a method or constructor mentions a type. -/
  | parameterType
  /-- The signatures of an interface mention a type. -/
  | usesInSignature
  deriving DecidableEq, Repr, Inhabited

namespace EdgeKind

/-- The name of a relation in reports. -/
def label : EdgeKind → String
  | .declares => "DECLARES"
  | .extends => "EXTENDS"
  | .implements => "IMPLEMENTS"
  | .fieldType => "FIELD_TYPE"
  | .returnType => "RETURN_TYPE"
  | .parameterType => "PARAMETER_TYPE"
  | .usesInSignature => "USES_IN_SIGNATURE"

/-- Every relation. -/
def all : List EdgeKind :=
  [.declares, .extends, .implements, .fieldType, .returnType, .parameterType, .usesInSignature]

/-- Whether the relation says that a member mentions a type. -/
def isTypeUsage : EdgeKind → Bool
  | .fieldType | .returnType | .parameterType => true
  | _ => false

end EdgeKind

/-- Where an edge comes from. -/
inductive Provenance where
  /-- Stated by the source. -/
  | raw
  /-- Computed from other edges. -/
  | derived
  deriving DecidableEq, Repr, Inhabited

namespace Provenance

/-- The name of a provenance in reports. -/
def label : Provenance → String
  | .raw => "RAW"
  | .derived => "DERIVED"

/-- Every provenance. -/
def all : List Provenance := [.raw, .derived]

end Provenance

/-- A place in the signature of a method. -/
inductive SignaturePosition where
  /-- The result. -/
  | return
  /-- The parameter of a position, counted from zero. -/
  | parameter (position : Nat)
  deriving DecidableEq, Repr, Inhabited

/-- The place that justifies a derived edge. -/
structure EdgeProof where
  /-- The method. -/
  method : NodeId
  /-- The place in its signature. -/
  position : SignaturePosition
  deriving DecidableEq, Repr

/-- A relation between two nodes. -/
structure Edge where
  /-- The node that the edge leaves. -/
  source : NodeId
  /-- The node that the edge enters. -/
  target : NodeId
  /-- The relation. -/
  kind : EdgeKind
  /-- Where the edge comes from. -/
  provenance : Provenance
  /-- What justifies the edge, if it is kept. -/
  proof : Option EdgeProof
  deriving DecidableEq, Repr

namespace Edge

/-- An edge that the source states. -/
def raw (source target : NodeId) (kind : EdgeKind) : Edge :=
  { source, target, kind, provenance := .raw, proof := none }

/-- The computed edge from an interface to a type that its signatures mention. -/
def signatureUse (interface used : NodeId) (proof : EdgeProof) : Edge where
  source := interface
  target := used
  kind := .usesInSignature
  provenance := .derived
  proof := some proof

/-- Whether the edge is computed. -/
def isDerived (e : Edge) : Bool := e.provenance = .derived

end Edge

end RoleAudit
