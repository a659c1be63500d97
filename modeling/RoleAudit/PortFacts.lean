import RoleAudit.Anchor
import RoleAudit.Element.Codec

/-!
# Facts on interfaces

Who implements an interface and who uses it tells whether it is a port and in which direction. The
facts are gathered once for a graph; all that follows from them is a function of the facts alone.
Test code does not count as an implementation, and interfaces of the platform have no facts.
-/

namespace RoleAudit

/-- What is known of an interface. -/
structure PortFacts where
  /-- The interface. -/
  interface : NodeId
  /-- How many types outside of tests implement it. -/
  implementations : Nat
  /-- None does. -/
  missing : Bool
  /-- Some do, and all of them are domain code. -/
  internalOnly : Bool
  /-- Some do, and all of them are infrastructure. -/
  infrastructureOnly : Bool
  /-- A core class depends on it. -/
  usedByCore : Bool
  /-- A core class implements it. -/
  implementedByCore : Bool
  /-- Its markers, package or name speak of a port. -/
  hasPortSignal : Bool
  deriving DecidableEq, Repr

namespace PortFacts

/-! ## Typical interfaces -/

/-- Implemented by the core and not used by it. -/
def driving (interface : NodeId) (implementations : Nat) (hasPortSignal : Bool) : PortFacts where
  interface := interface
  implementations := implementations
  missing := implementations == 0
  internalOnly := false
  infrastructureOnly := false
  usedByCore := false
  implementedByCore := true
  hasPortSignal := hasPortSignal

/-- Used by the core and not yet implemented. -/
def unimplemented (interface : NodeId) (hasPortSignal : Bool) : PortFacts where
  interface := interface
  implementations := 0
  missing := true
  internalOnly := false
  infrastructureOnly := false
  usedByCore := true
  implementedByCore := false
  hasPortSignal := hasPortSignal

/-- Used by the core and implemented inside the domain only. -/
def internal (interface : NodeId) (implementations : Nat) (hasPortSignal : Bool) : PortFacts where
  interface := interface
  implementations := implementations
  missing := false
  internalOnly := true
  infrastructureOnly := false
  usedByCore := true
  implementedByCore := false
  hasPortSignal := hasPortSignal

/-- Implemented by infrastructure only. -/
def adapted (interface : NodeId) (implementations : Nat) (hasPortSignal : Bool) : PortFacts where
  interface := interface
  implementations := implementations
  missing := false
  internalOnly := false
  infrastructureOnly := true
  usedByCore := false
  implementedByCore := false
  hasPortSignal := hasPortSignal

/-! ## What follows from the facts -/

variable (f : PortFacts)

/-- The outside calls the core through it. -/
def isDrivingCandidate : Bool := f.implementedByCore && !f.usedByCore

/-- The core uses it and no implementation stands outside. -/
def isDrivenWithoutSignal : Bool := f.usedByCore && (f.missing || f.internalOnly)

/-- The core uses it, no implementation stands outside, and it speaks of a port. -/
def isDrivenCandidate : Bool := f.isDrivenWithoutSignal && f.hasPortSignal

/-- The core uses it and others implement it. -/
def isDrivenExternally : Bool :=
  f.usedByCore && !f.implementedByCore && !f.missing && !f.internalOnly

/-- Infrastructure alone implements it. -/
def isDrivenByInfrastructure : Bool := f.infrastructureOnly && !f.implementedByCore

/-- Something outside of tests implements it. -/
def isImplemented : Bool := f.implementations > 0

/-- It is a matter of the domain alone. -/
def isInternal : Bool := f.isImplemented && f.internalOnly && !f.implementedByCore

/-- The core calls the outside through it. -/
def isDriven : Bool := f.isDrivenCandidate || f.isDrivenExternally || f.isDrivenByInfrastructure

/-- The facts do not tell. -/
def isUndecided : Bool :=
  !f.isDrivingCandidate && !f.isDrivenCandidate && !f.isDrivenExternally
    && !f.isDrivenByInfrastructure && !f.isInternal

/-! ## JSON -/

/-- Facts as JSON. -/
def toJson : Json :=
  .object [
    ("interface_id", f.interface.toJson),
    ("impls_prod_count", .ofNat f.implementations),
    ("missing_impl", .bool f.missing),
    ("internal_impl_only", .bool f.internalOnly),
    ("infra_impl_only", .bool f.infrastructureOnly),
    ("used_by_core", .bool f.usedByCore),
    ("implemented_by_core", .bool f.implementedByCore),
    ("has_port_annotation", .bool f.hasPortSignal)]

/-- Reads facts. -/
def decode : Json.Decoder PortFacts := fun levels value => do
  let r ← Json.Record.ofJson? ["interface_id", "impls_prod_count", "missing_impl",
    "internal_impl_only", "infra_impl_only", "used_by_core", "implemented_by_core",
    "has_port_annotation"] levels value
  return {
    interface := ← r.required "interface_id" NodeId.decode
    implementations := ← r.required "impls_prod_count" Json.decodeCount
    missing := ← r.required "missing_impl" Json.decodeBool
    internalOnly := ← r.required "internal_impl_only" Json.decodeBool
    infrastructureOnly := ← r.required "infra_impl_only" Json.decodeBool
    usedByCore := ← r.required "used_by_core" Json.decodeBool
    implementedByCore := ← r.required "implemented_by_core" Json.decodeBool
    hasPortSignal := ← r.required "has_port_annotation" Json.decodeBool }

end PortFacts

/-! ## The facts of a graph -/

/-- Markers that speak of a port. -/
def portMarkers : List String :=
  ["org.jmolecules.architecture.hexagonal.PrimaryPort",
    "org.jmolecules.architecture.hexagonal.SecondaryPort",
    "org.jmolecules.ddd.annotation.Repository"]

/-- Parts of names that speak of a port. -/
def portNameParts : List String :=
  ["Repository", "Saver", "Fetcher", "Finder", "Loader", "Store", "Gateway", "Client", "Adapter",
    "Publisher", "Sender", "Emitter", "Port"]

/-- Beginnings of the names of platform types. -/
def platformStarts : List String :=
  ["java.", "javax.", "jakarta.", "org.springframework.", "org.hibernate."]

namespace TypeNode

/-- Whether the markers, the package or the name of a type speak of a port. No letter outside the
Latin capitals has one of `port` for its lower case, so lowering those is enough. -/
def hasPortSignal (t : TypeNode) : Bool :=
  t.annotations.any (fun a => portMarkers.contains a.name)
    || Text.contains "port" (Text.toLowerAscii t.package)
    || portNameParts.any (Text.contains · t.simpleName)

/-- Whether a type belongs to the platform. -/
def isPlatformType (t : TypeNode) : Bool := platformStarts.any (Text.startsWith · t.name)

end TypeNode

/-- The types outside of tests that implement an interface. -/
def Graph.productionImplementors (g : Graph) (interface : NodeId) : List TypeNode :=
  (g.implementorsOf interface).filter (!·.isTestCode)

/-- The facts on an interface. -/
def PortFacts.ofInterface (g : Graph) (anchors : Anchors) (t : TypeNode) : PortFacts :=
  let implementors := g.productionImplementors t.id
  { interface := t.id
    implementations := implementors.length
    missing := implementors.isEmpty
    internalOnly := !implementors.isEmpty && implementors.all (anchors.isDomain ·.id)
    infrastructureOnly := !implementors.isEmpty && implementors.all (anchors.isInfrastructure ·.id)
    usedByCore := (g.typesInjecting t.id).any (anchors.isCore ·.id)
    implementedByCore := implementors.any (anchors.isCore ·.id)
    hasPortSignal := t.hasPortSignal }

/-- The facts on interfaces, by interface. -/
structure PortFactsIndex where
  /-- The facts of every interface that has any. -/
  facts : Std.TreeMap NodeId PortFacts := .empty

namespace PortFactsIndex

/-- An index of given facts; of two on one interface the later count. -/
def ofList (facts : List PortFacts) : PortFactsIndex :=
  ⟨facts.foldl (fun m f => m.insert f.interface f) .empty⟩

/-- The facts on all interfaces of a graph that do not belong to the platform. -/
def ofGraph (g : Graph) (anchors : Anchors) : PortFactsIndex :=
  .ofList ((g.interfaces.filter (!·.isPlatformType)).map (PortFacts.ofInterface g anchors))

/-- The facts on an interface. -/
def get? (ix : PortFactsIndex) (id : NodeId) : Option PortFacts := ix.facts.get? id

/-- All facts in the order of the ids. -/
def toList (ix : PortFactsIndex) : List PortFacts := ix.facts.toList.map (·.2)

/-- How many interfaces have facts. -/
def size (ix : PortFactsIndex) : Nat := ix.facts.size

end PortFactsIndex

end RoleAudit
