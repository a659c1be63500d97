import RoleAudit.Anchor
import RoleAudit.Constraint.Domain
import RoleAudit.Criterion.Shape

/-!
# Constraints on ports

Driven ports do not mention infrastructure and are implemented outside of tests; the core does not
use driving ports and does not implement driven ones.
-/

namespace RoleAudit.Constraint

/-- The ports of a direction. -/
def portsOf (g : Graph) (classification : Classification) (direction : Direction) :
    List TypeNode :=
  let ports := (classification.ofFamily .port).filter (·.direction = some direction)
  g.resolveTypes (ports.map (·.nodeId))

/-- The infrastructure types that the signatures of a port mention, by name. -/
def infrastructureNames (g : Graph) (anchors : Anchors) (port : TypeNode) : List String :=
  let mentioned := (g.methodsOf port.id).flatMap fun m => TypeRef.namesOfAll m.signatureTypes
  Text.sortedDistinct (mentioned.filter fun name =>
    Anchor.isInfrastructureType name || anchors.isInfrastructure (.ofType name))

/-- Driven ports do not mention infrastructure. -/
def portDependency (anchors : Anchors) : Constraint where
  id := "hexagonal:port-dependency"
  severity := .major
  findings g classification :=
    (portsOf g classification .driven).filterMap fun port =>
      match infrastructureNames g anchors port with
      | [] => none
      | found => some {
          constraint := "hexagonal:port-dependency"
          severity := .major
          message := "Driven port '" ++ port.simpleName ++ "' depends on infrastructure type(s): "
            ++ ", ".intercalate found
          nodes := port.id :: (found.map NodeId.ofType).filter g.contains }

/-- A port that core classes relate to in the wrong direction. -/
def directionViolation? (wording : String) (port : TypeNode) (coreClasses : List TypeNode) :
    Option Violation :=
  match coreClasses with
  | [] => none
  | found => some {
      constraint := "hexagonal:port-direction"
      severity := .major
      message := wording ++ TypeNode.namesLine found
      nodes := port.id :: found.map (·.id) }

/-- The core does not use driving ports and does not implement driven ones. -/
def portDirection (anchors : Anchors) : Constraint where
  id := "hexagonal:port-direction"
  severity := .major
  findings g classification :=
    let used := (portsOf g classification .driving).filterMap fun port =>
      directionViolation?
        ("Driving port '" ++ port.simpleName ++ "' is consumed by core class(es): ")
        port ((g.typesInjecting port.id).filter (anchors.isCore ·.id))
    let implemented := (portsOf g classification .driven).filterMap fun port =>
      directionViolation?
        ("Driven port '" ++ port.simpleName ++ "' is implemented by core class(es): ")
        port ((g.implementorsOf port.id).filter (anchors.isCore ·.id))
    used ++ implemented

/-- Driven ports are implemented outside of tests. -/
def portCoverage : Constraint where
  id := "hexagonal:port-coverage"
  severity := .major
  findings g classification :=
    let uncovered := (portsOf g classification .driven).filter fun port =>
      (g.implementorsOf port.id).all (·.isTestCode)
    uncovered.map fun port =>
      { constraint := "hexagonal:port-coverage"
        severity := .major
        message := "Driven port '" ++ port.simpleName ++ "' has no production implementation"
        nodes := [port.id] }

end RoleAudit.Constraint
