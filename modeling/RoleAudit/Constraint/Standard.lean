import RoleAudit.Constraint.Layer
import RoleAudit.Constraint.PackageCycle
import RoleAudit.Constraint.Port

/-!
# The standard constraints
-/

namespace RoleAudit.Constraint

/-- All constraints, in the order in which they report. The anchors are those of the graph that is
checked. -/
def standard (settings : Settings) (anchors : Anchors) : List Constraint :=
  [aggregateCycle settings.cycles,
    portDependency anchors,
    valueObjectImmutable,
    portDirection anchors,
    portCoverage,
    domainPurity settings.constraints.forbiddenDomainPrefixes,
    layering,
    packageCycles settings.cycles]

end RoleAudit.Constraint
