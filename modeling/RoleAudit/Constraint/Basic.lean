import RoleAudit.Classification.Result
import RoleAudit.Graph.Query

/-!
# Constraints

A constraint is a rule of the architecture. It is checked against a graph and the classification of
its types and gives the violations it finds. Constraints do not depend on each other.
-/

namespace RoleAudit

/-- A rule that is broken, and where. -/
structure Violation where
  /-- The id of the constraint. -/
  constraint : String
  /-- How grave it is. -/
  severity : Severity
  /-- What is broken, in words. -/
  message : String
  /-- The nodes that take part. -/
  nodes : List NodeId
  deriving DecidableEq, Repr

namespace Violation

/-- The violation in one line. -/
def text (v : Violation) : String :=
  "[" ++ v.severity.label ++ "] " ++ v.constraint ++ ": " ++ v.message

/-- A violation as JSON. -/
def toJson (v : Violation) : Json :=
  .object [
    ("constraint_id", .string v.constraint),
    ("severity", v.severity.toJson),
    ("message", .string v.message),
    ("nodes", NodeId.listToJson v.nodes)]

end Violation

/-- A rule of the architecture. -/
structure Constraint where
  /-- The id in settings and reports. -/
  id : String
  /-- How grave it is to break the rule. -/
  severity : Severity
  /-- The violations in a graph. -/
  findings : Graph → Classification → List Violation

namespace Constraint

/-- A violation that has the severity of its constraint takes the one that the settings give in its
place; any other severity stays. -/
def adjusted (s : ConstraintSettings) (c : Constraint) (v : Violation) : Violation :=
  if v.severity = c.severity then { v with severity := s.severityFor c.id c.severity } else v

/-- The violations of all constraints that the settings do not switch off, in order. -/
def check (constraints : List Constraint) (s : ConstraintSettings) (g : Graph)
    (classification : Classification) : List Violation :=
  (constraints.filter fun c => s.isEnabled c.id).flatMap fun c =>
    (c.findings g classification).map (adjusted s c)

end Constraint

end RoleAudit
