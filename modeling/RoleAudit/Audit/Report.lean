import RoleAudit.Classification.Classifier
import RoleAudit.Constraint.Standard
import RoleAudit.Model.Build

/-!
# Audits

An audit of a model builds its graph, gives every type its role and checks the constraints. It
passes when no violation is as grave as the threshold of the settings and no result is refused by
their policy.
-/

namespace RoleAudit

/-- All that an audit found. -/
structure AuditReport where
  /-- How many results there are of each kind. -/
  summary : ClassificationSummary
  /-- The results of all types. -/
  classification : Classification
  /-- The broken constraints. -/
  violations : List Violation
  /-- The types whose results the policy refuses. -/
  policyFailures : List NodeId
  /-- The least severity that fails the audit. -/
  failOn : Severity
  /-- Whether the audit passed. -/
  passed : Bool

namespace AuditReport

/-- The violations that fail the audit. -/
def blocking (r : AuditReport) : List Violation :=
  r.violations.filter fun v => r.failOn ≤ v.severity

/-- How many violations have a severity. -/
def countOf (r : AuditReport) (severity : Severity) : Nat :=
  r.violations.countP fun v => v.severity = severity

/-- The report on a classified graph. -/
def ofClassification (settings : Settings) (g : Graph) (classification : Classification) :
    AuditReport :=
  let constraints := Constraint.standard settings (Anchors.ofGraph g)
  let violations := Constraint.check constraints settings.constraints g classification
  let failures := classification.policyFailures settings.classification.policy
  { summary := classification.summary
    classification
    violations
    policyFailures := failures.map (·.nodeId)
    failOn := settings.constraints.failOn
    passed := failures.isEmpty && violations.all fun v => v.severity < settings.constraints.failOn }

/-- A report as JSON. -/
def toJson (r : AuditReport) : Json :=
  .object [
    ("summary", r.summary.toJson),
    ("classifications",
      .object [("results", .array (r.classification.results.map ClassificationResult.toJson))]),
    ("violations", .array (r.violations.map Violation.toJson)),
    ("policy_failures", NodeId.listToJson r.policyFailures),
    ("fail_on", r.failOn.toJson),
    ("passed", .bool r.passed)]

end AuditReport

/-- Audits a model. A fault in the structure of the model comes before one in the settings. -/
def Model.audit (m : Model) (regexes : RegexLibrary) (settings : Settings) :
    Except Error AuditReport := do
  let g ← m.build
  let classifier ← Classifier.ofSettings regexes settings.classification []
  return .ofClassification settings g (classifier.classify g)

end RoleAudit
