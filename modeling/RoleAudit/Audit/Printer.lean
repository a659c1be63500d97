import RoleAudit.Audit.Report
import RoleAudit.Json.Printer
import RoleAudit.Text.Style
import RoleAudit.Text.Table

/-!
# Printed reports

A report is printed as JSON or as a text with tables. The text ends with the verdict.
-/

namespace RoleAudit

/-- The form of a printed report. -/
inductive ReportFormat where
  /-- A text with tables. -/
  | text
  /-- JSON over several lines. -/
  | json
  deriving DecidableEq, Repr

/-- The colour in which a severity is shown. -/
def Severity.color : Severity → Color
  | info => .green
  | minor => .blue
  | major => .yellow
  | critical => .red
  | blocker => .magenta

namespace AuditReport

/-- A headline on a line of its own. -/
def headline (styled : Bool) (title : String) : String :=
  Style.paint styled { bold := true } title ++ "\n"

/-- How many types have each status. -/
def statusTable (s : ClassificationSummary) : Table where
  header := ["Status", "Count"]
  rows :=
    [[Status.classified.label, toString s.classified],
      [Status.unclassified.label, toString s.unclassified],
      [Status.conflict.label, toString s.conflicts],
      [Status.notAnalyzed.label, toString s.notAnalyzed],
      ["TOTAL", toString s.total]]

/-- The row of a result. -/
def resultRow (r : ClassificationResult) : List String :=
  [r.nodeId.value, r.status.label, (r.role.map Role.label).getD "",
    (r.confidence.map Confidence.label).getD "", r.criterion.getD ""]

/-- The results of all types. -/
def resultTable (c : Classification) : Table where
  header := ["Type", "Status", "Kind", "Confidence", "Criterion"]
  rows := c.results.map resultRow

/-- All violations. -/
def violationTable (violations : List Violation) : Table where
  header := ["Severity", "Constraint", "Message"]
  rows := violations.map fun v => [v.severity.label, v.constraint, v.message]

/-- How many violations have each severity, the gravest first. -/
def severityCounts (styled : Bool) (r : AuditReport) : String :=
  "  ".intercalate (Severity.all.reverse.map fun s =>
    Style.paint styled { color := some s.color } s.label ++ ": " ++ toString (r.countOf s))

/-- The part on violations. -/
def violationText (styled : Bool) (r : AuditReport) : String :=
  if r.violations.isEmpty then "none\n"
  else (violationTable r.violations).render ++ "\n" ++ severityCounts styled r ++ "\n"

/-- The line of a type whose result the policy refuses. -/
def failureLine (r : AuditReport) (id : NodeId) : String :=
  let status := ((r.classification.get? id).map (·.status.label)).getD "UNKNOWN"
  "  " ++ id.value ++ " (" ++ status ++ ")\n"

/-- The part on results that the policy refuses; nothing when there are none. -/
def failureText (styled : Bool) (r : AuditReport) : String :=
  if r.policyFailures.isEmpty then ""
  else "\n" ++ headline styled "Policy failures" ++ String.join (r.policyFailures.map r.failureLine)

/-- The last line. -/
def verdict (styled : Bool) (r : AuditReport) : String :=
  let outcome :=
    if r.passed then Style.paint styled { bold := true, color := some .green } "PASSED"
    else Style.paint styled { bold := true, color := some .red } "FAILED"
  outcome ++ ": " ++ toString r.blocking.length ++ " violation(s) at or above " ++ r.failOn.label
    ++ ", " ++ toString r.policyFailures.length ++ " policy failure(s)\n"

/-- The report as a text; `detailed` adds the table of all types. -/
def text (styled detailed : Bool) (r : AuditReport) : String :=
  headline styled "Classification" ++ (statusTable r.summary).render ++ "\n"
    ++ (if detailed then
          "\n" ++ headline styled "Types" ++ (resultTable r.classification).render ++ "\n"
        else "")
    ++ "\n" ++ headline styled "Violations" ++ violationText styled r
    ++ failureText styled r
    ++ "\n" ++ verdict styled r

/-- The report as JSON, with a line break at the end. -/
def jsonText (r : AuditReport) : String := r.toJson.indented ++ "\n"

/-- The report in a form. Only the text has styles and details. -/
def print (form : ReportFormat) (styled detailed : Bool) (r : AuditReport) : String :=
  match form with
  | .text => r.text styled detailed
  | .json => r.jsonText

end AuditReport

end RoleAudit
