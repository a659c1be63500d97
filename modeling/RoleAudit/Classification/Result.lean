import RoleAudit.Classification.Decision
import RoleAudit.Settings.Basic

/-!
# Results

What classification says of a type: its role with the reasons, or why it has none. Matches that did
not decide are kept beside it for review.
-/

namespace RoleAudit

/-- How the classification of a type ended. -/
inductive Status where
  /-- With a role. -/
  | classified
  /-- Without a role, though the type carries a signal. -/
  | unclassified
  /-- With contradicting roles. -/
  | conflict
  /-- Without a role, as the type carries no signal. -/
  | notAnalyzed
  deriving DecidableEq, Repr, Inhabited

namespace Status

/-- The name of a status in reports. -/
def label : Status → String
  | classified => "CLASSIFIED"
  | unclassified => "UNCLASSIFIED"
  | conflict => "CONFLICT"
  | notAnalyzed => "NOT_ANALYZED"

/-- Every status. -/
def all : List Status := [classified, unclassified, conflict, notAnalyzed]

/-- A status as JSON. -/
def toJson (s : Status) : Json := .string s.label

/-- Reads a status. -/
def decode : Json.Decoder Status := Json.decodeLabel all label

end Status

/-- How much a match that did not decide contradicts the result. -/
inductive ConflictSeverity where
  /-- Not at all, or with a lower rank than those that do. -/
  | warning
  /-- It contradicts. -/
  | error
  deriving DecidableEq, Repr, Inhabited

namespace ConflictSeverity

/-- The name in reports. -/
def label : ConflictSeverity → String
  | warning => "WARNING"
  | error => "ERROR"

/-- Both. -/
def all : List ConflictSeverity := [warning, error]

end ConflictSeverity

/-- A match that did not decide. -/
structure Conflict where
  /-- The role. -/
  role : Role
  /-- The criterion. -/
  criterion : String
  /-- How much the criterion counts. -/
  priority : Nat
  /-- How sure the match is. -/
  confidence : Confidence
  /-- The reason in one line. -/
  justification : String
  /-- How much it contradicts the result. -/
  severity : ConflictSeverity
  deriving DecidableEq, Repr

namespace Conflict

/-- The entry of a contribution. -/
def ofContribution (severity : ConflictSeverity) (c : Contribution) : Conflict where
  role := c.role
  criterion := c.criterion
  priority := c.priority
  confidence := c.confidence
  justification := c.justification
  severity := severity

/-- An entry as JSON. -/
def toJson (c : Conflict) : Json :=
  .object [
    ("kind", c.role.toJson),
    ("criterion", .string c.criterion),
    ("priority", .ofNat c.priority),
    ("confidence", c.confidence.toJson),
    ("justification", .string c.justification),
    ("severity", .string c.severity.label)]

/-- Reads an entry. -/
def decode : Json.Decoder Conflict := fun levels value => do
  let r ← Json.Record.ofJson? ["kind", "criterion", "priority", "confidence", "justification",
    "severity"] levels value
  return {
    role := ← r.required "kind" Role.decode
    criterion := ← r.required "criterion" Json.decodeString
    priority := ← r.required "priority" Json.decodeWord
    confidence := ← r.required "confidence" Confidence.decode
    justification := ← r.required "justification" Json.decodeString
    severity := ← r.required "severity"
      (Json.decodeLabel ConflictSeverity.all ConflictSeverity.label) }

end Conflict

/-- What classification says of a type. -/
structure ClassificationResult where
  /-- The type. -/
  nodeId : NodeId
  /-- How it ended. -/
  status : Status
  /-- The family of the role, or the family of the type where it has none. -/
  target : Option Family := none
  /-- The role. -/
  role : Option Role := none
  /-- How sure the match is that decided. -/
  confidence : Option Confidence := none
  /-- How much its criterion counts. -/
  priority : Option Nat := none
  /-- Its criterion. -/
  criterion : Option String := none
  /-- Its reason in one line. -/
  justification : Option String := none
  /-- The reasons one by one. -/
  evidence : List Evidence := []
  /-- The matches that did not decide. -/
  conflicts : List Conflict := []
  /-- The direction of a port. -/
  direction : Option Direction := none
  /-- The criteria that failed. -/
  diagnostics : List Evidence := []
  deriving DecidableEq, Repr

namespace ClassificationResult

/-- The result of a type with a role. Other matches are kept where their role differs, as errors
where it contradicts. -/
def classified (nodeId : NodeId) (winner : Contribution) (others : List Contribution) :
    ClassificationResult where
  nodeId := nodeId
  status := .classified
  target := some winner.role.family
  role := some winner.role
  confidence := some winner.confidence
  priority := some winner.priority
  criterion := some winner.criterion
  justification := some winner.justification
  evidence := winner.evidence
  conflicts := (others.filter (·.role ≠ winner.role)).map fun c =>
    .ofContribution (if c.role.isCompatibleWith winner.role then .warning else .error) c
  direction := winner.role.direction?

/-- A contribution in one line. -/
def proposalSummary (c : Contribution) : Evidence :=
  .ofDiagnostic (c.criterion ++ " proposed " ++ c.role.label ++ " (" ++ c.confidence.label
    ++ ", priority " ++ toString c.priority ++ "): " ++ c.justification)

/-- The result of a type with contradicting roles. Every tied match is kept with its evidence. -/
def contradicted (nodeId : NodeId) (target : Family) (tied others : List Contribution) :
    ClassificationResult where
  nodeId := nodeId
  status := .conflict
  target := some target
  evidence := tied.flatMap fun c => proposalSummary c :: c.evidence
  conflicts := tied.map (.ofContribution .error) ++ others.map (.ofContribution .warning)

/-- The result of a type without a match. -/
def unmatched (nodeId : NodeId) (target : Family) (hasSignal : Bool) : ClassificationResult where
  nodeId := nodeId
  status := if hasSignal then .unclassified else .notAnalyzed
  target := some target

/-- The result of a decision; `target` is the family of the type and stands where no role wins. -/
def ofDecision (nodeId : NodeId) (target : Family) (hasSignal : Bool) :
    Decision → ClassificationResult
  | .winner winner others => classified nodeId winner others
  | .conflict tied others => contradicted nodeId target tied others
  | .empty => unmatched nodeId target hasSignal

/-- Whether the type has a role. -/
def isClassified (r : ClassificationResult) : Bool := r.status = .classified

/-- Whether a policy takes the result for a failure. -/
def fails (policy : ClassificationPolicy) (r : ClassificationResult) : Bool :=
  match r.status with
  | .conflict => policy.failOnConflict
  | .unclassified => policy.failOnUnclassified
  | _ => false

/-- A result as JSON; without diagnostics where there are none. -/
def toJson (r : ClassificationResult) : Json :=
  .object ([
    ("node_id", r.nodeId.toJson),
    ("status", r.status.toJson),
    ("target", Json.ofOption Family.toJson r.target),
    ("kind", Json.ofOption Role.toJson r.role),
    ("confidence", Json.ofOption Confidence.toJson r.confidence),
    ("priority", Json.ofOption .ofNat r.priority),
    ("criterion", Json.ofOption .string r.criterion),
    ("justification", Json.ofOption .string r.justification),
    ("evidence", Evidence.listToJson r.evidence),
    ("conflicts", .array (r.conflicts.map Conflict.toJson)),
    ("port_direction", Json.ofOption Direction.toJson r.direction)]
    ++ if r.diagnostics.isEmpty then [] else [("diagnostics", Evidence.listToJson r.diagnostics)])

/-- Reads a result. -/
def decode : Json.Decoder ClassificationResult := fun levels value => do
  let r ← Json.Record.ofJson? ["node_id", "status", "target", "kind", "confidence", "priority",
    "criterion", "justification", "evidence", "conflicts", "port_direction", "diagnostics"]
    levels value
  return {
    nodeId := ← r.required "node_id" NodeId.decode
    status := ← r.required "status" Status.decode
    target := ← r.optional "target" Family.decode
    role := ← r.optional "kind" Role.decode
    confidence := ← r.optional "confidence" Confidence.decode
    priority := ← r.optional "priority" Json.decodeWord
    criterion := ← r.optional "criterion" Json.decodeString
    justification := ← r.optional "justification" Json.decodeString
    evidence := ← r.required "evidence" (Json.decodeList Evidence.decode)
    conflicts := ← r.required "conflicts" (Json.decodeList Conflict.decode)
    direction := ← r.optional "port_direction" Direction.decode
    diagnostics := ← r.defaulted "diagnostics" [] (Json.decodeList Evidence.decode) }

end ClassificationResult

/-- How many results ended in which way, and how many belong to which family. -/
structure ClassificationSummary where
  /-- All results. -/
  total : Nat
  /-- Those with a role. -/
  classified : Nat
  /-- Those with a signal and no role. -/
  unclassified : Nat
  /-- Those with contradicting roles. -/
  conflicts : Nat
  /-- Those without a signal. -/
  notAnalyzed : Nat
  /-- Those of the domain. -/
  domain : Nat
  /-- Those of ports. -/
  ports : Nat
  /-- Those of data carriers. -/
  models : Nat
  deriving DecidableEq, Repr

/-- A summary as JSON. -/
def ClassificationSummary.toJson (s : ClassificationSummary) : Json :=
  .object [
    ("total", .ofNat s.total),
    ("classified", .ofNat s.classified),
    ("unclassified", .ofNat s.unclassified),
    ("conflicts", .ofNat s.conflicts),
    ("not_analyzed", .ofNat s.notAnalyzed),
    ("domain", .ofNat s.domain),
    ("ports", .ofNat s.ports),
    ("models", .ofNat s.models)]

/-- The results of all types in graph order. -/
structure Classification where
  /-- The results. -/
  results : List ClassificationResult
  deriving DecidableEq, Repr

namespace Classification

variable (c : Classification)

/-- The result of a type. -/
def get? (id : NodeId) : Option ClassificationResult := c.results.find? (·.nodeId = id)

/-- The role of a type. -/
def roleOf? (id : NodeId) : Option Role := (c.get? id).bind (·.role)

/-- The results that ended in one way. -/
def withStatus (status : Status) : List ClassificationResult :=
  c.results.filter (·.status = status)

/-- The results with a role of a family. -/
def ofFamily (family : Family) : List ClassificationResult :=
  c.results.filter fun r => r.isClassified && r.target = some family

/-- The results with a role. -/
def ofRole (role : Role) : List ClassificationResult := c.results.filter (·.role = some role)

/-- The results that a policy takes for failures. -/
def policyFailures (policy : ClassificationPolicy) : List ClassificationResult :=
  c.results.filter (·.fails policy)

/-- The counts of all results. -/
def summary : ClassificationSummary where
  total := c.results.length
  classified := c.results.countP (·.status = .classified)
  unclassified := c.results.countP (·.status = .unclassified)
  conflicts := c.results.countP (·.status = .conflict)
  notAnalyzed := c.results.countP (·.status = .notAnalyzed)
  domain := c.results.countP (·.target = some .domain)
  ports := c.results.countP (·.target = some .port)
  models := c.results.countP (·.target = some .model)

end Classification

end RoleAudit
