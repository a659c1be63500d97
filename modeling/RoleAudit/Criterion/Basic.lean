import RoleAudit.Classification.Decision
import RoleAudit.Graph.Query

/-!
# Criteria

A criterion proposes one role. Asked about a type it stays silent, matches with its reasons, or
breaks down. A criterion that breaks down for a type contributes nothing to it but a remark, and
the other criteria are asked all the same.
-/

namespace RoleAudit

/-- What a criterion says of a type. -/
inductive Verdict where
  /-- Nothing. -/
  | silent
  /-- The type has the role. -/
  | matched (m : Match)
  /-- It could not tell; the causes go from the outermost to the innermost. -/
  | failed (causes : List String)
  /-- It broke down, with a message if it left one. -/
  | crashed (message : Option String)
  deriving DecidableEq, Repr

/-- A rule that proposes a role. -/
structure Criterion where
  /-- The name in reports. -/
  name : String
  /-- How much it counts. -/
  priority : Nat
  /-- The role it proposes. -/
  role : Role
  /-- What it says of a type of a graph. -/
  judge : Graph → TypeNode → Verdict

/-! ## Priorities -/

namespace Priority

/-- Of markers and of the settings. -/
def explicit : Nat := 100

/-- Of the facts on interfaces. -/
def semantic : Nat := 85

/-- Of telling names and forms. -/
def strong : Nat := 80

/-- Of what types inherit and of how they are used. -/
def relationship : Nat := 75

/-- Of the shape of the graph around a type. -/
def graph : Nat := 70

/-- Of hints. -/
def weak : Nat := 60

end Priority

/-! ## Evaluation -/

/-- What all criteria together say of a type. -/
structure Evaluation where
  /-- The roles that were proposed, in the order of the criteria. -/
  contributions : List Contribution
  /-- A remark for every criterion that failed, in the order of the criteria. -/
  diagnostics : List Evidence
  deriving DecidableEq, Repr

namespace Verdict

/-- Why a criterion has no opinion, where it should have one. -/
def failure? : Verdict → Option String
  | .silent => none
  | .matched _ => none
  | .failed causes => some (": ".intercalate causes)
  | .crashed message => some ("panicked: " ++ message.getD "unknown panic payload")

/-- The match, if there is one. -/
def match? : Verdict → Option Match
  | .matched m => some m
  | _ => none

end Verdict

namespace Criterion

/-- The contribution of a match. -/
def contribution (c : Criterion) (m : Match) : Contribution where
  criterion := c.name
  role := c.role
  priority := c.priority
  confidence := m.confidence
  justification := m.justification
  evidence := m.evidence

/-- What a criterion contributes to a type. -/
def contribution? (c : Criterion) (g : Graph) (t : TypeNode) : Option Contribution :=
  (c.judge g t).match?.map c.contribution

/-- The remark on a criterion that failed for a type. -/
def diagnostic? (c : Criterion) (g : Graph) (t : TypeNode) : Option Evidence :=
  (c.judge g t).failure?.map fun message =>
    .ofDiagnostic ("Criterion '" ++ c.name ++ "' failed: " ++ message)

/-- Asks every criterion whose role is in one of the families about a type. -/
def evaluate (criteria : List Criterion) (g : Graph) (families : List Family) (t : TypeNode) :
    Evaluation :=
  let asked := criteria.filter fun c => families.contains c.role.family
  { contributions := asked.filterMap (·.contribution? g t)
    diagnostics := asked.filterMap (·.diagnostic? g t) }

end Criterion

end RoleAudit
