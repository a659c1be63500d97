import RoleAudit.Json.Decoder

/-!
# Severities

How grave a broken constraint is. Severities are ordered from the least to the most grave, so that
`threshold ≤ severity` tells whether a finding fails an audit.
-/

namespace RoleAudit

/-- How grave a finding is. -/
inductive Severity where
  /-- Worth knowing. -/
  | info
  /-- A blemish. -/
  | minor
  /-- A defect. -/
  | major
  /-- A serious defect. -/
  | critical
  /-- A defect that stops everything. -/
  | blocker
  deriving DecidableEq, Repr, Inhabited

namespace Severity

/-- The name of a severity in settings and reports. -/
def label : Severity → String
  | info => "INFO"
  | minor => "MINOR"
  | major => "MAJOR"
  | critical => "CRITICAL"
  | blocker => "BLOCKER"

/-- Every severity, least grave first. -/
def all : List Severity := [info, minor, major, critical, blocker]

/-- The place of a severity in the order. -/
def rank : Severity → Nat
  | info => 0
  | minor => 1
  | major => 2
  | critical => 3
  | blocker => 4

instance : LE Severity := ⟨fun a b => a.rank ≤ b.rank⟩

instance : LT Severity := ⟨fun a b => a.rank < b.rank⟩

instance (a b : Severity) : Decidable (a ≤ b) := inferInstanceAs (Decidable (a.rank ≤ b.rank))

instance (a b : Severity) : Decidable (a < b) := inferInstanceAs (Decidable (a.rank < b.rank))

/-- The severities of a list, least grave first. -/
def sort (items : List Severity) : List Severity := items.mergeSort fun a b => a ≤ b

/-- A severity as JSON. -/
def toJson (s : Severity) : Json := .string s.label

/-- Reads a severity. -/
def decode : Json.Decoder Severity := Json.decodeLabel all label

end Severity

end RoleAudit
