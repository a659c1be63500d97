import RoleAudit.Dictionary
import RoleAudit.Settings.Glob
import RoleAudit.Severity

/-!
# Settings

What a user can set: which types are left out and which roles are given by hand, how far the search
for cycles goes, and which constraints count. Every setting has a value of its own where the user
says nothing.
-/

namespace RoleAudit

/-- What makes a classification count as failed. -/
structure ClassificationPolicy where
  /-- A type with a signal and no role fails. -/
  failOnUnclassified : Bool := false
  /-- A type with contradicting roles fails. -/
  failOnConflict : Bool := true
  deriving DecidableEq, Repr

/-- How types get their roles. -/
structure ClassificationSettings where
  /-- Globs of the qualified names that are left out. -/
  excludePatterns : List String := []
  /-- The name of a role by qualified name. -/
  explicit : Dictionary String := .empty
  /-- What makes the result count as failed. -/
  policy : ClassificationPolicy := {}
  deriving DecidableEq, Repr

/-- What tells the names that are left out. -/
def ClassificationSettings.exclusionMatcher (s : ClassificationSettings) (regexes : RegexLibrary) :
    Except Error ExclusionMatcher :=
  ExclusionMatcher.ofGlobs regexes s.excludePatterns

/-- How far the search for cycles goes. -/
structure CycleSettings where
  /-- How many cycles are reported. -/
  maxCycles : Nat := 100
  /-- How many type edges are kept for an edge between packages. -/
  maxDependenciesPerEdge : Nat := 10
  /-- Whether derived edges count. -/
  includeDerived : Bool := true
  deriving DecidableEq, Repr

/-- The packages that a domain type should not mention. -/
def defaultForbiddenPrefixes : List String :=
  ["javax.persistence", "jakarta.persistence", "org.springframework", "org.hibernate",
    "com.fasterxml.jackson", "javax.ws.rs", "jakarta.ws.rs"]

/-- Which constraints count, and how much. -/
structure ConstraintSettings where
  /-- The ids of the constraints that are not checked. -/
  disabled : List String := []
  /-- The severity of a constraint in place of its own. -/
  severityOverrides : Dictionary Severity := .empty
  /-- The packages that a domain type should not mention. -/
  forbiddenDomainPrefixes : List String := defaultForbiddenPrefixes
  /-- The least severity that fails an audit. -/
  failOn : Severity := .critical
  deriving DecidableEq, Repr

namespace ConstraintSettings

/-- Whether a constraint is checked. -/
def isEnabled (s : ConstraintSettings) (id : String) : Bool := !s.disabled.contains id

/-- The severity of a constraint whose own is given. -/
def severityFor (s : ConstraintSettings) (id : String) (own : Severity) : Severity :=
  (s.severityOverrides.get? id).getD own

end ConstraintSettings

/-- All settings. -/
structure Settings where
  /-- How types get their roles. -/
  classification : ClassificationSettings := {}
  /-- How far the search for cycles goes. -/
  cycles : CycleSettings := {}
  /-- Which constraints count. -/
  constraints : ConstraintSettings := {}
  deriving DecidableEq, Repr

end RoleAudit
