import RoleAudit.Error
import RoleAudit.Settings.Basic

/-!
# Settings as JSON

For every group of settings a writer and, beside it, the reader of the same shape. Everything may
be left out. How a severity is spelled and what an array may hold in place of a record is up to the
text that is read, so readers take a `SettingsDialect`.
-/

namespace RoleAudit

open Json (Decoder Record)

/-- What depends on the text that settings are read off. -/
structure SettingsDialect where
  /-- Reads a severity. -/
  severity : Decoder Severity
  /-- Opens a record with the given fields. -/
  record : List String → Decoder Record

/-- Settings in a JSON text. -/
def SettingsDialect.json : SettingsDialect where
  severity := Severity.decode
  record := Record.ofJson?

/-- A policy as JSON. -/
def ClassificationPolicy.toJson (p : ClassificationPolicy) : Json :=
  .object [
    ("fail_on_unclassified", .bool p.failOnUnclassified),
    ("fail_on_conflict", .bool p.failOnConflict)]

/-- Reads a policy. -/
def ClassificationPolicy.decodeWith (d : SettingsDialect) : Decoder ClassificationPolicy :=
  fun levels value => do
    let r ← d.record ["fail_on_unclassified", "fail_on_conflict"] levels value
    return {
      failOnUnclassified := ← r.defaulted "fail_on_unclassified" false Json.decodeBool
      failOnConflict := ← r.defaulted "fail_on_conflict" true Json.decodeBool }

/-- Settings of classification as JSON. -/
def ClassificationSettings.toJson (s : ClassificationSettings) : Json :=
  .object [
    ("exclude_patterns", Json.ofStrings s.excludePatterns),
    ("explicit", Json.ofDictionary .string s.explicit),
    ("validation", s.policy.toJson)]

/-- Reads settings of classification. -/
def ClassificationSettings.decodeWith (d : SettingsDialect) : Decoder ClassificationSettings :=
  fun levels value => do
    let r ← d.record ["exclude_patterns", "explicit", "validation"] levels value
    return {
      excludePatterns := ← r.defaulted "exclude_patterns" [] (Json.decodeList Json.decodeString)
      explicit := ← r.defaulted "explicit" .empty (Json.decodeDictionary Json.decodeString)
      policy := ← r.defaulted "validation" {} (ClassificationPolicy.decodeWith d) }

/-- Settings of the search for cycles as JSON. -/
def CycleSettings.toJson (s : CycleSettings) : Json :=
  .object [
    ("max_cycles", .ofNat s.maxCycles),
    ("max_dependencies_per_edge", .ofNat s.maxDependenciesPerEdge),
    ("include_transitive", .bool s.includeDerived)]

/-- Reads settings of the search for cycles. -/
def CycleSettings.decodeWith (d : SettingsDialect) : Decoder CycleSettings :=
  fun levels value => do
    let r ← d.record ["max_cycles", "max_dependencies_per_edge", "include_transitive"] levels value
    return {
      maxCycles := ← r.defaulted "max_cycles" 100 Json.decodeCount
      maxDependenciesPerEdge := ← r.defaulted "max_dependencies_per_edge" 10 Json.decodeCount
      includeDerived := ← r.defaulted "include_transitive" true Json.decodeBool }

/-- Reads settings of the search for cycles off JSON. -/
def CycleSettings.decode : Decoder CycleSettings := decodeWith .json

/-- Settings of constraints as JSON. -/
def ConstraintSettings.toJson (s : ConstraintSettings) : Json :=
  .object [
    ("disabled", Json.ofStrings s.disabled),
    ("severity_overrides", Json.ofDictionary Severity.toJson s.severityOverrides),
    ("forbidden_domain_prefixes", Json.ofStrings s.forbiddenDomainPrefixes),
    ("fail_on", s.failOn.toJson)]

/-- Reads settings of constraints. -/
def ConstraintSettings.decodeWith (d : SettingsDialect) : Decoder ConstraintSettings :=
  fun levels value => do
    let r ← d.record ["disabled", "severity_overrides", "forbidden_domain_prefixes", "fail_on"]
      levels value
    return {
      disabled := ← r.defaulted "disabled" [] (Json.decodeList Json.decodeString)
      severityOverrides :=
        ← r.defaulted "severity_overrides" .empty (Json.decodeDictionary d.severity)
      forbiddenDomainPrefixes := ← r.defaulted "forbidden_domain_prefixes"
        defaultForbiddenPrefixes (Json.decodeList Json.decodeString)
      failOn := ← r.defaulted "fail_on" .critical d.severity }

namespace Settings

/-- All settings as JSON. -/
def toJson (s : Settings) : Json :=
  .object [
    ("classification", s.classification.toJson),
    ("cycles", s.cycles.toJson),
    ("audit", s.constraints.toJson)]

/-- Reads all settings. -/
def decodeWith (d : SettingsDialect) : Decoder Settings := fun levels value => do
  let r ← d.record ["classification", "cycles", "audit"] levels value
  return {
    classification := ← r.defaulted "classification" {} (ClassificationSettings.decodeWith d)
    cycles := ← r.defaulted "cycles" {} (CycleSettings.decodeWith d)
    constraints := ← r.defaulted "audit" {} (ConstraintSettings.decodeWith d) }

/-- Reads all settings off JSON. -/
def decode : Decoder Settings := decodeWith .json

end Settings

end RoleAudit
