import RoleAudit.Settings.Codec
import RoleAudit.Toml.Parser

/-!
# Settings as a text

Settings are written in TOML. A text is read into the value that it describes, and the settings are
read off that value as they are off JSON.
-/

namespace RoleAudit

namespace Toml

mutual

/-- The described value. A date is a table with its text under a key of its own. -/
def toJson : Toml → Json
  | .text s => .string s
  | .integer n => .integer n
  | .float token => .decimal token
  | .bool b => .bool b
  | .date moment => .object [("$__toml_private_datetime", .string moment)]
  | .array items => .array (itemsToJson items)
  | .tables items => .array (itemsToJson items)
  | .table _ entries => .object (entriesToJson entries)

/-- The described values of a list. -/
def itemsToJson : List Toml → List Json
  | [] => []
  | item :: items => toJson item :: itemsToJson items

/-- The described members of a table. -/
def entriesToJson : List (String × Toml) → List (String × Json)
  | [] => []
  | (key, value) :: entries => (key, toJson value) :: entriesToJson entries

end

end Toml

/-- Reads a severity off a text: its name, or a table with its name for the only key and nothing
under it. -/
def Severity.decodeToml : Json.Decoder Severity
  | _, .string s => all.find? (·.label = s)
  | _, .object [(s, .object [])] => all.find? (·.label = s)
  | _, .object [(s, .array [])] => all.find? (·.label = s)
  | _, _ => none

/-- Settings in a TOML text. In place of a record there may be an array with more items than the
record has fields; what is over is not looked at. -/
def SettingsDialect.toml : SettingsDialect where
  severity := Severity.decodeToml
  record := Json.Record.ofLeading?

namespace Settings

/-- Refuses settings without meaning. Patterns are compiled to see that they can be. -/
def validated (regexes : RegexLibrary) (s : Settings) : Except Error Settings := do
  if s.cycles.maxCycles = 0 then
    throw (.configuration "cycles.max_cycles must be at least 1")
  let _ ← s.classification.exclusionMatcher regexes
  return s

/-- Reads settings off a TOML text. -/
def ofText (regexes : RegexLibrary) (text : String) : Except Error Settings :=
  match (Toml.parse? text).bind fun value =>
      (decodeWith .toml).ofValue? value.toJson with
  | some s => s.validated regexes
  | none => .error .malformedToml

end Settings

end RoleAudit
