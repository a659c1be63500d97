/-!
# TOML values

The value of a TOML document. Tables remember how they came to be, because that decides whether a
later line of the document may add to them.
-/

namespace RoleAudit

/-- How a table came to be. -/
inductive TomlTable where
  /-- By a header of its own. -/
  | header
  /-- As the parent of a header. -/
  | parent
  /-- By a dotted key. -/
  | dotted
  /-- In braces on the right of a key. -/
  | braces
  deriving DecidableEq, Repr

/-- A TOML value. -/
inductive Toml where
  /-- A text. -/
  | text (value : String)
  /-- An integer. -/
  | integer (value : Int)
  /-- A number that is no integer, without its underscores. -/
  | float (token : String)
  /-- A truth value. -/
  | bool (value : Bool)
  /-- A date, a time or both, as a text. -/
  | date (value : String)
  /-- A list in brackets. -/
  | array (items : List Toml)
  /-- The tables under one double header. -/
  | tables (items : List Toml)
  /-- A table. -/
  | table (origin : TomlTable) (entries : List (String × Toml))
  deriving Inhabited

end RoleAudit
