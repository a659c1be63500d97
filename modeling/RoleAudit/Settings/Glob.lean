import RoleAudit.Error

/-!
# Globs over qualified names

A glob describes names. `?` stands for one character of a name part, `*` for any characters of one
part, `**` for any characters across parts, and every other character for itself. A part is what
stands between dots, so `?` and `*` do not match a dot; `**` matches all but a line break. A glob
has to match the whole name.

A glob is turned into a regular expression, and the rest is left to the library of regular expressions.
Globs are compiled before they are used, and one that the library refuses is an error.
-/

namespace RoleAudit

namespace Glob

/-- The expression for some characters of a glob; stars are paired from the left. -/
def regexBody (escape : String → String) : List Char → String
  | [] => ""
  | '*' :: '*' :: rest => ".*" ++ regexBody escape rest
  | '*' :: rest => "[^.]*" ++ regexBody escape rest
  | '?' :: rest => "[^.]" ++ regexBody escape rest
  | c :: rest => escape (String.singleton c) ++ regexBody escape rest

/-- The expression for a glob, from the beginning of a name to its end. -/
def regexText (escape : String → String) (glob : String) : String :=
  "^" ++ regexBody escape glob.toList ++ "$"

/-- The test whether a glob matches a name. -/
def compile (regexes : RegexLibrary) (glob : String) : Except Error (String → Bool) :=
  match regexes.compile (regexText regexes.escape glob) with
  | .ok test => .ok test
  | .error fault => .error (.invalidPattern glob fault)

end Glob

/-- Globs that were compiled. -/
structure ExclusionMatcher where
  /-- The tests of the globs, in order. -/
  patterns : List (String → Bool) := []

namespace ExclusionMatcher

/-- Compiles globs; the first one that is refused is the error. -/
def ofGlobs (regexes : RegexLibrary) (globs : List String) : Except Error ExclusionMatcher := do
  return { patterns := ← globs.mapM (Glob.compile regexes) }

/-- Whether one of the globs matches a name. -/
def isExcluded (m : ExclusionMatcher) (name : String) : Bool := m.patterns.any (· name)

/-- Whether there are no globs. -/
def isEmpty (m : ExclusionMatcher) : Bool := m.patterns.isEmpty

end ExclusionMatcher

end RoleAudit
