/-!
# Regular expressions

Expressions are compiled and matched by a library. Two things are used of it: how a text is written so
that it stands for itself in an expression, and how an expression becomes a test of texts. A library is a
value with these two functions, and what uses one takes it as an argument.

The expressions in use are sequences of a few pieces: the two ends of a text, and a single character
(given, or any but a line break, or any but a dot) once or any number of times.
-/

namespace RoleAudit

/-- Why an expression cannot be used. -/
inductive RegexFault where
  /-- It is not written as expressions are. -/
  | malformed (detail : String)
  /-- It compiles to more than the limit, in bytes. -/
  | tooBig (limit : Nat)
  deriving DecidableEq, Repr

/-- The wording of a fault. -/
def RegexFault.message : RegexFault → String
  | malformed detail => detail
  | tooBig limit => "Compiled regex exceeds size limit of " ++ toString limit ++ " bytes."

/-- A library of regular expressions. -/
structure RegexLibrary where
  /-- Writes a text so that it stands for itself in an expression. -/
  escape : String → String
  /-- Turns an expression into the test whether there is a match of it in a text. -/
  compile : String → Except RegexFault (String → Bool)

namespace Regex

/-- A choice of characters. -/
inductive Atom where
  /-- The character itself. -/
  | literal (c : Char)
  /-- All but a line break. -/
  | any
  /-- All but a dot. -/
  | exceptDot
  deriving DecidableEq, Repr

/-- A character is one of the choice. -/
def Atom.Takes : Atom → Char → Prop
  | literal d, c => c = d
  | any, c => c ≠ '\n'
  | exceptDot, c => c ≠ '.'

instance : (a : Atom) → (c : Char) → Decidable (a.Takes c)
  | .literal d, c => inferInstanceAs (Decidable (c = d))
  | .any, c => inferInstanceAs (Decidable (c ≠ '\n'))
  | .exceptDot, c => inferInstanceAs (Decidable (c ≠ '.'))

/-- A piece of an expression. -/
inductive Piece where
  /-- The beginning of the text. -/
  | start
  /-- The end of the text. -/
  | stop
  /-- One character. -/
  | once (a : Atom)
  /-- Any number of characters. -/
  | many (a : Atom)
  deriving DecidableEq, Repr

end Regex

end RoleAudit
