import RoleAudit.Distinct
import RoleAudit.Regex.Basic

/-!
# A library for the expressions in use

An expression is read in two steps: its characters make symbols, and a star belongs to the symbol before
it. What is written in another way is refused.

The search goes through a text character by character. It keeps every rest of the expression that a match
begun earlier may go on with, and begins a match at every position. Rests are ends of one expression, so
there are never more of them than the expression has pieces and one.
-/

namespace RoleAudit

namespace Regex

/-! ## Reading -/

/-- The characters that do not stand for themselves, or may not one day. -/
def metaCharacters : List Char :=
  ['\\', '.', '+', '*', '?', '(', ')', '|', '[', ']', '{', '}', '^', '$', '#', '&', '-', '~']

/-- A character such that it stands for itself. -/
def escapeChar (c : Char) : List Char := if c ∈ metaCharacters then ['\\', c] else [c]

/-- A text such that it stands for itself. -/
def escape (text : String) : String := String.ofList (text.toList.flatMap escapeChar)

/-- What an expression is written with. -/
inductive Symbol where
  /-- The beginning of the text. -/
  | start
  /-- The end of the text. -/
  | stop
  /-- A choice of characters. -/
  | atom (a : Atom)
  /-- The mark of what may come any number of times. -/
  | star
  deriving DecidableEq, Repr

/-- The symbol that a character is by itself. -/
def symbol? (c : Char) : Option Symbol :=
  if c = '^' then some .start
  else if c = '$' then some .stop
  else if c = '*' then some .star
  else if c = '.' then some (.atom .any)
  else if c ∈ metaCharacters then none
  else some (.atom (.literal c))

/-- The symbols of an expression. -/
def symbols? : List Char → Option (List Symbol)
  | [] => some []
  | '\\' :: c :: rest =>
    if c ∈ metaCharacters then (symbols? rest).map (.atom (.literal c) :: ·) else none
  | '[' :: '^' :: '.' :: ']' :: rest => (symbols? rest).map (.atom .exceptDot :: ·)
  | c :: rest => (symbol? c).bind fun s => (symbols? rest).map (s :: ·)

/-- The pieces of an expression. -/
def pieces? : List Symbol → Option (List Piece)
  | [] => some []
  | .start :: rest => (pieces? rest).map (.start :: ·)
  | .stop :: rest => (pieces? rest).map (.stop :: ·)
  | .atom a :: .star :: rest => (pieces? rest).map (.many a :: ·)
  | .atom a :: rest => (pieces? rest).map (.once a :: ·)
  | .star :: _ => none

/-- Reads an expression. -/
def read? (expression : String) : Option (List Piece) :=
  (symbols? expression.toList).bind pieces?

/-! ## Matching -/

/-- Whether the pieces match at a position without taking a character. -/
def matchesEmpty (atStart atEnd : Bool) : List Piece → Bool
  | [] => true
  | .start :: rest => atStart && matchesEmpty atStart atEnd rest
  | .stop :: rest => atEnd && matchesEmpty atStart atEnd rest
  | .once _ :: _ => false
  | .many _ :: rest => matchesEmpty atStart atEnd rest

/-- The rests that a match may go on with after it took one character. -/
def after (atStart : Bool) (c : Char) : List Piece → List (List Piece)
  | [] => []
  | .start :: rest => if atStart then after atStart c rest else []
  | .stop :: _ => []
  | .once a :: rest => if a.Takes c then [rest] else []
  | .many a :: rest =>
    if a.Takes c then (.many a :: rest) :: after atStart c rest else after atStart c rest

/-- Whether one of the rests goes on to a match, or a match begins here or later. -/
def search (r : List Piece) (atStart : Bool) (rests : List (List Piece)) : List Char → Bool
  | [] => (r :: rests).any (matchesEmpty atStart true)
  | c :: cs =>
    (r :: rests).any (matchesEmpty atStart false)
      || search r false (distinct ((r :: rests).flatMap (after atStart c))) cs

/-- Whether there is a match in a text. -/
def hasMatch (r : List Piece) (text : String) : Bool := search r true [] text.toList

end Regex

/-- The library for the expressions in use. -/
def RegexLibrary.standard : RegexLibrary where
  escape := Regex.escape
  compile expression :=
    match Regex.read? expression with
    | some r => .ok (Regex.hasMatch r)
    | none => .error (.malformed "regex parse error")

end RoleAudit
