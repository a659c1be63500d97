import RoleAudit.Toml.Document
import RoleAudit.Toml.Quoted
import RoleAudit.Toml.Scalar

/-!
# Reading TOML text

Version 1.1 of the format. As with JSON every function takes the characters that are left and gives
back what it read with the characters after it; `fuel` is a bound on the steps, for which the length
of the text is enough. Arrays and tables in braces nest at most eighty levels deep, and a key has
at most eighty parts.
-/

namespace RoleAudit.Toml

/-- Whether a character is a blank within a line. -/
def isSpace (c : Char) : Bool := c = ' ' || c = '\t'

/-- The characters after the blanks of a line. -/
def skipSpace (cs : List Char) : List Char := cs.dropWhile isSpace

/-- The characters from the end of the line on, after a comment; `none` when it has a control
character. -/
def skipComment : List Char → Option (List Char)
  | [] => some []
  | '\n' :: rest => some ('\n' :: rest)
  | '\r' :: '\n' :: rest => some ('\r' :: '\n' :: rest)
  | c :: rest => if isPlain c then skipComment rest else none

/-- The characters of the next line, when nothing but blanks and a comment is left of this one. -/
def endLine? (cs : List Char) : Option (List Char) := do
  let rest ← match skipSpace cs with
    | '#' :: rest => skipComment rest
    | rest => some rest
  match rest with
  | [] => some []
  | '\n' :: rest => some rest
  | '\r' :: '\n' :: rest => some rest
  | _ => none

/-- The characters after blanks, line breaks and comments. -/
def skipLines : Nat → List Char → Option (List Char)
  | 0, _ => none
  | fuel + 1, cs =>
    match skipSpace cs with
    | '\n' :: rest => skipLines fuel rest
    | '\r' :: '\n' :: rest => skipLines fuel rest
    | '#' :: rest => (skipComment rest).bind (skipLines fuel)
    | rest => some rest

/-! ## Keys -/

/-- Whether a character may stand in a key without quotes. -/
def isBare (c : Char) : Bool := c.isAlphanum || c = '_' || c = '-'

/-- A key without dots. -/
def simpleKey? : List Char → Option (String × List Char)
  | '"' :: rest => basicBody? [] rest
  | '\'' :: rest => literalBody? [] rest
  | cs =>
    match cs.takeWhile isBare with
    | [] => none
    | key => some (String.ofList key, cs.dropWhile isBare)

/-- How many parts a key has at most, and how deep arrays and tables in braces nest. -/
def nestingLimit : Nat := 80

/-- The parts of a key, of any number, and the dots between them. -/
def keyParts? : Nat → List Char → Option (List String × List Char)
  | 0, _ => none
  | fuel + 1, cs => do
    let (first, rest) ← simpleKey? cs
    match skipSpace rest with
    | '.' :: rest =>
      let (others, rest) ← keyParts? fuel (skipSpace rest)
      return (first :: others, rest)
    | rest => return ([first], rest)

/-- A key with the dots between its parts; `none` when it has more than `nestingLimit` of them. -/
def key? (fuel : Nat) (cs : List Char) : Option (List String × List Char) :=
  (keyParts? fuel cs).filter fun (parts, _) => parts.length ≤ nestingLimit

/-! ## Values -/

/-- Whether a character may stand in a value without quotes. -/
def isTokenChar (c : Char) : Bool :=
  c.isAlphanum || c = '+' || c = '-' || c = '_' || c = '.' || c = ':'

/-- A value without quotes and brackets. A day and a time may have one blank between them. -/
def token (cs : List Char) : List Char × List Char :=
  let first := cs.takeWhile isTokenChar
  let rest := cs.dropWhile isTokenChar
  match day? first, rest with
  | some (_, []), ' ' :: d :: more =>
    if d.isDigit then
      (first ++ ' ' :: (d :: more).takeWhile isTokenChar, (d :: more).dropWhile isTokenChar)
    else (first, rest)
  | _, _ => (first, rest)

mutual

/-- A value; `levels` more arrays and tables in braces may be opened. -/
def value? (levels : Nat) : Nat → List Char → Option (Toml × List Char)
  | 0, _ => none
  | fuel + 1, cs =>
    match quoted? cs with
    | some found => found.map fun (s, rest) => (.text s, rest)
    | none =>
      match levels, cs with
      | levels + 1, '[' :: rest => do
        let (items, rest) ← items? levels fuel rest
        return (.array items, rest)
      | levels + 1, '{' :: rest => do
        let (entries, rest) ← entries? levels fuel [] rest
        return (.table .braces entries, rest)
      | _, cs =>
        let (word, rest) := token cs
        (scalar? word).map fun value => (value, rest)

/-- The items of an array up to and with its closing bracket. -/
def items? (levels : Nat) : Nat → List Char → Option (List Toml × List Char)
  | 0, _ => none
  | fuel + 1, cs => do
    match ← skipLines fuel cs with
    | ']' :: rest => return ([], rest)
    | rest =>
      let (item, rest) ← value? levels fuel rest
      match ← skipLines fuel rest with
      | ',' :: rest =>
        let (items, rest) ← items? levels fuel rest
        return (item :: items, rest)
      | ']' :: rest => return ([item], rest)
      | _ => none

/-- The entries of a table in braces up to and with its closing brace, after those read before.
Lines may break anywhere but between the parts of a key. -/
def entries? (levels : Nat) : Nat → Entries → List Char → Option (Entries × List Char)
  | 0, _, _ => none
  | fuel + 1, entries, cs => do
    match ← skipLines fuel cs with
    | '}' :: rest => return (entries, rest)
    | rest =>
      let (path, rest) ← key? fuel rest
      match ← skipLines fuel rest with
      | '=' :: rest =>
        let (value, rest) ← value? levels fuel (← skipLines fuel rest)
        let entries ← setKey path value .braces entries
        match ← skipLines fuel rest with
        | ',' :: rest => entries? levels fuel entries rest
        | '}' :: rest => return (entries, rest)
        | _ => none
      | _ => none

end

/-! ## Documents -/

/-- The path of a header up to its closing bracket. -/
def headerPath? (fuel : Nat) (cs : List Char) : Option (List String × List Char) := do
  let (path, rest) ← key? fuel (skipSpace cs)
  match rest with
  | ']' :: rest => return (path, rest)
  | _ => none

/-- A line that is not empty, and the characters of the lines after it. -/
def line? (fuel : Nat) : List Char → Option (Line × List Char)
  | '[' :: '[' :: rest => do
    match ← headerPath? fuel rest with
    | (path, ']' :: rest) => return (.arrayHeader path, ← endLine? rest)
    | _ => none
  | '[' :: rest => do
    let (path, rest) ← headerPath? fuel rest
    return (.header path, ← endLine? rest)
  | cs => do
    let (path, rest) ← key? fuel cs
    match rest with
    | '=' :: rest =>
      let (value, rest) ← value? nestingLimit fuel (skipSpace rest)
      return (.entry path value, ← endLine? rest)
    | _ => none

/-- All lines. -/
def lines? : Nat → List Char → Option (List Line)
  | 0, _ => none
  | fuel + 1, cs => do
    match ← skipLines fuel cs with
    | [] => return []
    | rest =>
      let (line, rest) ← line? fuel rest
      return line :: (← lines? fuel rest)

/-- The table of a TOML text, or `none` when the text is not TOML. A byte order mark in front does
not count. -/
def parse? (text : String) : Option Toml :=
  let cs := match text.toList with
    | '\uFEFF' :: rest => rest
    | cs => cs
  ((lines? (cs.length + 2) cs).bind ofLines).map (.table .header)

end RoleAudit.Toml
