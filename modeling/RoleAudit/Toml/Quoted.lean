import RoleAudit.Json.Parser

/-!
# Quoted texts of TOML

Double quotes allow escapes, single quotes take every character as it is. Three quotes in a row open
a text over several lines: a line break right after them does not count, and in the form with
escapes a backslash at the end of a line takes away the break and all blanks after it. Control
characters other than the tab are a fault.
-/

namespace RoleAudit.Toml

/-- Whether a character may stand in a text or comment as it is. -/
def isPlain (c : Char) : Bool := c = '\t' || (0x20 ≤ c.toNat && c.toNat ≠ 0x7F)

/-- The character of a one letter escape. -/
def escaped? : Char → Option Char
  | 'b' => some '\x08'
  | 't' => some '\t'
  | 'n' => some '\n'
  | 'f' => some '\x0c'
  | 'r' => some '\r'
  | 'e' => some '\x1b'
  | '"' => some '"'
  | '\\' => some '\\'
  | _ => none

/-- The character of a code point, if it is one. -/
def charOfCode? (n : Nat) : Option Char := if n.isValidChar then some (Char.ofNat n) else none

/-- The character of two hexadecimal digits. -/
def charOfTwo? (a b : Char) : Option Char := do
  charOfCode? ((← Json.hexDigit? a) * 16 + (← Json.hexDigit? b))

/-- The character of four hexadecimal digits. -/
def charOfFour? (a b c d : Char) : Option Char := do charOfCode? (← Json.hexUnit? a b c d)

/-- The character of eight hexadecimal digits. -/
def charOfEight? (a b c d e f g h : Char) : Option Char := do
  charOfCode? ((← Json.hexUnit? a b c d) * 0x10000 + (← Json.hexUnit? e f g h))

/-- The rest of a text in double quotes; `reversed` is what was read of it, last first. -/
def basicBody? (reversed : List Char) : List Char → Option (String × List Char)
  | [] => none
  | '"' :: rest => some (String.ofList reversed.reverse, rest)
  | '\\' :: 'U' :: a :: b :: c :: d :: e :: f :: g :: h :: rest =>
    match charOfEight? a b c d e f g h with
    | some x => basicBody? (x :: reversed) rest
    | none => none
  | '\\' :: 'u' :: a :: b :: c :: d :: rest =>
    match charOfFour? a b c d with
    | some x => basicBody? (x :: reversed) rest
    | none => none
  | '\\' :: 'x' :: a :: b :: rest =>
    match charOfTwo? a b with
    | some x => basicBody? (x :: reversed) rest
    | none => none
  | '\\' :: c :: rest =>
    match escaped? c with
    | some x => basicBody? (x :: reversed) rest
    | none => none
  | c :: rest => if isPlain c then basicBody? (c :: reversed) rest else none

/-- The rest of a text in single quotes. -/
def literalBody? (reversed : List Char) : List Char → Option (String × List Char)
  | [] => none
  | '\'' :: rest => some (String.ofList reversed.reverse, rest)
  | c :: rest => if isPlain c then literalBody? (c :: reversed) rest else none

/-- Whether blanks are being left out after a backslash. -/
inductive Gap where
  /-- No. -/
  | closed
  /-- Yes, and the line has to end. -/
  | sameLine
  /-- Yes, up to the next character that is no blank. -/
  | nextLine
  deriving DecidableEq, Repr

/-- The rest of a text of several lines in double quotes. Up to two quotes may stand right before
the three that close it. -/
def basicLines? (reversed : List Char) (gap : Gap) : List Char → Option (String × List Char)
  | [] => none
  | '\r' :: '\n' :: rest =>
    if gap = .closed then basicLines? ('\n' :: '\r' :: reversed) gap rest
    else basicLines? reversed .nextLine rest
  | '"' :: '"' :: '"' :: '"' :: '"' :: rest =>
    if gap = .sameLine then none
    else some (String.ofList ('"' :: '"' :: reversed).reverse, rest)
  | '"' :: '"' :: '"' :: '"' :: rest =>
    if gap = .sameLine then none else some (String.ofList ('"' :: reversed).reverse, rest)
  | '"' :: '"' :: '"' :: rest =>
    if gap = .sameLine then none else some (String.ofList reversed.reverse, rest)
  | '\\' :: 'U' :: a :: b :: c :: d :: e :: f :: g :: h :: rest =>
    match gap, charOfEight? a b c d e f g h with
    | .sameLine, _ => none
    | _, some x => basicLines? (x :: reversed) .closed rest
    | _, none => none
  | '\\' :: 'u' :: a :: b :: c :: d :: rest =>
    match gap, charOfFour? a b c d with
    | .sameLine, _ => none
    | _, some x => basicLines? (x :: reversed) .closed rest
    | _, none => none
  | '\\' :: 'x' :: a :: b :: rest =>
    match gap, charOfTwo? a b with
    | .sameLine, _ => none
    | _, some x => basicLines? (x :: reversed) .closed rest
    | _, none => none
  | '\\' :: '\r' :: '\n' :: rest =>
    if gap = .sameLine then none else basicLines? reversed .nextLine rest
  | '\\' :: c :: rest =>
    if gap = .sameLine then none
    else if c = '\n' then basicLines? reversed .nextLine rest
    else if c = ' ' || c = '\t' then basicLines? reversed .sameLine rest
    else
      match escaped? c with
      | some x => basicLines? (x :: reversed) .closed rest
      | none => none
  | c :: rest =>
    if gap ≠ .closed && (c = ' ' || c = '\t') then basicLines? reversed gap rest
    else if c = '\n' then
      if gap = .closed then basicLines? ('\n' :: reversed) gap rest
      else basicLines? reversed .nextLine rest
    else if gap = .sameLine then none
    else if isPlain c then basicLines? (c :: reversed) .closed rest
    else none

/-- The rest of a text of several lines in single quotes. -/
def literalLines? (reversed : List Char) : List Char → Option (String × List Char)
  | [] => none
  | '\'' :: '\'' :: '\'' :: '\'' :: '\'' :: rest =>
    some (String.ofList ('\'' :: '\'' :: reversed).reverse, rest)
  | '\'' :: '\'' :: '\'' :: '\'' :: rest => some (String.ofList ('\'' :: reversed).reverse, rest)
  | '\'' :: '\'' :: '\'' :: rest => some (String.ofList reversed.reverse, rest)
  | '\r' :: '\n' :: rest => literalLines? ('\n' :: '\r' :: reversed) rest
  | c :: rest => if c = '\n' || isPlain c then literalLines? (c :: reversed) rest else none

/-- The characters without a line break in front. -/
def withoutLeadingBreak : List Char → List Char
  | '\n' :: rest => rest
  | '\r' :: '\n' :: rest => rest
  | cs => cs

/-- A quoted text of any form, where one starts: `none` where none starts, and a fault inside. -/
def quoted? : List Char → Option (Option (String × List Char))
  | '"' :: '"' :: '"' :: rest => some (basicLines? [] .closed (withoutLeadingBreak rest))
  | '"' :: rest => some (basicBody? [] rest)
  | '\'' :: '\'' :: '\'' :: rest => some (literalLines? [] (withoutLeadingBreak rest))
  | '\'' :: rest => some (literalBody? [] rest)
  | _ => none

end RoleAudit.Toml
