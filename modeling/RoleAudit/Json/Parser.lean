import RoleAudit.Json.Basic

/-!
# Reading JSON text

A strict reader: no comments, no trailing commas, no byte order mark, no raw control characters
inside a text, nothing but blanks around the one value. Nesting is not limited here.

Every function takes the characters that are left and gives back what it read with the characters
after it. The three that call each other take `fuel`; each call eats a character, so the length of
the input is enough.
-/

namespace RoleAudit.Json

/-- The four blanks that may stand between tokens. -/
def isBlank (c : Char) : Bool :=
  c = ' ' || c = '\t' || c = '\n' || c = '\r'

/-- The characters after the leading blanks. -/
def skipBlanks (cs : List Char) : List Char :=
  cs.dropWhile isBlank

/-- The value of a hexadecimal digit. -/
def hexDigit? (c : Char) : Option Nat :=
  if '0' ≤ c ∧ c ≤ '9' then some (c.toNat - '0'.toNat)
  else if 'a' ≤ c ∧ c ≤ 'f' then some (c.toNat - 'a'.toNat + 10)
  else if 'A' ≤ c ∧ c ≤ 'F' then some (c.toNat - 'A'.toNat + 10)
  else none

/-- The value of four hexadecimal digits. -/
def hexUnit? (a b c d : Char) : Option Nat := do
  let a ← hexDigit? a
  let b ← hexDigit? b
  let c ← hexDigit? c
  let d ← hexDigit? d
  return ((a * 16 + b) * 16 + c) * 16 + d

/-- Whether a unit opens a surrogate pair. -/
def isHighSurrogate (unit : Nat) : Bool := 0xD800 ≤ unit && unit ≤ 0xDBFF

/-- Whether a unit closes a surrogate pair. -/
def isLowSurrogate (unit : Nat) : Bool := 0xDC00 ≤ unit && unit ≤ 0xDFFF

/-- The character of a surrogate pair. -/
def pairedChar (high low : Nat) : Char :=
  Char.ofNat (0x10000 + (high - 0xD800) * 0x400 + (low - 0xDC00))

/-- The character of a one letter escape. -/
def escapedChar? : Char → Option Char
  | '"' => some '"'
  | '\\' => some '\\'
  | '/' => some '/'
  | 'b' => some '\x08'
  | 'f' => some '\x0c'
  | 'n' => some '\n'
  | 'r' => some '\r'
  | 't' => some '\t'
  | _ => none

/-- What a text literal denotes: its characters, or nothing when a surrogate escape stands alone. -/
abbrev Literal := Option String

/-- What has been read of a text literal. -/
structure Partial where
  /-- The characters so far, last first. -/
  reversed : List Char
  /-- A unit that opens a surrogate pair and waits for its partner. -/
  waiting : Option Nat
  /-- Whether every surrogate so far found its partner. -/
  sound : Bool

/-- A character follows; a unit that waited for its partner has none. -/
def Partial.push (p : Partial) (c : Char) : Partial :=
  { reversed := c :: p.reversed, waiting := none, sound := p.sound && p.waiting.isNone }

/-- An escaped unit follows. It completes a waiting pair, starts to wait itself, or is a character
of its own. -/
def Partial.pushUnit (p : Partial) (unit : Nat) : Partial :=
  match p.waiting with
  | some high =>
    if isLowSurrogate unit then
      { p with reversed := pairedChar high unit :: p.reversed, waiting := none }
    else if isHighSurrogate unit then { p with waiting := some unit, sound := false }
    else p.push (Char.ofNat unit)
  | none =>
    if isHighSurrogate unit then { p with waiting := some unit }
    else if isLowSurrogate unit then { p with sound := false }
    else p.push (Char.ofNat unit)

/-- What the whole literal denotes. -/
def Partial.literal (p : Partial) : Literal :=
  if p.sound && p.waiting.isNone then some (String.ofList p.reversed.reverse) else none

/-- The rest of a text literal, `p` being what was read of it. -/
def literalBody? (p : Partial) : List Char → Option (Literal × List Char)
  | [] => none
  | '"' :: rest => some (p.literal, rest)
  | '\\' :: 'u' :: a :: b :: c :: d :: rest =>
    match hexUnit? a b c d with
    | some unit => literalBody? (p.pushUnit unit) rest
    | none => none
  | '\\' :: c :: rest =>
    match escapedChar? c with
    | some e => literalBody? (p.push e) rest
    | none => none
  | c :: rest => if c.toNat < 0x20 then none else literalBody? (p.push c) rest

/-- A text literal after its opening quote. -/
def literal? (cs : List Char) : Option (Literal × List Char) :=
  literalBody? { reversed := [], waiting := none, sound := true } cs

/-- The leading decimal digits and the characters after them. -/
def digits (cs : List Char) : List Char × List Char :=
  (cs.takeWhile Char.isDigit, cs.dropWhile Char.isDigit)

/-- The number that decimal digits denote. -/
def digitsValue (ds : List Char) : Nat :=
  ds.foldl (fun n d => n * 10 + (d.toNat - '0'.toNat)) 0

/-- The digits of the whole part: a zero alone or digits that do not start with zero. -/
def wholePart? (cs : List Char) : Option (List Char × List Char) :=
  match cs with
  | '0' :: rest =>
    match rest with
    | d :: _ => if d.isDigit then none else some (['0'], rest)
    | [] => some (['0'], rest)
  | _ =>
    match digits cs with
    | ([], _) => none
    | (ds, rest) => some (ds, rest)

/-- The optional fraction: a point and at least one digit. -/
def fraction? : List Char → Option (List Char × List Char)
  | '.' :: rest =>
    match digits rest with
    | ([], _) => none
    | (ds, rest) => some ('.' :: ds, rest)
  | cs => some ([], cs)

/-- The optional exponent: its letter, an optional sign and at least one digit. -/
def exponent? : List Char → Option (List Char × List Char)
  | c :: rest =>
    if c = 'e' ∨ c = 'E' then
      let (sign, rest) :=
        match rest with
        | '+' :: rest' => (['+'], rest')
        | '-' :: rest' => (['-'], rest')
        | _ => ([], rest)
      match digits rest with
      | ([], _) => none
      | (ds, rest) => some (c :: sign ++ ds, rest)
    else some ([], c :: rest)
  | [] => some ([], [])

/-- A number whose sign has been read. -/
def unsignedNumber? (negative : Bool) (cs : List Char) : Option (Json × List Char) := do
  let (whole, rest) ← wholePart? cs
  let (fraction, rest) ← fraction? rest
  let (exponent, rest) ← exponent? rest
  let n := digitsValue whole
  let sign := if negative then ['-'] else []
  if fraction.isEmpty && exponent.isEmpty && !(negative && n == 0) then
    return (.integer (if negative then -(n : Int) else n), rest)
  else
    return (.decimal (String.ofList (sign ++ whole ++ fraction ++ exponent)), rest)

/-- A number. -/
def number? : List Char → Option (Json × List Char)
  | '-' :: rest => unsignedNumber? true rest
  | cs => unsignedNumber? false cs

mutual

/-- A value at the first character that is no blank. -/
def value? : Nat → List Char → Option (Json × List Char)
  | 0, _ => none
  | fuel + 1, cs =>
    match skipBlanks cs with
    | 'n' :: 'u' :: 'l' :: 'l' :: rest => some (.null, rest)
    | 't' :: 'r' :: 'u' :: 'e' :: rest => some (.bool true, rest)
    | 'f' :: 'a' :: 'l' :: 's' :: 'e' :: rest => some (.bool false, rest)
    | '"' :: rest =>
      (literal? rest).map fun (text, rest) =>
        (match text with
          | some s => .string s
          | none => .unreadable, rest)
    | '[' :: rest =>
      match skipBlanks rest with
      | ']' :: rest => some (.array [], rest)
      | rest => (items? fuel rest).map fun (items, rest) => (.array items, rest)
    | '{' :: rest =>
      match skipBlanks rest with
      | '}' :: rest => some (.object [], rest)
      | rest =>
        (members? fuel rest).map fun (members, rest) =>
          (match members with
            | some members => .object members
            | none => .unreadable, rest)
    | rest => number? rest

/-- The items of an array up to and with its closing bracket. -/
def items? : Nat → List Char → Option (List Json × List Char)
  | 0, _ => none
  | fuel + 1, cs => do
    let (item, rest) ← value? fuel cs
    match skipBlanks rest with
    | ',' :: rest =>
      let (items, rest) ← items? fuel rest
      return (item :: items, rest)
    | ']' :: rest => return ([item], rest)
    | _ => none

/-- The members of an object up to and with its closing brace; `none` inside when a key denotes no
text. -/
def members? : Nat → List Char → Option (Option (List (String × Json)) × List Char)
  | 0, _ => none
  | fuel + 1, cs =>
    match skipBlanks cs with
    | '"' :: rest => do
      let (key, rest) ← literal? rest
      match skipBlanks rest with
      | ':' :: rest =>
        let (value, rest) ← value? fuel rest
        let member := key.map fun key => (key, value)
        match skipBlanks rest with
        | ',' :: rest =>
          let (members, rest) ← members? fuel rest
          return ((· :: ·) <$> member <*> members, rest)
        | '}' :: rest => return (member.map ([·]), rest)
        | _ => none
      | _ => none
    | _ => none

end

/-- The value of a JSON text, or `none` when the text is not JSON. -/
def parse? (text : String) : Option Json :=
  let cs := text.toList
  match value? (cs.length + 1) cs with
  | some (value, rest) => if (skipBlanks rest).isEmpty then some value else none
  | none => none

end RoleAudit.Json
