/-!
# Beginnings, endings and parts of a text

Tests on the characters at the start, at the end or inside a text. Each one is a test on the list
of characters, so that it evaluates in the kernel and takes its laws from the lists.
-/

namespace RoleAudit.Text

/-- Whether `text` begins with the characters of `start`. -/
def startsWith (start text : String) : Bool :=
  start.toList.isPrefixOf text.toList

/-- Whether `text` ends with the characters of `ending`. -/
def endsWith (ending text : String) : Bool :=
  ending.toList.isSuffixOf text.toList

/-- What is left of some characters after those of a beginning. -/
def afterStart? : List Char → List Char → Option (List Char)
  | [], rest => some rest
  | _ :: _, [] => none
  | a :: start, b :: rest => if a = b then afterStart? start rest else none

/-- Whether the characters of `part` stand next to each other somewhere in `whole`. -/
def occursIn (part : List Char) : List Char → Bool
  | [] => part.isEmpty
  | c :: rest => part.isPrefixOf (c :: rest) || occursIn part rest

/-- Whether `text` has `part` somewhere inside. -/
def contains (part text : String) : Bool :=
  occursIn part.toList text.toList

/-- Every Latin capital letter of the basic range in lower case, all else as it is. -/
def toLowerAscii (text : String) : String :=
  String.ofList (text.toList.map Char.toLower)

/-- Every Latin small letter of the basic range in upper case, all else as it is. -/
def toUpperAscii (text : String) : String :=
  String.ofList (text.toList.map Char.toUpper)

theorem afterStart?_eq_some {start chars rest : List Char} :
    afterStart? start chars = some rest ↔ chars = start ++ rest := by
  induction start generalizing chars with
  | nil => simp [afterStart?]
  | cons a start ih =>
    cases chars with
    | nil => simp [afterStart?]
    | cons b chars =>
      by_cases h : a = b
      · simp [afterStart?, h, ih]
      · simp [afterStart?, h, Ne.symm h]

theorem startsWith_iff {start text : String} :
    startsWith start text = true ↔ start.toList <+: text.toList := by
  simp [startsWith, List.isPrefixOf_iff_prefix]

theorem endsWith_iff {ending text : String} :
    endsWith ending text = true ↔ ending.toList <:+ text.toList := by
  simp [endsWith, List.isSuffixOf_iff_suffix]

theorem occursIn_iff {part whole : List Char} :
    occursIn part whole = true ↔ part <:+: whole := by
  induction whole with
  | nil => simp [occursIn, List.isEmpty_iff]
  | cons c rest ih =>
    simp only [occursIn, Bool.or_eq_true, List.isPrefixOf_iff_prefix, ih, List.infix_cons_iff]

theorem contains_iff {part text : String} :
    contains part text = true ↔ part.toList <:+: text.toList :=
  occursIn_iff

end RoleAudit.Text
