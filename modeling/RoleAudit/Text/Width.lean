import RoleAudit.Text.Width.Emoji
import RoleAudit.Text.Width.Ligature
import RoleAudit.Text.Width.Ranges

/-!
# Display width

How many columns a text takes where every letter has one width. Most characters take what they take
on their own, whatever stands around them. What differs is found from the end of the text on, since
it is the later character that decides: a selector after a sign, a tone after a picture, a joiner
between pictures, the last letter of a ligature.
-/

namespace RoleAudit.Text

/-- What stands after a character, as far as it bears on its width. -/
inductive Follower where
  /-- Nothing that matters. -/
  | plain
  /-- A line feed. -/
  | lineFeed
  /-- The selector that widens a quotation mark. -/
  | quoteSelector
  /-- A picture. -/
  | picture
  /-- A skin tone. -/
  | tone
  /-- One letter of a flag. -/
  | flagLetter
  /-- Several letters of flags. -/
  | flagLetters
  /-- A joiner with a picture after it. -/
  | joined
  /-- A key cap before a joiner with a picture after it. -/
  | joinedKeycap
  /-- Letters of flags, an even number or not, before a joiner with a picture after it. -/
  | joinedFlag (even : Bool)
  /-- The end of the hidden name of a region before a joiner with a picture after it: so many
  letters, with so many digits before them. -/
  | joinedTag (letters digits : Nat)
  /-- The last letter of a ligature. -/
  | ligature (l : Ligature)
  deriving DecidableEq, Repr

/-- What stands after a character, behind the selectors right after it. -/
structure Context where
  /-- What stands there. -/
  follower : Follower := .plain
  /-- Whether a selector asks for a sign. -/
  asText : Bool := false
  /-- Whether a selector asks for a picture. -/
  asPicture : Bool := false
  deriving DecidableEq, Repr

/-- The columns that a character adds, and what it is to the character before it. -/
abbrev Advance := Int × Context

/-- A character with what it is to the one before it. -/
def Advance.of (columns : Int) (follower : Follower) : Advance := (columns, { follower })

namespace Context

/-- Whether a joiner with a picture stands after the character, so that the two are one. -/
def isJoined (next : Context) : Bool :=
  match next.follower with
  | .joined | .joinedKeycap | .joinedTag .. => true
  | _ => false

/-- Whether a ligature waits. -/
def isLigature (next : Context) : Bool :=
  match next.follower with
  | .ligature _ => true
  | _ => false

/-- The context with the selector for pictures in front. What is joined to a picture and what waits
for a ligature stays behind it. -/
def selectPicture (next : Context) : Context :=
  if next.isLigature || next.isJoined then { next with asPicture := true }
  else { asPicture := true }

/-- The context with the selector for signs in front. What waits for a ligature stays behind it. -/
def selectText (next : Context) : Context :=
  if next.isLigature then { next with asText := true } else { asText := true }

/-- The context where the selector for pictures did not apply. -/
def dropPicture (next : Context) : Context :=
  if !next.asPicture then next
  else if next.isLigature then { next with asPicture := false }
  else {}

end Context

/-- A character on its own. -/
def ownAdvance (c : Char) : Advance :=
  if c = '\n' then .of 1 .lineFeed
  else if c = '\uFE01' then .of 0 .quoteSelector
  else if c = '\uFE0E' then (0, { asText := true })
  else if c = '\uFE0F' then (0, { asPicture := true })
  else if isFlagLetter c then .of 1 .flagLetter
  else if isTone c then .of 2 .tone
  else
    match Ligature.ofLast? c with
    | some l => .of 1 (.ligature l)
    | none => .of (charWidth c) (if isPicture c then .picture else .plain)

/-- A character before the last letter of a ligature; `none` where the ligature does not matter. -/
def ligatureAdvance? (l : Ligature) (c : Char) : Option Advance :=
  match l, c with
  | .alef, _ =>
    match l.extend? c with
    | some (columns, _) => some (.of columns .plain)
    | none => if isJoiningTransparent c then some (.of 0 (.ligature l)) else none
  | _, '\u200D' => some (.of 0 (.ligature l.join))
  | _, _ =>
    if hiddenMarkRanges.contains c then some (.of 0 (.ligature l))
    else (l.extend? c).map fun (columns, rest) =>
      .of columns ((rest.map Follower.ligature).getD .plain)

/-- A character before the hidden name of a region; `none` where the name does not matter. The name
has three letters or more or starts with three digits, and a black flag stands before it. -/
def tagAdvance? (letters digits : Nat) (c : Char) : Option Advance :=
  if isTagLetter c && digits = 0 && letters < 6 then some (.of 0 (.joinedTag (letters + 1) 0))
  else if isTagDigit c && (if digits = 0 then letters ≤ 4 else digits < 3) then
    some (.of 0 (.joinedTag letters (digits + 1)))
  else if c.toNat = 0x1F3F4 && (digits = 3 || (digits = 0 && 3 ≤ letters)) then
    some (.of 0 .picture)
  else none

/-- A character before a joiner with a picture after it; `none` where it is not joined. -/
def joinedAdvance? (c : Char) : Option Advance :=
  if c = '\u20E3' then some (.of 0 .joinedKeycap)
  else if isFlagLetter c then some (.of 1 (.joinedFlag false))
  else if isTone c then some (.of 0 .tone)
  else if c.toNat = 0xE007F then some (.of 0 (.joinedTag 0 0))
  else if isPicture c then some (.of 0 .picture)
  else none

/-- A character before something that may bear on its width; `none` where it does not. -/
def mergedAdvance? (follower : Follower) (c : Char) : Option Advance :=
  match follower with
  | .plain | .lineFeed | .joinedKeycap => none
  | .quoteSelector =>
    if c = '‘' || c = '’' || c = '“' || c = '”' then some (.of 2 .plain) else none
  | .picture => if c = '\u200D' then some (.of 0 .joined) else none
  | .tone =>
    if takesTone c then some (.of 0 .picture)
    else if c = '\u200D' then some (.of 0 .joined)
    else none
  | .flagLetter => if isFlagLetter c then some (.of 1 .flagLetters) else none
  | .flagLetters =>
    if isFlagLetter c then some (.of 1 .flagLetters)
    else if c = '\u200D' then some (.of 0 .joined)
    else none
  | .joined => joinedAdvance? c
  | .joinedFlag false => if isFlagLetter c then some (.of (-1) (.joinedFlag true)) else none
  | .joinedFlag true =>
    if isFlagLetter c then some (.of 3 (.joinedFlag false))
    else if c = '\u200D' then some (.of 0 .joined)
    else none
  | .joinedTag letters digits => tagAdvance? letters digits c
  | .ligature l => ligatureAdvance? l c

/-- A character before a context. -/
def advance (c : Char) (next : Context) : Advance :=
  if next.asPicture && takesPictureSelector c then .of (if next.isJoined then 0 else 2) .picture
  else
    let next := next.dropPicture
    if c.toNat ≤ 0xA0 then
      if c = '\r' && next.follower = .lineFeed then .of 0 .plain else ownAdvance c
    else if c = '\uFE0F' then (0, next.selectPicture)
    else if c = '\uFE0E' then (0, next.selectText)
    else if next.asText && takesTextSelector c then .of 1 .plain
    else (mergedAdvance? next.follower c).getD (ownAdvance c)

/-- The columns that characters take, and what they are to a character before them. -/
def measure (cs : List Char) : Advance :=
  cs.foldr (fun c (columns, next) =>
    let (more, context) := advance c next
    (columns + more, context)) (0, {})

/-- The columns that a text takes. -/
def width (text : String) : Nat := (measure text.toList).1.toNat

end RoleAudit.Text
