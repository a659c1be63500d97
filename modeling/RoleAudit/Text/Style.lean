/-!
# Styled text

Colours and weight for a terminal. A styled text is written with the escape sequences of the style
around it, and as it is where styles are switched off.
-/

namespace RoleAudit

/-- A colour of a terminal. -/
inductive Color where
  /-- Red. -/
  | red
  /-- Green. -/
  | green
  /-- Yellow. -/
  | yellow
  /-- Blue. -/
  | blue
  /-- Magenta. -/
  | magenta
  deriving DecidableEq, Repr

/-- The code that selects a colour for letters. -/
def Color.code : Color → String
  | red => "31"
  | green => "32"
  | yellow => "33"
  | blue => "34"
  | magenta => "35"

/-- How a text looks. -/
structure Style where
  /-- Whether it is bold. -/
  bold : Bool := false
  /-- Its colour, if it has one of its own. -/
  color : Option Color := none
  deriving DecidableEq, Repr

namespace Style

/-- The codes of a style, the weight first. -/
def codes (s : Style) : List String :=
  (if s.bold then ["1"] else []) ++ s.color.toList.map Color.code

/-- A text in a style, if styles are switched on. -/
def paint (styled : Bool) (s : Style) (text : String) : String :=
  if styled && !s.codes.isEmpty then
    "\x1b[" ++ ";".intercalate s.codes ++ "m" ++ text ++ "\x1b[0m"
  else text

end Style

end RoleAudit
