/-!
# JSON values

The tree of a JSON text. Objects keep their members in the order of the text, repeated keys
included, because whether a repeated key is a fault depends on who reads the object. Integers are
exact. A number with a fraction or an exponent, and the integer token `-0`, is no integer and is
kept as it was written.
-/

namespace RoleAudit

/-- A JSON value. -/
inductive Json where
  /-- The literal `null`. -/
  | null
  /-- A truth value. -/
  | bool (value : Bool)
  /-- A number written as an integer. -/
  | integer (value : Int)
  /-- A number written in any other way. -/
  | decimal (token : String)
  /-- A text. -/
  | string (value : String)
  /-- A token that is complete and denotes no value: a text with an unpaired surrogate escape, or
  an object with such a text for a key. It may be skipped over and never be read. -/
  | unreadable
  /-- A list of values. -/
  | array (items : List Json)
  /-- The members of an object in the order of the text. -/
  | object (members : List (String × Json))
  deriving Inhabited

namespace Json

/-- The value of an integer. -/
def ofNat (n : Nat) : Json := .integer n

/-- A list of texts. -/
def ofStrings (texts : List String) : Json := .array (texts.map .string)

/-- `null` for nothing, else the value of the content. -/
def ofOption {α : Type} (encode : α → Json) : Option α → Json
  | none => .null
  | some a => encode a

/-- The value under `key`, when this is an object with such a member; of several the last one. -/
def get? (key : String) : Json → Option Json
  | .object members => members.reverse.lookup key
  | _ => none

mutual

/-- How many arrays and objects the deepest value stands in, the value itself included. -/
def depth : Json → Nat
  | .array items => depthOfItems items + 1
  | .object members => depthOfMembers members + 1
  | _ => 0

/-- The greatest depth among the values of a list. -/
def depthOfItems : List Json → Nat
  | [] => 0
  | item :: items => max (depth item) (depthOfItems items)

/-- The greatest depth among the values of some members. -/
def depthOfMembers : List (String × Json) → Nat
  | [] => 0
  | (_, value) :: members => max (depth value) (depthOfMembers members)

end

end Json

end RoleAudit
