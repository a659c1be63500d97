import RoleAudit.Dictionary
import RoleAudit.Json.Parser

/-!
# Reading typed values off JSON

A decoder reads a value of some type off a JSON value, or refuses. It is told how many levels of
arrays and objects it may still open, so that reading a text bounds the nesting of what is read and
leaves alone what is skipped over.

A record is read off an object by the names of its fields, or off an array by their order. Names
that are not fields of the record are skipped over; a field that occurs twice is refused. Whether a
field may be absent is said field by field: `required`, `optional`, `optionalTail`, `defaulted`.
-/

namespace RoleAudit.Json

/-- Reads an `α`, given how many levels of nesting may still be opened. -/
abbrev Decoder (α : Type) := Nat → Json → Option α

/-- How many levels of nesting a text may open in the parts of it that are read. -/
def nestingLimit : Nat := 127

/-- Reads a value of any nesting. -/
def Decoder.ofValue? {α : Type} (decode : Decoder α) (value : Json) : Option α :=
  decode value.depth value

/-- Reads a text, with its nesting bounded. -/
def Decoder.ofText? {α : Type} (decode : Decoder α) (text : String) : Option α :=
  (parse? text).bind (decode nestingLimit)

/-! ## Scalars, lists and dictionaries -/

/-- Reads a text. -/
def decodeString : Decoder String
  | _, .string s => some s
  | _, _ => none

/-- Reads a truth value. -/
def decodeBool : Decoder Bool
  | _, .bool b => some b
  | _, _ => none

/-- Reads an integer from zero up to, and without, `bound`. -/
def decodeNat (bound : Nat) : Decoder Nat
  | _, .integer (.ofNat n) => if n < bound then some n else none
  | _, _ => none

/-- Reads an unsigned word of 32 bits. -/
def decodeWord : Decoder Nat := decodeNat UInt32.size

/-- Reads an unsigned word of 64 bits. -/
def decodeCount : Decoder Nat := decodeNat UInt64.size

/-- Reads `null` as nothing and all else as a value. -/
def decodeOption {α : Type} (decode : Decoder α) : Decoder (Option α)
  | _, .null => some none
  | levels, value => (decode levels value).map some

/-- Reads every item of an array. -/
def decodeList {α : Type} (decode : Decoder α) : Decoder (List α)
  | levels + 1, .array items => items.mapM (decode levels)
  | _, _ => none

/-- Reads every member of an object; of two members with one key the later one counts. -/
def decodeDictionary {α : Type} (decode : Decoder α) : Decoder (Dictionary α)
  | levels + 1, .object members =>
    (members.mapM fun member => (decode levels member.2).map fun a => (member.1, a)).map
      Dictionary.ofList
  | _, _ => none

/-- Reads one of finitely many values off its label: the label as a text, or an object with the
label for its only key and `null` under it. -/
def decodeLabel {α : Type} (all : List α) (label : α → String) : Decoder α
  | _, .string s => all.find? (label · = s)
  | _ + 1, .object [(s, .null)] => all.find? (label · = s)
  | _, _ => none

/-- Reads one of finitely many values off its label, as `decodeLabel` does; under the label there
may be an empty object too. -/
def decodeTag {α : Type} (all : List α) (label : α → String) : Decoder α
  | _ + 2, .object [(s, .object [])] => all.find? (label · = s)
  | levels, value => decodeLabel all label levels value

/-- A dictionary as an object with its keys in order. -/
def ofDictionary {α : Type} (encode : α → Json) (d : Dictionary α) : Json :=
  .object (d.entries.map fun (key, a) => (key, encode a))

/-! ## Records -/

/-- What an object or array has for one field of a record. -/
inductive Slot where
  /-- A value. -/
  | value (value : Json)
  /-- Nothing: the object has no such key. -/
  | missing
  /-- Nothing: the array is too short. -/
  | pastEnd

/-- The slots of a record that has been opened. -/
structure Record where
  /-- How many levels of nesting may be opened inside. -/
  levels : Nat
  /-- The slot of each field. -/
  slots : List (String × Slot)

namespace Record

/-- The slot of a field in an object. -/
def slotOfMembers (members : List (String × Json)) (field : String) : Slot :=
  match members.lookup field with
  | some value => .value value
  | none => .missing

/-- The slots of the fields in an array, in order; `none` when the array has more items. -/
def slotsOfItems? : List String → List Json → Option (List (String × Slot))
  | fields, [] => some (fields.map fun field => (field, .pastEnd))
  | [], _ :: _ => none
  | field :: fields, item :: items =>
    (slotsOfItems? fields items).map fun slots => (field, .value item) :: slots

/-- Opens a record with the given fields. -/
def ofJson? (fields : List String) : Decoder Record
  | levels + 1, .object members =>
    if fields.all fun field => members.countP (·.1 = field) ≤ 1 then
      some { levels, slots := fields.map fun field => (field, slotOfMembers members field) }
    else none
  | levels + 1, .array items => (slotsOfItems? fields items).map fun slots => { levels, slots }
  | _, _ => none

/-- Opens a record with the given fields; of an array only the first items count, one for each
field. -/
def ofLeading? (fields : List String) : Decoder Record
  | levels, .array items => ofJson? fields levels (.array (items.take fields.length))
  | levels, value => ofJson? fields levels value

/-- The slot of a field. -/
def slot (r : Record) (field : String) : Slot :=
  (r.slots.lookup field).getD .missing

variable {α : Type}

/-- A field that must be there. -/
def required (r : Record) (field : String) (decode : Decoder α) : Option α :=
  match r.slot field with
  | .value value => decode r.levels value
  | _ => none

/-- A field that may be `null`, or absent from an object; an array has to have it. -/
def optional (r : Record) (field : String) (decode : Decoder α) : Option (Option α) :=
  match r.slot field with
  | .value value => decodeOption decode r.levels value
  | .missing => some none
  | .pastEnd => none

/-- A field with a value of its own where it is absent. -/
def defaulted (r : Record) (field : String) (fallback : α) (decode : Decoder α) : Option α :=
  match r.slot field with
  | .value value => decode r.levels value
  | _ => some fallback

/-- A field that may be `null` or absent. -/
def optionalTail (r : Record) (field : String) (decode : Decoder α) : Option (Option α) :=
  r.defaulted field none (decodeOption decode)

end Record

end RoleAudit.Json
