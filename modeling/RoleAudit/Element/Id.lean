import Std.Data.TreeMap
import RoleAudit.Text.Name

/-!
# Identities of nodes

Types and their members are known by an id, a text that starts with the kind of node and a colon.
The text of an id is stable: it depends on the declared names alone. Any text may serve as an id;
one that starts differently has no kind.
-/

namespace RoleAudit

/-- What a node of the graph stands for. -/
inductive NodeKind where
  /-- A declared type. -/
  | type
  /-- A field of a type. -/
  | field
  /-- A method of a type. -/
  | method
  /-- A constructor of a type. -/
  | constructor
  deriving DecidableEq, Repr

namespace NodeKind

/-- The name of a kind in reports. -/
def label : NodeKind → String
  | type => "TYPE"
  | field => "FIELD"
  | method => "METHOD"
  | constructor => "CONSTRUCTOR"

/-- The start of an id of this kind, without the colon. -/
def tag : NodeKind → String
  | type => "type"
  | field => "field"
  | method => "method"
  | constructor => "ctor"

/-- Every kind. -/
def all : List NodeKind := [type, field, method, constructor]

end NodeKind

/-- The identity of a type or member. -/
structure NodeId where
  /-- The id as a text. -/
  text : String
  deriving DecidableEq, Repr, Inhabited

namespace NodeId

/-- Ids compare as their texts do. -/
instance : Ord NodeId := ⟨fun a b => compare a.text b.text⟩

theorem compare_eq (a b : NodeId) : compare a b = compare a.text b.text := rfl

instance : Std.TransOrd NodeId where
  eq_swap {a b} := by
    simpa only [compare_eq] using Std.OrientedOrd.eq_swap
  isLE_trans {a b c} hab hbc := by
    simp only [compare_eq] at hab hbc ⊢
    exact Std.TransOrd.isLE_trans hab hbc

instance : Std.LawfulEqOrd NodeId where
  compare_self {a} := by
    simp
  eq_of_compare {a b} h := by
    cases a
    cases b
    rw [compare_eq] at h
    exact congrArg NodeId.mk (Std.LawfulEqOrd.eq_of_compare h)

/-- The id of the type with a qualified name. -/
def ofType (name : String) : NodeId := ⟨"type:" ++ name⟩

/-- The id of a field. -/
def ofField (owner name : String) : NodeId := ⟨"field:" ++ owner ++ "#" ++ name⟩

/-- The id of a method, overloads told apart by the names of their parameter types. -/
def ofMethod (owner name : String) (parameters : List String) : NodeId :=
  ⟨"method:" ++ owner ++ "#" ++ name ++ "(" ++ ",".intercalate parameters ++ ")"⟩

/-- The id of a constructor, overloads told apart by the names of their parameter types. -/
def ofConstructor (owner : String) (parameters : List String) : NodeId :=
  ⟨"ctor:" ++ owner ++ "#<init>(" ++ ",".intercalate parameters ++ ")"⟩

/-- The kind that the text before the first colon tells. -/
def kind? (id : NodeId) : Option NodeKind :=
  match Text.cutAtFirst? ':' id.text.toList with
  | some (before, _) => NodeKind.all.find? (·.tag = String.ofList before)
  | none => none

/-- The text after the first colon; all of it when there is none. -/
def value (id : NodeId) : String :=
  match Text.cutAtFirst? ':' id.text.toList with
  | some (_, after) => String.ofList after
  | none => id.text

end NodeId

end RoleAudit
