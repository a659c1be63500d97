import RoleAudit.Text.Name

/-!
# References to types

A declaration mentions types by name, with type arguments that are references again. A reference
mentions its own name and every name inside its arguments, outermost first.
-/

namespace RoleAudit

/-- A mention of a type, with its type arguments. -/
structure TypeRef where
  /-- The qualified name. -/
  name : String
  /-- The type arguments, first to last. -/
  arguments : List TypeRef
  deriving Repr, Inhabited

namespace TypeRef

/-- A reference without arguments. -/
def plain (name : String) : TypeRef := { name, arguments := [] }

/-- The name that says that a method returns nothing. -/
def void : TypeRef := plain "void"

/-- Whether this is the absence of a type. -/
def isVoid (t : TypeRef) : Bool := t.name = "void"

/-- The last part of the name. -/
def simpleName (t : TypeRef) : String := Text.simpleName t.name

mutual

/-- The name and the names inside the arguments, outermost first. -/
def names : TypeRef → List String
  | ⟨name, arguments⟩ => name :: namesOfAll arguments

/-- The names of several references one after the other. -/
def namesOfAll : List TypeRef → List String
  | [] => []
  | t :: ts => names t ++ namesOfAll ts

end

mutual

/-- The reference as source code has it, arguments in angle brackets. -/
def text : TypeRef → String
  | ⟨name, []⟩ => name
  | ⟨name, a :: as⟩ => name ++ "<" ++ ", ".intercalate (text a :: textsOf as) ++ ">"

/-- The texts of several references. -/
def textsOf : List TypeRef → List String
  | [] => []
  | t :: ts => text t :: textsOf ts

end

mutual

/-- Decides whether two references are the same. -/
def decideEq : (a b : TypeRef) → Decidable (a = b)
  | ⟨n, as⟩, ⟨m, bs⟩ =>
    if hn : n = m then
      match decideEqAll as bs with
      | .isTrue h => .isTrue (by rw [hn, h])
      | .isFalse h => .isFalse (by simp [h])
    else .isFalse (by simp [hn])

/-- Decides whether two lists of references are the same. -/
def decideEqAll : (as bs : List TypeRef) → Decidable (as = bs)
  | [], [] => .isTrue rfl
  | [], _ :: _ => .isFalse (by simp)
  | _ :: _, [] => .isFalse (by simp)
  | a :: as, b :: bs =>
    match decideEq a b with
    | .isTrue h =>
      match decideEqAll as bs with
      | .isTrue hs => .isTrue (by rw [h, hs])
      | .isFalse hs => .isFalse (by simp [hs])
    | .isFalse h => .isFalse (by simp [h])

end

instance : DecidableEq TypeRef := decideEq

theorem namesOfAll_eq_flatMap (ts : List TypeRef) : namesOfAll ts = ts.flatMap names := by
  induction ts with
  | nil => rfl
  | cons t ts ih => simp [namesOfAll, ih]

end TypeRef

end RoleAudit
