import RoleAudit.Element.Edge
import RoleAudit.Regex.Basic

/-!
# Errors

What can stop an analysis. A fault in the structure of a graph names the ids at fault. Ambiguous
classifications and broken constraints are findings and no errors.
-/

namespace RoleAudit

/-- Why an analysis could not be carried out. -/
inductive Error where
  /-- A node has an id that is taken. -/
  | duplicateNode (id : NodeId)
  /-- An edge has an end, `missing`, that is no node. -/
  | danglingEdge (source target : NodeId) (kind : EdgeKind) (missing : NodeId)
  /-- A setting has no meaning. -/
  | configuration (detail : String)
  /-- A pattern of names is refused as a regular expression. -/
  | invalidPattern (pattern : String) (cause : RegexFault)
  /-- A text names no role. -/
  | unknownRole (text : String)
  /-- A JSON text or value has the wrong form. -/
  | malformedJson
  /-- A settings text has the wrong form. -/
  | malformedToml
  deriving DecidableEq, Repr

namespace Error

/-- The wording of an error; `none` where the form of the input is at fault and the wording is left
to whoever shows it. -/
def message? : Error → Option String
  | duplicateNode id => some ("Duplicate node id: " ++ id.text)
  | danglingEdge source target kind missing =>
    some ("Dangling " ++ kind.label ++ " edge " ++ source.text ++ " -> " ++ target.text
      ++ ": node " ++ missing.text ++ " does not exist")
  | configuration detail => some ("Configuration error: " ++ detail)
  | invalidPattern pattern cause =>
    some ("Invalid exclude pattern '" ++ pattern ++ "': " ++ cause.message)
  | unknownRole text => some ("Unknown classification kind: " ++ text)
  | malformedJson => none
  | malformedToml => none

/-- Whether the error is a fault in the structure of a graph. -/
def isStructural : Error → Bool
  | duplicateNode _ | danglingEdge .. => true
  | _ => false

end Error

end RoleAudit
