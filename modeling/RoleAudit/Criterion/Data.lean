import RoleAudit.Criterion.Basic
import RoleAudit.Criterion.Shape

/-!
# Criteria for data carriers

What goes through a port is told by the ending of its name. These criteria are asked only about
types that the signatures of some interface mention.
-/

namespace RoleAudit.Criterion

/-- The name of the type has a telling ending. -/
def namingData (name : String) (endings : List String) (role : Role) (priority : Nat)
    (confidence : Confidence) : Criterion where
  name := name
  priority := priority
  role := role
  judge g t :=
    match t.isInterface, endings.find? (Text.endsWith · t.simpleName) with
    | false, some ending =>
      let ports := g.interfacesUsing t.id
      .matched {
        confidence := confidence
        justification := t.simpleName ++ " named '*" ++ ending ++ "'"
        evidence := .ofNaming ("Name ends with '" ++ ending ++ "'") ::
          if ports.isEmpty then []
          else [.ofRelationship ("Exchanged through " ++ TypeNode.namesLine ports)
            (ports.map (·.id))] }
    | _, _ => .silent

/-- The criteria for data carriers. -/
def dataCriteria : List Criterion :=
  [namingData "naming-command-model" ["Command"] .commandModel Priority.strong .high,
    namingData "naming-query-model" ["Query"] .queryModel Priority.strong .high,
    namingData "naming-dto" ["Request", "Response", "Dto", "DTO", "View"] .dto Priority.weak
      .medium]

end RoleAudit.Criterion
