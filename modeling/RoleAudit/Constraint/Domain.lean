import RoleAudit.Constraint.Basic
import RoleAudit.Digraph.Cycle
import RoleAudit.Text.Affix

/-!
# Constraints on the domain

Aggregates do not refer to each other in a circle, value objects do not change, and domain types do
not mention frameworks.
-/

namespace RoleAudit

/-- Each text once, in ascending order. -/
def Text.sortedDistinct (texts : List String) : List String :=
  (distinct texts).mergeSort fun a b => a ≤ b

namespace Graph

variable (g : Graph)

/-- The types of the graph that the fields of a type mention. -/
def fieldReferences (id : NodeId) : List NodeId :=
  (((g.fieldsOf id).flatMap (·.type.names)).map NodeId.ofType).filter fun target =>
    (g.type? target).isSome

/-- Breadth-first search along the types that fields mention. A type with the property is found and
not searched further; `visited` are the types that were met. Every round takes one type of the
queue, and no type enters it twice. -/
def reachThroughFields (hasProperty : NodeId → Bool) :
    Nat → List NodeId → List NodeId → List NodeId
  | 0, _, _ => []
  | _, [], _ => []
  | fuel + 1, current :: queue, visited =>
    let met := distinctFrom visited (g.fieldReferences current)
    met.filter hasProperty
      ++ reachThroughFields hasProperty fuel (queue ++ met.filter (!hasProperty ·)) (met ++ visited)

/-- The other aggregates that an aggregate refers to, directly or through types it owns. -/
def referencedAggregates (isAggregate : NodeId → Bool) (id : NodeId) : List NodeId :=
  g.reachThroughFields isAggregate (g.typeCount + 1) [id] [id]

/-- The references between the aggregates of a classification. -/
def aggregateReferences (classification : Classification) : Digraph NodeId :=
  let aggregates := (classification.ofRole .aggregateRoot).map (·.nodeId)
  let nodes := aggregates.foldl Digraph.addNode .empty
  aggregates.foldl (fun d a =>
    (g.referencedAggregates aggregates.contains a).foldl (fun d b => d.addEdge a b) d) nodes

/-- The simple name of a type, or what its id says where it is none. -/
def displayName (id : NodeId) : String :=
  match g.type? id with
  | some t => t.simpleName
  | none => id.value

end Graph

namespace Constraint

/-- The nodes of a closed cycle, each once. -/
def cycleMembers (cycle : List NodeId) : List NodeId := cycle.dropLast

/-- The cycles whose nodes, in any order, are not those of an earlier one. -/
def distinctCycles (seen : List (List String)) : List (List NodeId) → List (List NodeId)
  | [] => []
  | cycle :: rest =>
    let key := Text.sortedDistinct ((cycleMembers cycle).map (·.text))
    if key ∈ seen then distinctCycles seen rest else cycle :: distinctCycles (key :: seen) rest

/-- The violation of a cycle. -/
def aggregateCycleViolation (g : Graph) (cycle : List NodeId) : Violation where
  constraint := "ddd:aggregate-cycle"
  severity := .critical
  message := "Aggregates reference each other in a cycle: "
    ++ " -> ".intercalate (cycle.map g.displayName)
  nodes := cycleMembers cycle

/-- The note that a search for cycles was cut short. -/
def truncationNotice (report : CycleReport NodeId) : Violation where
  constraint := "ddd:aggregate-cycle"
  severity := .info
  message := "Cycle detection stopped after " ++ toString report.cycles.length
    ++ " cycles; more aggregate cycles may exist"
  nodes := []

/-- Aggregates do not refer to each other in a circle. -/
def aggregateCycle (settings : CycleSettings) : Constraint where
  id := "ddd:aggregate-cycle"
  severity := .critical
  findings g classification :=
    let report := (g.aggregateReferences classification).findCycles settings.maxCycles
    (distinctCycles [] report.cycles).map (aggregateCycleViolation g)
      ++ if report.truncated then [truncationNotice report] else []

/-- The instance fields of a type that may change; a record has none. -/
def mutableFields (g : Graph) (t : TypeNode) : List FieldNode :=
  if t.isRecord then [] else (g.fieldsOf t.id).filter fun f => !f.isStatic && !f.isFinal

/-- The setters of a type. -/
def settersOf (g : Graph) (t : TypeNode) : List MethodNode :=
  (g.methodsOf t.id).filter (·.isSetter)

/-- Value objects do not change. -/
def valueObjectImmutable : Constraint where
  id := "ddd:value-object-immutable"
  severity := .major
  findings g classification :=
    (g.resolveTypes ((classification.ofRole .valueObject).map (·.nodeId))).filterMap fun t =>
      let fields := mutableFields g t
      let setters := settersOf g t
      match fields.map (·.simpleName) ++ setters.map (·.simpleName) with
      | [] => none
      | offenders => some {
          constraint := "ddd:value-object-immutable"
          severity := .major
          message := "Value object '" ++ t.simpleName ++ "' is mutable: "
            ++ ", ".intercalate offenders
          nodes := t.id :: (fields.map (·.id) ++ setters.map (·.id)) }

/-- Whether a name is one of the forbidden packages or stands inside one. -/
def isForbidden (packages : List String) (name : String) : Bool :=
  packages.any fun package =>
    match Text.afterStart? package.toList name.toList with
    | some [] => true
    | some (c :: _) => c = '.'
    | none => false

/-- The qualified names that a type mentions in its declaration and its members. -/
def mentionedNames (g : Graph) (t : TypeNode) : List String :=
  t.annotations.map (·.name)
    ++ TypeRef.namesOfAll (t.superType.toList ++ t.interfaces)
    ++ (g.fieldsOf t.id).flatMap (fun f => f.type.names ++ f.annotations.map (·.name))
    ++ (g.methodsOf t.id).flatMap (fun m =>
      TypeRef.namesOfAll m.signatureTypes ++ m.annotations.map (·.name))
    ++ (g.constructorsOf t.id).flatMap fun c => TypeRef.namesOfAll (c.parameters.map (·.type))

/-- Domain types do not mention the forbidden packages. -/
def domainPurity (packages : List String) : Constraint where
  id := "ddd:domain-purity"
  severity := .critical
  findings g classification :=
    (g.resolveTypes ((classification.ofFamily .domain).map (·.nodeId))).filterMap fun t =>
      match (Text.sortedDistinct (mentionedNames g t)).filter (isForbidden packages) with
      | [] => none
      | found => some {
          constraint := "ddd:domain-purity"
          severity := .critical
          message := "Domain type '" ++ t.simpleName ++ "' references " ++ toString found.length
            ++ " forbidden type(s): " ++ ", ".intercalate found
          nodes := [t.id] }

end Constraint

end RoleAudit
