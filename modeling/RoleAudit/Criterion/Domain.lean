import RoleAudit.Criterion.Basic
import RoleAudit.Criterion.Shape

/-!
# Criteria for roles in the domain

Markers and marker interfaces, repositories, names, supertypes, containers and identity fields.
-/

namespace RoleAudit.Criterion

/-- The markers of domain roles. -/
def domainMarkers : List (String × Role) :=
  [("org.jmolecules.ddd.annotation.AggregateRoot", .aggregateRoot),
    ("org.jmolecules.ddd.annotation.Entity", .entity),
    ("org.jmolecules.ddd.annotation.ValueObject", .valueObject),
    ("org.jmolecules.ddd.annotation.Identity", .identifier),
    ("org.jmolecules.event.annotation.DomainEvent", .domainEvent),
    ("org.jmolecules.ddd.annotation.Service", .domainService)]

/-- The marker interfaces of domain roles. -/
def domainInterfaces : List (String × Role) :=
  [("org.jmolecules.ddd.types.AggregateRoot", .aggregateRoot),
    ("org.jmolecules.ddd.types.Entity", .entity),
    ("org.jmolecules.ddd.types.ValueObject", .valueObject),
    ("org.jmolecules.ddd.types.Identifier", .identifier)]

/-- The roles that subtypes inherit. -/
def inheritableRoles : List Role := [.aggregateRoot, .entity, .valueObject]

/-- The domain role that a declaration states, and how it does. -/
def statedRole? (t : TypeNode) : Option (Role × String) :=
  match domainMarkers.find? fun (marker, _) => t.isAnnotatedWith marker with
  | some (marker, role) => some (role, "annotation " ++ marker)
  | none =>
    (domainInterfaces.find? fun (interface, _) => t.listsInterface interface).map
      fun (interface, role) => (role, "interface " ++ interface)

/-- A marker on the type states the role. -/
def explicitDomain (marker : String) (role : Role) : Criterion where
  name := "explicit-" ++ role.hyphenated
  priority := Priority.explicit
  role := role
  judge _ t :=
    if t.isAnnotatedWith marker then
      .matched {
        confidence := .high
        justification := "Annotated with @" ++ Text.simpleName marker
        evidence := [.ofMarker marker] }
    else .silent

/-- A marker interface of the type states the role. -/
def implementsDomain (interface : String) (role : Role) : Criterion where
  name := "implements-" ++ role.hyphenated
  priority := Priority.explicit
  role := role
  judge _ t :=
    if !t.isInterface && t.listsInterface interface then
      .matched {
        confidence := .high
        justification := "Implements " ++ interface
        evidence := [.ofRelationship ("implements " ++ interface) []] }
    else .silent

/-- Of two candidates with their uses the one that is used more, or else the earlier. -/
def moreUsed (best : Option (TypeNode × Nat)) (candidate : TypeNode × Nat) :
    Option (TypeNode × Nat) :=
  match best with
  | some (t, uses) => if candidate.2 ≤ uses then some (t, uses) else some candidate
  | none => some candidate

/-- The type with an identity that the signatures of a repository mention in the most places; of
several the earliest. -/
def dominantType? (g : Graph) (repository : TypeNode) : Option TypeNode :=
  let candidates :=
    (g.signatureTypesOf repository.id).filter fun t => !t.isInterface && g.hasIdentity t
  let counted := candidates.map fun t => (t, (g.signatureProofs repository.id t.id).length)
  (counted.foldl moreUsed none).map (·.1)

/-- The repositories whose dominant type is a given type. -/
def dominatedRepositories (g : Graph) (t : TypeNode) : List TypeNode :=
  (g.interfacesUsing t.id).filter fun i =>
    Text.endsWith "Repository" i.simpleName && (dominantType? g i).any (·.id = t.id)

/-- A repository keeps the type. -/
def repositoryDominant : Criterion where
  name := "repository-dominant"
  priority := Priority.strong
  role := .aggregateRoot
  judge g t :=
    match t.isClassOrRecord, g.identityField? t, dominatedRepositories g t with
    | true, some field, r :: rs =>
      let names := TypeNode.namesLine (r :: rs)
      .matched {
        confidence := .high
        justification := "Dominant type of repository [" ++ names ++ "] with identity field '"
          ++ field.simpleName ++ "'"
        evidence := [
          .ofRelationship ("Managed by " ++ names) ((r :: rs).map (·.id)),
          .ofStructure ("Identity field '" ++ field.simpleName ++ "'")] }
    | _, _, _ => .silent

/-- A record whose name ends in `Id` holds one value. -/
def recordSingleId : Criterion where
  name := "record-single-id"
  priority := Priority.strong
  role := .identifier
  judge g t :=
    match t.isRecord && Text.endsWith "Id" t.simpleName, g.instanceFieldsOf t.id with
    | true, [field] =>
      .matched {
        confidence := .high
        justification := "Record wrapping a single " ++ field.type.simpleName ++ " value"
        evidence := [
          .ofNaming "Name ends with 'Id'",
          .ofStructure "Record with exactly one component"] }
    | _, _ => .silent

/-- How a parent states a role, if it states that one. -/
def sourceOfRole? (role : Role) (parent : TypeNode) : Option (TypeNode × String) :=
  match statedRole? parent with
  | some (stated, source) => if stated = role then some (parent, source) else none
  | none => none

/-- A superclass or interface of the type states the role, and the type itself states none. -/
def inherited (role : Role) : Criterion where
  name := "inherited-" ++ role.hyphenated
  priority := Priority.relationship
  role := role
  judge g t :=
    if t.isInterface || (statedRole? t).isSome then .silent
    else
      match (g.supertypesOf t.id ++ g.interfacesOf t.id).findSome? (sourceOfRole? role) with
      | some (parent, source) =>
        .matched {
          confidence := .medium
          justification := "Inherits " ++ role.label ++ " from " ++ parent.simpleName ++ " ("
            ++ source ++ ")"
          evidence := [
            .ofRelationship ("Parent " ++ parent.simpleName ++ " carries " ++ source) [parent.id]] }
      | none => .silent

/-- The other types with an identity that have a field of a type. -/
def containersOf (g : Graph) (t : TypeNode) : List TypeNode :=
  let owners := distinct ((g.fieldsOfType t.id).map (·.owner))
  (g.resolveTypes owners).filter fun owner => owner.id ≠ t.id && g.hasIdentity owner

/-- A type with an identity has the type in a field, and the type is immutable and has none. -/
def embeddedValueObject : Criterion where
  name := "embedded-value-object"
  priority := Priority.graph
  role := .valueObject
  judge g t :=
    match t.isClassOrRecord && !g.hasIdentity t && g.isImmutable t, containersOf g t with
    | true, c :: cs =>
      let names := TypeNode.namesLine (c :: cs)
      .matched {
        confidence := if t.isRecord then .high else .medium
        justification := "Immutable type embedded in [" ++ names ++ "]"
        evidence := [
          .ofRelationship ("Embedded in: " ++ names) ((c :: cs).map (·.id)),
          .ofStructure "No identity field, immutable"] }
    | _, _ => .silent

/-- An immutable type whose name ends in `Event`. -/
def namingDomainEvent : Criterion where
  name := "naming-domain-event"
  priority := Priority.weak
  role := .domainEvent
  judge g t :=
    if t.isClassOrRecord && Text.endsWith "Event" t.simpleName && g.isImmutable t then
      .matched {
        confidence := .medium
        justification := "Immutable type named like an event"
        evidence := [.ofNaming "Name ends with 'Event'"] }
    else .silent

/-- A class with an identity field. -/
def identityEntity : Criterion where
  name := "identity-entity"
  priority := Priority.weak
  role := .entity
  judge g t :=
    match decide (t.form = .plainClass), g.identityField? t with
    | true, some field =>
      .matched {
        confidence := .low
        justification := "Class with identity field '" ++ field.simpleName ++ "'"
        evidence := [.ofStructure ("Identity field '" ++ field.simpleName ++ "'")] }
    | _, _ => .silent

/-- The criteria for roles in the domain. -/
def domainCriteria : List Criterion :=
  domainMarkers.map (fun (marker, role) => explicitDomain marker role)
    ++ domainInterfaces.map (fun (interface, role) => implementsDomain interface role)
    ++ [repositoryDominant, recordSingleId]
    ++ inheritableRoles.map inherited
    ++ [embeddedValueObject, namingDomainEvent, identityEntity]

end RoleAudit.Criterion
