import RoleAudit.Criterion.Basic
import RoleAudit.Criterion.Shape
import RoleAudit.PortFacts

/-!
# Criteria for ports

Markers, the facts on an interface, names, the verbs of its operations, its users, its signatures
and its package.
-/

namespace RoleAudit.Criterion

/-- The markers of ports. -/
def portRoleMarkers : List (String × Role) :=
  [("org.jmolecules.ddd.annotation.Repository", .repository),
    ("org.jmolecules.architecture.hexagonal.PrimaryPort", .useCase),
    ("org.jmolecules.architecture.hexagonal.SecondaryPort", .drivenPort)]

/-- The endings of the names of ports. -/
def portEndings : List (String × Role) :=
  [("Repository", .repository), ("UseCase", .useCase), ("Gateway", .gateway)]

/-- The driven roles that the facts can give. -/
def drivenRoles : List Role := [.repository, .gateway, .eventPublisher, .drivenPort]

/-- Verbs that change something. -/
def commandVerbs : List String :=
  ["create", "update", "delete", "remove", "place", "cancel", "register", "submit", "execute",
    "handle", "process", "approve", "reject"]

/-- Verbs that read something. -/
def queryVerbs : List String :=
  ["find", "get", "list", "search", "query", "count", "exists", "fetch"]

/-- Whether a name is a verb, alone or with a Latin capital behind it. -/
def startsWithVerb (verbs : List String) (name : String) : Bool :=
  verbs.any fun verb =>
    match Text.afterStart? verb.toList name.toList with
    | some [] => true
    | some (c :: _) => c.isUpper
    | none => false

/-- A marker on the interface states the role. -/
def explicitPort (marker : String) (role : Role) : Criterion where
  name := "explicit-" ++ Text.toLowerAscii (Text.simpleName marker)
  priority := Priority.explicit
  role := role
  judge _ t :=
    if t.isInterface && t.isAnnotatedWith marker then
      .matched {
        confidence := .high
        justification := "Annotated with @" ++ Text.simpleName marker
        evidence := [.ofMarker marker] }
    else .silent

/-- The core implements the interface and does not use it. -/
def semanticDriving (facts : PortFactsIndex) : Criterion where
  name := "semantic-driving-port"
  priority := Priority.semantic
  role := .useCase
  judge _ t :=
    match facts.get? t.id with
    | some f =>
      if f.isDrivingCandidate then
        .matched {
          confidence := .high
          justification := "Implemented by core application code and not consumed by it"
          evidence := [
            .ofRelationship (toString f.implementations ++ " production implementation(s)") []] }
      else .silent
    | none => .silent

/-- In which way the facts make an interface a driven port. -/
def drivenShape? (f : PortFacts) : Option String :=
  if f.isDrivenCandidate then some "used by core with no external implementation"
  else if f.isDrivenExternally then some "used by core and implemented outside it"
  else if f.isDrivenByInfrastructure then some "implemented only by infrastructure adapters"
  else none

/-- The facts make the interface a driven port and its name suggests the role. -/
def semanticDriven (facts : PortFactsIndex) (role : Role) : Criterion where
  name := "semantic-driven-" ++ role.hyphenated
  priority := Priority.semantic
  role := role
  judge _ t :=
    match (facts.get? t.id).bind drivenShape? with
    | some shape =>
      if drivenRoleOfName t.simpleName = role then
        .matched {
          confidence := .high
          justification := "Driven port: " ++ shape
          evidence := [.ofRelationship shape []] }
      else .silent
    | none => .silent

/-- The name of the interface has a telling ending. -/
def namingPort (ending : String) (role : Role) : Criterion where
  name := "naming-" ++ Text.toLowerAscii ending
  priority := Priority.strong
  role := role
  judge _ t :=
    if t.isInterface && Text.endsWith ending t.simpleName then
      .matched {
        confidence := .high
        justification := "Interface name ends with '" ++ ending ++ "'"
        evidence := [.ofNaming ("Suffix '" ++ ending ++ "'")] }
    else .silent

/-- Whether some operation has a parameter whose type has a name with a given ending. -/
def takesParameterEnding (ending : String) (methods : List MethodNode) : Bool :=
  methods.any fun m => m.parameters.any fun p => Text.endsWith ending p.type.simpleName

/-- The operations that are looked at for verbs: those of an interface that is no repository. -/
def portOperations (g : Graph) (t : TypeNode) : List MethodNode :=
  if t.isInterface && !Text.contains "Repository" t.simpleName then g.methodsOf t.id else []

/-- An operation takes a command, or the name of each one is a command. -/
def commandPattern : Criterion where
  name := "command-pattern"
  priority := Priority.relationship
  role := .command
  judge g t :=
    let methods := portOperations g t
    if methods.isEmpty then .silent
    else if takesParameterEnding "Command" methods then
      .matched {
        confidence := .medium
        justification := "Operations accept command objects"
        evidence := [.ofStructure "Parameter type ends with 'Command'"] }
    else if methods.all fun m => startsWithVerb commandVerbs m.simpleName then
      .matched {
        confidence := .medium
        justification := "Every operation is named with a command verb"
        evidence := [.ofNaming "Command verbs"] }
    else .silent

/-- An operation takes a query, or each one is named as a query and has a result. -/
def queryPattern : Criterion where
  name := "query-pattern"
  priority := Priority.relationship
  role := .query
  judge g t :=
    let methods := portOperations g t
    let reads := methods.all fun m =>
      !m.returnType.isVoid && startsWithVerb queryVerbs m.simpleName
    if !methods.isEmpty && (takesParameterEnding "Query" methods || reads) then
      .matched {
        confidence := .medium
        justification := "Operations only read state"
        evidence := [.ofNaming "Query verbs with results"] }
    else .silent

/-- Domain code depends on the interface and does not implement it. -/
def injectedAsDependency (anchors : Anchors) : Criterion where
  name := "injected-as-dependency"
  priority := Priority.relationship
  role := .drivenPort
  judge g t :=
    let consumers := (g.typesInjecting t.id).filter (anchors.isDomain ·.id)
    let inDomain := (g.implementorsOf t.id).any (anchors.isDomain ·.id)
    if t.isInterface && !consumers.isEmpty && !inDomain then
      let names := TypeNode.namesLine consumers
      .matched {
        confidence := .medium
        justification := "Injected into [" ++ names ++ "]"
        evidence := [.ofRelationship ("Injected into " ++ names) (consumers.map (·.id))] }
    else .silent

/-- Nothing implements the interface, and its signatures mention types with an identity. -/
def signatureBasedDriven : Criterion where
  name := "signature-based-driven-port"
  priority := Priority.graph
  role := .drivenPort
  judge g t :=
    let mentioned := (g.signatureTypesOf t.id).filter g.hasIdentity
    if t.isInterface && (g.implementorsOf t.id).isEmpty && !mentioned.isEmpty then
      let names := TypeNode.namesLine mentioned
      .matched {
        confidence := .medium
        justification := "Unimplemented contract over [" ++ names ++ "]"
        evidence := [.ofRelationship ("Signature uses " ++ names) (mentioned.map (·.id))] }
    else .silent

/-- The package of the interface tells a direction. -/
def packageDirection (name segment : String) (role : Role) : Criterion where
  name := name
  priority := Priority.weak
  role := role
  judge _ t :=
    if t.isInterface && hasPackageSegment t.package segment then
      .matched {
        confidence := .low
        justification := "Declared in a '" ++ segment ++ "' package"
        evidence := [.ofStructure ("Package " ++ t.package)] }
    else .silent

/-- The criteria for ports. -/
def portCriteria (facts : PortFactsIndex) (anchors : Anchors) : List Criterion :=
  portRoleMarkers.map (fun (marker, role) => explicitPort marker role)
    ++ [semanticDriving facts]
    ++ drivenRoles.map (semanticDriven facts)
    ++ portEndings.map (fun (ending, role) => namingPort ending role)
    ++ [commandPattern, queryPattern, injectedAsDependency anchors, signatureBasedDriven,
      packageDirection "package-in" "in" .useCase, packageDirection "package-out" "out" .drivenPort]

end RoleAudit.Criterion
