import RoleAudit.Classification.Result
import RoleAudit.Criterion.Data
import RoleAudit.Criterion.Domain
import RoleAudit.Criterion.Port

/-!
# Classifying the types of a graph

Every type that the settings do not leave out gets a result, independently of the others. A role in
the settings decides alone. All other types are put to the criteria of the families that apply: an
interface can be a port, any other type can have a role in the domain and, if the signature of an
interface mentions it, can carry data. The built-in criteria come first, then the given ones.
-/

namespace RoleAudit

/-- The built-in criteria: domain, ports, data. -/
def Criterion.builtIn (facts : PortFactsIndex) (anchors : Anchors) : List Criterion :=
  domainCriteria ++ portCriteria facts anchors ++ dataCriteria

/-- The family of a type where no role wins. -/
def TypeNode.primaryFamily (t : TypeNode) : Family := if t.isInterface then .port else .domain

namespace Graph

variable (g : Graph)

/-- The families of roles that a type can have. -/
def familiesOf (t : TypeNode) : List Family :=
  if t.isInterface then [.port]
  else if (g.interfacesUsing t.id).isEmpty then [.domain]
  else [.domain, .model]

/-- Whether a type is marked or related to others in a way that should give it a role. -/
def hasSignal (t : TypeNode) : Bool :=
  !t.annotations.isEmpty
    || !(g.interfacesUsing t.id).isEmpty
    || !(g.fieldsOfType t.id).isEmpty
    || (t.isInterface
      && (!(g.implementorsOf t.id).isEmpty || !(g.typesInjecting t.id).isEmpty))
    || (g.supertypeOf? t.id).isSome
    || !(g.interfacesOf t.id).isEmpty

end Graph

/-- What is needed to classify the types of a graph. -/
structure Classifier where
  /-- What tells the names that are left out. -/
  exclusions : ExclusionMatcher
  /-- The roles that the settings give, by qualified name. -/
  explicit : Dictionary Role
  /-- Criteria after the built-in ones. -/
  custom : List Criterion := []

namespace Classifier

/-- The role of an entry of the settings. -/
def explicitRole (entry : String × String) : Except Error (String × Role) :=
  match Role.ofText entry.2 with
  | .ok role => .ok (entry.1, role)
  | .error _ =>
    .error (.configuration ("unknown kind '" ++ entry.2 ++ "' configured for " ++ entry.1))

/-- The classifier of some settings. A role that is none is an error, the first by name; then a pattern
that is refused is one. -/
def ofSettings (regexes : RegexLibrary) (s : ClassificationSettings) (custom : List Criterion) :
    Except Error Classifier := do
  let entries ← s.explicit.entries.mapM explicitRole
  return { exclusions := ← s.exclusionMatcher regexes, explicit := .ofList entries, custom }

/-- Whether a type is left out. -/
def excludes (c : Classifier) (t : TypeNode) : Bool := c.exclusions.isExcluded t.name

/-- The result of a type that the settings give a role. -/
def explicitResult (t : TypeNode) (role : Role) : ClassificationResult :=
  .classified t.id
    { criterion := "explicit-configuration"
      role := role
      priority := Priority.explicit
      confidence := .high
      justification := "Configured as " ++ role.label
      evidence := [{ kind := .explicitConfig, description := t.name ++ " = " ++ role.label }] } []

/-- The result of a type that is put to criteria. -/
def judgedResult (criteria : List Criterion) (g : Graph) (t : TypeNode) : ClassificationResult :=
  let evaluation := Criterion.evaluate criteria g (g.familiesOf t) t
  { ClassificationResult.ofDecision t.id t.primaryFamily (g.hasSignal t)
      (Decision.decide evaluation.contributions) with
    diagnostics := evaluation.diagnostics }

/-- The result of a type. -/
def result (c : Classifier) (criteria : List Criterion) (g : Graph) (t : TypeNode) :
    ClassificationResult :=
  match c.explicit.get? t.name with
  | some role => explicitResult t role
  | none => judgedResult criteria g t

/-- All criteria for a graph. -/
def criteria (c : Classifier) (g : Graph) : List Criterion :=
  let anchors := Anchors.ofGraph g
  Criterion.builtIn (.ofGraph g anchors) anchors ++ c.custom

/-- The results of all types that are not left out, in graph order. -/
def classify (c : Classifier) (g : Graph) : Classification :=
  let criteria := c.criteria g
  { results := (g.types.filter (!c.excludes ·)).map (c.result criteria g) }

end Classifier

end RoleAudit
