import RoleAudit.Proofs.Classification.Conflicts
import RoleAudit.Proofs.Constraint.CycleViolation
import RoleAudit.Proofs.Constraint.PortFacts
import RoleAudit.Proofs.Model.Excerpt
import RoleAudit.Proofs.Model.Queries

/-!
# Names that a domain type must not mention

A declaration mentions names in its references, at any depth, and in its annotations, which stand on
the type, on its members and on their parameters. The constraint on the purity of the domain looks
through all references. Of the annotations it looks at those of the type, its fields and its methods;
what stands on a constructor or on a parameter is passed over.
-/

namespace RoleAudit

/-- What an annotation can stand on. -/
inductive AnnotationCarrier where
  | type
  | field
  | method
  | constructor
  | parameter
  deriving DecidableEq, Repr

/-- All of them. -/
def AnnotationCarrier.all : List AnnotationCarrier := [type, field, method, constructor, parameter]

/-- The annotations in the declaration of a type, with what they stand on. -/
inductive SourceType.Carries (t : SourceType) : AnnotationCarrier → AnnotationRef → Prop
  | type {a : AnnotationRef} (ha : a ∈ t.annotations) : Carries t .type a
  | field {f : SourceField} {a : AnnotationRef} (hf : f ∈ t.fields) (ha : a ∈ f.annotations) :
    Carries t .field a
  | method {k : SourceMethod} {a : AnnotationRef} (hk : k ∈ t.methods) (ha : a ∈ k.annotations) :
    Carries t .method a
  | constructor {c : SourceConstructor} {a : AnnotationRef} (hc : c ∈ t.constructors)
    (ha : a ∈ c.annotations) : Carries t .constructor a
  | methodParameter {k : SourceMethod} {p : SourceParameter} {a : AnnotationRef}
    (hk : k ∈ t.methods) (hp : p ∈ k.parameters) (ha : a ∈ p.annotations) : Carries t .parameter a
  | constructorParameter {c : SourceConstructor} {p : SourceParameter} {a : AnnotationRef}
    (hc : c ∈ t.constructors) (hp : p ∈ c.parameters) (ha : a ∈ p.annotations) :
    Carries t .parameter a

/-- A name stands in a reference of a declaration, or it is that of an annotation on one of the given
carriers. -/
def SourceType.MentionsWith (t : SourceType) (carriers : List AnnotationCarrier) (name : String) :
    Prop :=
  (∃ r ∈ t.refs, r.Mentions name) ∨ ∃ carrier ∈ carriers, ∃ a, t.Carries carrier a ∧ a.name = name

/-- A name is that of a package, or continues it with a dot. -/
def StandsIn (name package : String) : Prop :=
  name = package ∨ ∃ rest, name = package ++ "." ++ rest

theorem SourceType.mem_refs_iff {t : SourceType} {r : TypeRef} :
    r ∈ t.refs ↔ r ∈ t.superType.toList ++ t.interfaces ∨ (∃ f ∈ t.fields, f.type = r) ∨
      (∃ k ∈ t.methods, r ∈ k.returnType :: k.parameters.map (·.type)) ∨
      ∃ c ∈ t.constructors, r ∈ c.parameters.map (·.type) := by
  simp only [refs, List.mem_append, List.mem_map, List.mem_flatMap, or_assoc]

namespace Constraint

theorem isForbidden_iff {packages : List String} {name : String} :
    isForbidden packages name = true ↔ ∃ package ∈ packages, StandsIn name package := by
  rw [isForbidden, List.any_eq_true]
  refine exists_congr fun package => and_congr_right fun _ => ?_
  constructor
  · intro hmatch
    split at hmatch
    · -- nothing is left of the name behind the package
      rename_i hrest
      have hname := Text.afterStart?_eq_some.1 hrest
      exact .inl (String.ext (by simpa using hname))
    · rename_i c rest hrest
      have hname := Text.afterStart?_eq_some.1 hrest
      rw [of_decide_eq_true hmatch] at hname
      exact .inr ⟨String.ofList rest, String.ext (by simpa using hname)⟩
    · exact absurd hmatch (by simp)
  · rintro (rfl | ⟨rest, rfl⟩)
    · rw [Text.afterStart?_eq_some.2 (List.append_nil _).symm]
    · have hname : (package ++ "." ++ rest).toList = package.toList ++ '.' :: rest.toList := by simp
      rw [Text.afterStart?_eq_some.2 hname]
      rfl

/-- The names that the constraint collects, by the declaration of the type. -/
theorem mem_mentionedNames_iff {m : Model} {derived : Bool} {g : Graph} (h : m.Builds derived g)
    {t : SourceType} (ht : t ∈ m.types) {name : String} :
    name ∈ mentionedNames g t.toNode ↔ t.MentionsWith [.type, .field, .method] name := by
  have hfields : g.fieldsOf t.toNode.id = t.fields.map t.fieldNode := h.fieldsOf_eq ht
  have hmethods : g.methodsOf t.toNode.id = t.methods.map t.methodNode := h.methodsOf_eq ht
  have hconstructors : g.constructorsOf t.toNode.id = t.constructors.map t.constructorNode :=
    h.constructorsOf_eq ht
  simp only [mentionedNames, hfields, hmethods, hconstructors, List.mem_append, List.mem_map,
    List.flatMap_map, List.mem_flatMap, MethodNode.signatureTypes, t.methodNode_parameterTypes,
    t.constructorNode_parameterTypes, TypeRef.mem_namesOfAll, TypeRef.mem_names_iff]
  -- the collection goes through the type, its supertypes, the fields, the methods, the constructors
  constructor
  · rintro ((((⟨a, ha, rfl⟩ | ⟨r, hr, hmentions⟩) | ⟨f, hf, hmentions | ⟨a, ha, rfl⟩⟩) |
      ⟨k, hk, ⟨r, hr, hmentions⟩ | ⟨a, ha, rfl⟩⟩) | ⟨c, hc, r, hr, hmentions⟩)
    · exact .inr ⟨.type, by decide, a, .type ha, rfl⟩
    · exact .inl ⟨r, SourceType.mem_refs_iff.2 (.inl (List.mem_append.2 hr)), hmentions⟩
    · exact .inl ⟨f.type, SourceType.mem_refs_iff.2 (.inr (.inl ⟨f, hf, rfl⟩)), hmentions⟩
    · exact .inr ⟨.field, by decide, a, .field hf ha, rfl⟩
    · exact .inl ⟨r, SourceType.mem_refs_iff.2 (.inr (.inr (.inl ⟨k, hk, hr⟩))), hmentions⟩
    · exact .inr ⟨.method, by decide, a, .method hk ha, rfl⟩
    · refine .inl ⟨r, SourceType.mem_refs_iff.2 (.inr (.inr (.inr ⟨c, hc, ?_⟩))), hmentions⟩
      exact List.mem_map.2 hr
  · rintro (⟨r, hr, hmentions⟩ | ⟨carrier, hread, a, hcarries, rfl⟩)
    · rcases SourceType.mem_refs_iff.1 hr with hr | ⟨f, hf, rfl⟩ | ⟨k, hk, hr⟩ | ⟨c, hc, hr⟩
      · exact .inl (.inl (.inl (.inr ⟨r, List.mem_append.1 hr, hmentions⟩)))
      · exact .inl (.inl (.inr ⟨f, hf, .inl hmentions⟩))
      · exact .inl (.inr ⟨k, hk, .inl ⟨r, hr, hmentions⟩⟩)
      · exact .inr ⟨c, hc, r, List.mem_map.1 hr, hmentions⟩
    · cases hcarries with
      | type ha => exact .inl (.inl (.inl (.inl ⟨a, ha, rfl⟩)))
      | field hf ha => exact .inl (.inl (.inr ⟨_, hf, .inr ⟨a, ha, rfl⟩⟩))
      | method hk ha => exact .inl (.inr ⟨_, hk, .inr ⟨a, ha, rfl⟩⟩)
      | constructor | methodParameter | constructorParameter =>
        -- not one of the carriers that are read
        exact absurd hread (by decide)

/-- The forbidden names that a type mentions, as far as the constraint collects them. -/
def forbiddenNames (packages : List String) (g : Graph) (t : TypeNode) : List String :=
  (Text.sortedDistinct (mentionedNames g t)).filter (isForbidden packages)

/-- The violation of a type that mentions a forbidden name. -/
def impurity? (packages : List String) (g : Graph) (t : TypeNode) : Option Violation :=
  match forbiddenNames packages g t with
  | [] => none
  | found => some {
      constraint := "ddd:domain-purity"
      severity := .critical
      message := "Domain type '" ++ t.simpleName ++ "' references " ++ toString found.length
        ++ " forbidden type(s): " ++ ", ".intercalate found
      nodes := [t.id] }

theorem findings_domainPurity (packages : List String) (g : Graph) (k : Classification) :
    (domainPurity packages).findings g k
      = (g.resolveTypes ((k.ofFamily .domain).map (·.nodeId))).filterMap (impurity? packages g) :=
  rfl

theorem nodes_impurity? {packages : List String} {g : Graph} {t : TypeNode} {v : Violation}
    (hv : impurity? packages g t = some v) : v.nodes = [t.id] := by
  unfold impurity? at hv
  split at hv
  · exact nomatch hv
  · rw [← Option.some.inj hv]

theorem isSome_impurity? {packages : List String} {g : Graph} {t : TypeNode} :
    (impurity? packages g t).isSome = true ↔
      ∃ name ∈ mentionedNames g t, isForbidden packages name = true := by
  have hnames : forbiddenNames packages g t ≠ [] ↔
      ∃ name ∈ mentionedNames g t, isForbidden packages name = true := by
    simp only [forbiddenNames, ne_eq, List.filter_eq_nil_iff, mem_sortedDistinct]
    push Not
    rfl
  rw [← hnames, impurity?]
  split
  · rename_i hnil
    simp [hnil]
  · rename_i hne
    simpa using hne

/-- Take a type of a model with a role of the domain. It is reported exactly if a name stands in one of
the forbidden packages that some reference of its declaration mentions, at any depth, or that is the
name of an annotation of the type itself, of a field or of a method. -/
theorem domain_type_reported_iff {m : Model} {derived : Bool} {g : Graph}
    (hbuild : m.buildWith derived = .ok g) (c : Classifier) (packages : List String)
    {t : SourceType} (ht : t ∈ m.types) {r : ClassificationResult}
    (hr : (c.classify g).get? t.id = some r) (hdomain : r ∈ (c.classify g).ofFamily .domain) :
    (∃ v ∈ (domainPurity packages).findings g (c.classify g), t.id ∈ v.nodes) ↔
      ∃ name, t.MentionsWith [.type, .field, .method] name ∧
        ∃ package ∈ packages, StandsIn name package := by
  have h := Model.builds_of_buildWith hbuild
  have htype : g.type? t.toNode.id = some t.toNode := h.type?_id ht
  have hlisted : t.toNode ∈ g.resolveTypes (((c.classify g).ofFamily .domain).map (·.nodeId)) := by
    have hrid : r.nodeId = t.id := ((c.get?_eq_some h.indexed).1 hr).2
    exact List.mem_filterMap.2 ⟨t.id, List.mem_map.2 ⟨r, hdomain, hrid⟩, htype⟩
  have hfound : ∀ u ∈ g.resolveTypes (((c.classify g).ofFamily .domain).map (·.nodeId)),
      g.type? u.id = some u := fun u hu => (h.indexed.type?_of_mem_resolveTypes hu).2
  have hnodes : ∀ u v, impurity? packages g u = some v → v.nodes = [u.id] := fun _ _ => nodes_impurity?
  have honly := mem_nodes_iff_of_single hfound htype hnodes
  rw [findings_domainPurity, show t.id = t.toNode.id from rfl, exists_report_iff honly,
    and_iff_right hlisted, isSome_impurity?]
  simp only [mem_mentionedNames_iff h ht, isForbidden_iff]

section Example

/-- An annotation that leaves it to a framework to put in the parts of an object. -/
def autowired : AnnotationRef := .ofName "org.springframework.beans.factory.annotation.Autowired"

/-- An order that is marked as an aggregate root, with the given members. -/
def markedOrder (fields : List SourceField) (constructors : List SourceConstructor) : SourceType where
  name := "shop.Order"
  form := .plainClass
  annotations := [.ofName "org.jmolecules.ddd.annotation.AggregateRoot"]
  fields := fields
  constructors := constructors

/-- A field that the framework fills. -/
def wiredField : SourceField where
  name := "total"
  type := .plain "long"
  annotations := [autowired]

/-- A constructor that the framework calls. -/
def wiredConstructor : SourceConstructor where
  annotations := [autowired]

def markedOrderGraph (fields : List SourceField) (constructors : List SourceConstructor) : Graph :=
  (Model.build { types := [markedOrder fields constructors] }).toOption.getD .empty

theorem autowired_forbidden :
    ∃ package ∈ defaultForbiddenPrefixes, StandsIn autowired.name package :=
  ⟨"org.springframework", by decide, .inr ⟨"beans.factory.annotation.Autowired", by decide⟩⟩

/-- On a field the annotation is found. -/
theorem wired_field_reported :
    ∃ v ∈ (domainPurity defaultForbiddenPrefixes).findings (markedOrderGraph [wiredField] [])
        (Classifier.unconfigured.classify (markedOrderGraph [wiredField] [])),
      (markedOrder [wiredField] []).id ∈ v.nodes := by
  have hbuild : Model.build { types := [markedOrder [wiredField] []] }
      = .ok (markedOrderGraph [wiredField] []) := Model.build_eq_ok (by decide)
  have h := Model.builds_of_buildWith hbuild
  obtain ⟨hr, hdomain⟩ := Classifier.mem_ofFamily_of_open (c := Classifier.unconfigured) h.indexed
    (h.mem_types List.mem_cons_self) rfl rfl .domain (by decide +kernel)
  refine (domain_type_reported_iff hbuild Classifier.unconfigured _ List.mem_cons_self hr hdomain).2
    ⟨autowired.name, .inr ⟨.field, by decide, autowired, ?_, rfl⟩, autowired_forbidden⟩
  exact .field (List.mem_cons_self (a := wiredField)) List.mem_cons_self

/-- On a constructor it is not: the order mentions a forbidden name and is not reported. -/
theorem wired_constructor_unreported :
    ∃ g r, Model.build { types := [markedOrder [] [wiredConstructor]] } = .ok g ∧
      (Classifier.unconfigured.classify g).get? (markedOrder [] [wiredConstructor]).id = some r ∧
      r ∈ (Classifier.unconfigured.classify g).ofFamily .domain ∧
      (∃ name, (markedOrder [] [wiredConstructor]).MentionsWith AnnotationCarrier.all name ∧
        ∃ package ∈ defaultForbiddenPrefixes, StandsIn name package) ∧
      (domainPurity defaultForbiddenPrefixes).findings g (Classifier.unconfigured.classify g)
        = [] := by
  have hbuild : Model.build { types := [markedOrder [] [wiredConstructor]] }
      = .ok (markedOrderGraph [] [wiredConstructor]) := Model.build_eq_ok (by decide)
  have h := Model.builds_of_buildWith hbuild
  obtain ⟨hr, hdomain⟩ := Classifier.mem_ofFamily_of_open (c := Classifier.unconfigured) h.indexed
    (h.mem_types List.mem_cons_self) rfl rfl .domain (by decide +kernel)
  have hcarries : (markedOrder [] [wiredConstructor]).Carries .constructor autowired :=
    .constructor (List.mem_cons_self (a := wiredConstructor)) List.mem_cons_self
  exact ⟨_, _, hbuild, hr, hdomain, ⟨autowired.name, .inr ⟨_, by decide, _, hcarries, rfl⟩,
    autowired_forbidden⟩, by decide +kernel⟩

end Example

end Constraint

end RoleAudit
