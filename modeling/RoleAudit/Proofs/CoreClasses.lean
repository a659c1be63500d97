import RoleAudit.Proofs.Model.Queries
import RoleAudit.Proofs.PortFacts

/-!
# Core classes and what they use

Whether the core uses an interface is decided in two steps that do not read a declaration in the same
way. A class is core if the type of a field or constructor parameter of it is an interface of the
model, and only the name of that type counts, not its arguments. It uses the interfaces that these
types mention, arguments included. A class that has nothing but a list of gateways mentions an
interface and is not core, so the core does not use the gateway.
-/

namespace RoleAudit

/-- The name is that of the type of a field or constructor parameter, its arguments left out. -/
def SourceType.Takes (t : SourceType) (name : String) : Prop :=
  (∃ f ∈ t.fields, f.type.name = name) ∨ ∃ c ∈ t.constructors, ∃ p ∈ c.parameters, p.type.name = name

theorem TypeRef.mentions_name (r : TypeRef) : r.Mentions r.name := by
  cases r with
  | mk name arguments => exact .own name arguments

theorem SourceType.Takes.injects {t : SourceType} {name : String} (h : t.Takes name) :
    t.Injects name := by
  rcases h with ⟨f, hf, rfl⟩ | ⟨c, hc, p, hp, rfl⟩
  · exact .inl ⟨f, hf, f.type.mentions_name⟩
  · exact .inr ⟨c, hc, p, hp, p.type.mentions_name⟩

/-- A type has a field or constructor parameter that is an interface of the model. -/
def Model.TakesInterface (m : Model) (t : SourceType) : Prop :=
  ∃ u ∈ m.types, u.form = .interface ∧ t.Takes u.name

theorem Anchors.isDomain_ofGraph {g : Graph} (h : g.Indexed) {t : TypeNode}
    (htype : g.type? t.id = some t) :
    (Anchors.ofGraph g).isDomain t.id = true ↔
      t.isInterface = false ∧ Anchor.ofType g t = .domain := by
  rw [isDomain, get?_ofGraph h, htype, Option.bind_some, decide_eq_true_eq]
  cases t.isInterface <;> simp

namespace Model

section Built

variable {m : Model} {derived : Bool} {g : Graph} (h : m.Builds derived g)

include h

theorem Builds.dependsOnInterface_iff {t : SourceType} (ht : t ∈ m.types) :
    g.dependsOnInterface t.toNode = true ↔ m.TakesInterface t := by
  have hinterface : ∀ name, (g.type? (.ofType name)).any (·.isInterface) = true ↔
      ∃ u ∈ m.types, u.form = .interface ∧ u.name = name := by
    intro name
    rw [Option.any_eq_true]
    constructor
    · rintro ⟨n, hn, hform⟩
      obtain ⟨u, hu, hid, rfl⟩ := h.type?_eq_some.1 hn
      exact ⟨u, hu, of_decide_eq_true hform, NodeId.ofType_injective hid⟩
    · rintro ⟨u, hu, hform, rfl⟩
      exact ⟨u.toNode, h.type?_id hu, decide_eq_true hform⟩
  have htaken : ∀ name, name ∈ (g.fieldsOf t.id).map (·.type.name)
      ++ (g.constructorsOf t.id).flatMap (fun c => c.parameters.map (·.type.name)) ↔
      t.Takes name := by
    intro name
    rw [h.fieldsOf_eq ht, h.constructorsOf_eq ht]
    simp [SourceType.Takes, SourceType.fieldNode, SourceType.constructorNode,
      SourceParameter.toParameter]
  show List.any _ _ = true ↔ _
  rw [List.any_eq_true]
  constructor
  · rintro ⟨name, hname, hany⟩
    obtain ⟨u, hu, hform, rfl⟩ := (hinterface name).1 hany
    exact ⟨u, hu, hform, (htaken _).1 hname⟩
  · rintro ⟨u, hu, hform, htakes⟩
    exact ⟨u.name, (htaken _).2 htakes, (hinterface _).2 ⟨u, hu, hform, rfl⟩⟩

/-- What makes a class core, by its declaration. -/
theorem Builds.isCore_iff {t : SourceType} (ht : t ∈ m.types) :
    (Anchors.ofGraph g).isCore t.id = true ↔
      t.form ≠ .interface ∧ t.toNode.isTestCode = false ∧
        (Anchors.ofGraph g).isDomain t.id = true ∧ m.TakesInterface t := by
  have htype : g.type? t.toNode.id = some t.toNode := h.type?_id ht
  have hdomain := Anchors.isDomain_ofGraph h.indexed htype
  have hform : t.toNode.isInterface = false ↔ t.form ≠ .interface := decide_eq_false_iff_not
  rw [Anchors.isCore_ofGraph h.indexed, h.type?_id ht, Option.any_some, Anchors.isCoreType,
    ← h.dependsOnInterface_iff ht, show t.id = t.toNode.id from rfl, hdomain]
  simp only [Bool.and_eq_true, Bool.not_eq_true', hform, decide_eq_true_eq]
  constructor
  · rintro ⟨⟨⟨hclass, hanchor⟩, hproduction⟩, hdepends⟩
    exact ⟨hclass, hproduction, ⟨hclass, hanchor⟩, hdepends⟩
  · rintro ⟨hclass, hproduction, ⟨-, hanchor⟩, hdepends⟩
    exact ⟨⟨⟨hclass, hanchor⟩, hproduction⟩, hdepends⟩

end Built

/-- Take an interface of a model that does not belong to the platform. The facts say that the core uses
it exactly if a class outside of tests with the anchor of the domain injects it and has a field or
constructor parameter that is itself an interface of the model. Injecting an interface is to mention
it in a field or constructor parameter, at any depth. -/
theorem usedByCore_iff_core_class_injects {m : Model} {derived : Bool} {g : Graph}
    (hbuild : m.buildWith derived = .ok g) {i : SourceType} (hi : i ∈ m.types)
    (hform : i.form = .interface) (hplatform : i.toNode.isPlatformType = false) :
    (∀ t ∈ m.types, t.toNode ∈ g.typesInjecting i.id ↔ t.Injects i.name) ∧
    ∃ f, (PortFactsIndex.ofGraph g (.ofGraph g)).get? i.id = some f ∧
      (f.usedByCore = true ↔ ∃ t ∈ m.types, t.form ≠ .interface ∧ t.toNode.isTestCode = false ∧
        (Anchors.ofGraph g).isDomain t.id = true ∧ t.toNode ∈ g.typesInjecting i.id ∧
        m.TakesInterface t) := by
  have h := builds_of_buildWith hbuild
  constructor
  · intro t ht
    rw [h.mem_typesInjecting_iff hi]
    constructor
    · rintro ⟨u, hu, hnode, hinjects⟩
      obtain rfl := h.eq_of_toNode_eq hu ht hnode
      exact hinjects
    · intro hinjects
      exact ⟨t, ht, rfl, hinjects⟩
  · refine ⟨PortFacts.ofInterface g (.ofGraph g) i.toNode, ?_, ?_⟩
    · have hinterface : i.toNode.isInterface = true := decide_eq_true hform
      rw [PortFactsIndex.get?_ofGraph h.indexed, h.type?_id hi, Option.bind_some, hinterface,
        hplatform]
      rfl
    · show List.any _ _ = true ↔ _
      rw [List.any_eq_true]
      constructor
      · rintro ⟨n, hn, hcore⟩
        obtain ⟨t, ht, rfl, -⟩ := (h.mem_typesInjecting_iff hi).1 hn
        obtain ⟨hclass, hproduction, hdomain, htakes⟩ := (h.isCore_iff ht).1 hcore
        exact ⟨t, ht, hclass, hproduction, hdomain, hn, htakes⟩
      · rintro ⟨t, ht, hclass, hproduction, hdomain, hinjecting, htakes⟩
        exact ⟨t.toNode, hinjecting, (h.isCore_iff ht).2 ⟨hclass, hproduction, hdomain, htakes⟩⟩

section Example

/-- Where a bank gets its rates. -/
def rateSource : SourceType where
  name := "bank.RateSource"
  form := .interface

/-- A quote that keeps what it asks for rates in a field of the given type. -/
def quoteFrom (sources : TypeRef) : SourceType where
  name := "bank.Quote"
  form := .plainClass
  fields := [.privateFinal "sources" sources]

/-- One source. -/
def oneSource : TypeRef := .plain "bank.RateSource"

/-- A list of sources. -/
def manySources : TypeRef := ⟨"java.util.List", [oneSource]⟩

/-- The sources and the quote. -/
def quotes (sources : TypeRef) : Model := { types := [rateSource, quoteFrom sources] }

def quotesGraph (sources : TypeRef) : Graph := (quotes sources).build.toOption.getD .empty

/-- A quote with one source of rates is core, and the core uses the source. -/
theorem single_source_used :
    ∃ f, (PortFactsIndex.ofGraph (quotesGraph oneSource)
        (.ofGraph (quotesGraph oneSource))).get? rateSource.id = some f ∧ f.usedByCore = true := by
  have hbuild : (quotes oneSource).build = .ok (quotesGraph oneSource) := build_eq_ok (by decide)
  have hi : rateSource ∈ (quotes oneSource).types := List.mem_cons_self
  have hquote : quoteFrom oneSource ∈ (quotes oneSource).types :=
    List.mem_cons_of_mem _ List.mem_cons_self
  have htakes : (quoteFrom oneSource).Takes rateSource.name := .inl ⟨_, List.mem_cons_self, rfl⟩
  obtain ⟨hinjecting, f, hf, hused⟩ := usedByCore_iff_core_class_injects hbuild hi rfl (by decide)
  refine ⟨f, hf, hused.2 ⟨_, hquote, by decide, by decide, by decide +kernel, ?_, ?_⟩⟩
  · exact (hinjecting _ hquote).2 htakes.injects
  · exact ⟨rateSource, hi, rfl, htakes⟩

/-- A quote with a list of sources of rates is domain code outside of tests and injects the source. Yet
it is not core, and the facts say that the core does not use the source. -/
theorem listed_source_unused :
    ∃ g f, (quotes manySources).build = .ok g ∧
      (∃ t ∈ (quotes manySources).types, t.form ≠ .interface ∧ t.toNode.isTestCode = false ∧
        (Anchors.ofGraph g).isDomain t.id = true ∧ t.toNode ∈ g.typesInjecting rateSource.id ∧
        t.Injects rateSource.name) ∧
      rateSource.toNode.isPlatformType = false ∧
      (PortFactsIndex.ofGraph g (.ofGraph g)).get? rateSource.id = some f ∧
      f.usedByCore = false := by
  have hbuild : (quotes manySources).build = .ok (quotesGraph manySources) := build_eq_ok (by decide)
  have hquote : quoteFrom manySources ∈ (quotes manySources).types :=
    List.mem_cons_of_mem _ List.mem_cons_self
  have hinjects : (quoteFrom manySources).Injects rateSource.name :=
    .inl ⟨_, List.mem_cons_self, .argument List.mem_cons_self (.own _ _)⟩
  have hinjecting := ((builds_of_buildWith hbuild).mem_typesInjecting_iff (u := rateSource)
    List.mem_cons_self).2 ⟨_, hquote, rfl, hinjects⟩
  have hfacts : ((PortFactsIndex.ofGraph (quotesGraph manySources)
      (.ofGraph (quotesGraph manySources))).get? rateSource.id).map (·.usedByCore) = some false := by
    decide +kernel
  obtain ⟨f, hf, hunused⟩ := Option.map_eq_some_iff.1 hfacts
  exact ⟨_, f, hbuild, ⟨_, hquote, by decide, by decide, by decide +kernel, hinjecting, hinjects⟩,
    by decide, hf, hunused⟩

end Example

end Model

end RoleAudit
