import RoleAudit.Proofs.Classification.TestDouble
import RoleAudit.Proofs.Constraint.PortFacts

/-!
# Driven ports that the core serves itself

The facts make an interface a driven port in three ways. Two of them ask that no core class implements
it. The third is meant for interfaces without an outside implementation and asks only that all
implementations are domain code, and a core class is domain code. So an interface that the core uses
and implements can become a driven port by its facts, and is then reported for being implemented by
the core. `Graph.ServedInside` says which interfaces that are.
-/

namespace RoleAudit

/-- A core class implements the type. -/
def Graph.ServedByCore (g : Graph) (t : TypeNode) : Prop :=
  ∃ u ∈ g.implementorsOf t.id, (Anchors.ofGraph g).isCore u.id = true

/-- The core uses the type, it speaks of a port, and all code outside of tests that implements it is
domain code. -/
structure Graph.ServedInside (g : Graph) (t : TypeNode) : Prop where
  used : ∃ u ∈ g.typesInjecting t.id, (Anchors.ofGraph g).isCore u.id = true
  signal : t.hasPortSignal = true
  inside : ∀ u ∈ g.implementorsOf t.id, u.isTestCode = false →
    (Anchors.ofGraph g).isDomain u.id = true

namespace PortFacts

/-- Where the core implements the interface, only the first of the three ways is left. -/
theorem isSome_drivenShape?_of_core {f : PortFacts} (hcore : f.implementedByCore = true)
    (hpresent : f.missing = false) :
    (Criterion.drivenShape? f).isSome = true ↔
      f.usedByCore = true ∧ f.internalOnly = true ∧ f.hasPortSignal = true := by
  rw [Criterion.isSome_drivenShape?]
  simp [isDriven, isDrivenCandidate, isDrivenWithoutSignal, isDrivenExternally,
    isDrivenByInfrastructure, hcore, hpresent, and_assoc]

end PortFacts

namespace Graph

variable {g : Graph} (h : g.Indexed) {t : TypeNode}

include h

/-- The facts on an interface that a core class implements. -/
theorem shape_iff_servedInside (hcore : g.ServedByCore t) :
    (Criterion.drivenShape? (PortFacts.ofInterface g (.ofGraph g) t)).isSome = true ↔
      g.ServedInside t := by
  obtain ⟨u, hu, hucore⟩ := hcore
  -- a core class is no test code, so the facts count it
  have hproduction : u ∈ g.productionImplementors t.id := by
    have hutype := (h.type?_of_mem_resolveTypes hu).2
    have hutest := (Anchors.isCoreType_of_isCore h hutype hucore).2
    exact List.mem_filter.2 ⟨hu, by simp [hutest]⟩
  have hpresent : (g.productionImplementors t.id).isEmpty = false := by
    rw [List.isEmpty_eq_false_iff]
    exact List.ne_nil_of_mem hproduction
  have hinternal : (g.productionImplementors t.id).all ((Anchors.ofGraph g).isDomain ·.id) = true ↔
      ∀ u ∈ g.implementorsOf t.id, u.isTestCode = false →
        (Anchors.ofGraph g).isDomain u.id = true := by
    simp only [productionImplementors, List.all_eq_true, List.mem_filter, Bool.not_eq_true', and_imp]
  rw [PortFacts.isSome_drivenShape?_of_core
    (f := PortFacts.ofInterface g (.ofGraph g) t) (List.any_eq_true.2 ⟨u, hproduction, hucore⟩)
    hpresent]
  simp only [PortFacts.ofInterface, hpresent, Bool.not_false, Bool.true_and, hinternal,
    List.any_eq_true]
  constructor
  · rintro ⟨hused, hinside, hsignal⟩
    exact ⟨hused, hsignal, hinside⟩
  · rintro ⟨hused, hsignal, hinside⟩
    exact ⟨hused, hinside, hsignal⟩

end Graph

namespace Criterion

theorem matches_semanticDriven_iff {facts : PortFactsIndex} {role : Role} {g : Graph} {t : TypeNode} :
    (semanticDriven facts role).Matches g t ↔ drivenRoleOfName t.simpleName = role ∧
      ∃ f, facts.get? t.id = some f ∧ (drivenShape? f).isSome = true := by
  refine ⟨of_matches_semanticDriven, ?_⟩
  rintro ⟨hrole, f, hf, hsome⟩
  obtain ⟨shape, hshape⟩ := Option.isSome_iff_exists.1 hsome
  have hbind : (facts.get? t.id).bind drivenShape? = some shape := by
    rw [hf, Option.bind_some, hshape]
  unfold Matches semanticDriven
  dsimp only
  rw [hbind]
  exact ⟨_, if_pos hrole⟩

theorem matches_semanticDriven_ofGraph {g : Graph} (h : g.Indexed) {t : TypeNode} (ht : t ∈ g.types)
    (role : Role) :
    (semanticDriven (.ofGraph g (.ofGraph g)) role).Matches g t ↔
      (t.isInterface = true ∧ t.isPlatformType = false ∧ drivenRoleOfName t.simpleName = role) ∧
        (drivenShape? (PortFacts.ofInterface g (.ofGraph g) t)).isSome = true := by
  have htype : g.type? t.id = some t := h.type?_of_mem_types ht
  rw [matches_semanticDriven_iff, PortFactsIndex.get?_ofGraph h, htype, Option.bind_some]
  by_cases hfacts : t.isInterface = true ∧ t.isPlatformType = false
  · simp [hfacts.1, hfacts.2]
  · rw [if_neg (by simpa using hfacts)]
    simp only [reduceCtorEq, false_and, exists_false, and_false, false_iff]
    rintro ⟨⟨hinterface, hplatform, -⟩, -⟩
    exact hfacts ⟨hinterface, hplatform⟩

theorem builtIn_names_nodup (facts : PortFactsIndex) (anchors : Anchors) :
    ((builtIn facts anchors).map (·.name)).Nodup := by
  -- the names do not depend on the facts
  have hsame : (builtIn facts anchors).map (·.name) = (builtIn {} {}).map (·.name) := rfl
  rw [hsame]
  decide +kernel

theorem semanticDriven_mem_builtIn (facts : PortFactsIndex) (anchors : Anchors) {role : Role}
    (hrole : role ∈ drivenRoles) : semanticDriven facts role ∈ builtIn facts anchors := by
  have hmem : semanticDriven facts role ∈ drivenRoles.map (semanticDriven facts) :=
    List.mem_map_of_mem hrole
  simp only [builtIn, portCriteria, List.mem_append]
  exact .inl (.inr (.inl (.inl (.inr hmem))))

end Criterion

namespace Classifier

/-- A result names the criterion that decided it: one that matches the type and proposes the role. -/
theorem exists_criterion_of_get? {c : Classifier} {g : Graph} (h : g.Indexed) {t : TypeNode}
    (ht : t ∈ g.types) {r : ClassificationResult} (hr : (c.classify g).get? t.id = some r)
    {name : String} (hname : r.criterion = some name) (hcriteria : name ≠ "explicit-configuration") :
    ∃ d ∈ c.criteria g, d.name = name ∧ d.Matches g t ∧ r.isClassified = true ∧
      r.target = some d.role.family ∧ r.direction = d.role.direction? := by
  have htype : g.type? t.id = some t := h.type?_of_mem_types ht
  rw [c.get?_classify h, htype] at hr
  obtain ⟨u, hu, rfl⟩ := Option.map_eq_some_iff.1 hr
  obtain rfl : t = u := Option.some.inj (Option.filter_eq_some_iff.1 hu).1
  unfold result at hname ⊢
  split at hname
  · -- a role of the settings
    exact absurd (Option.some.inj hname).symm hcriteria
  · rw [judgedResult_eq] at hname ⊢
    cases hdecide : Decision.decide (c.proposals g t) with
    | winner winner others =>
      rw [hdecide] at hname
      obtain ⟨d, hd, hcontribution⟩ := List.mem_filterMap.1 (Decision.winner_mem hdecide)
      obtain ⟨m, hm, rfl⟩ := Criterion.contribution?_eq_some.1 hcontribution
      exact ⟨d, (List.mem_filter.1 hd).1, Option.some.inj hname, ⟨m, hm⟩, rfl, rfl, rfl⟩
    | conflict tied others =>
      rw [hdecide] at hname
      exact nomatch hname
    | empty =>
      rw [hdecide] at hname
      exact nomatch hname

end Classifier

namespace Constraint

/-- Take a type of a graph whose look-ups are scans, and a criterion that makes driven ports by their
facts. Where a core class implements the type, the criterion matches exactly if the type is an
interface outside of the platform whose name suggests the role, and is served inside. Where the
criterion decides the role of the type, the type is reported as a driven port that the core implements
exactly if it is served inside and a core class implements it. -/
theorem semantic_port_reported_iff_served_inside {g : Graph} (h : g.Indexed) {t : TypeNode}
    (ht : t ∈ g.types) {role : Role} (hrole : role ∈ Criterion.drivenRoles) :
    let criterion := Criterion.semanticDriven (.ofGraph g (.ofGraph g)) role
    (g.ServedByCore t → (criterion.Matches g t ↔
      (t.isInterface = true ∧ t.isPlatformType = false ∧ drivenRoleOfName t.simpleName = role) ∧
        g.ServedInside t)) ∧
    ∀ (c : Classifier) (r : ClassificationResult), (∀ d ∈ c.custom, d.name ≠ criterion.name) →
      (c.classify g).get? t.id = some r → r.criterion = some criterion.name →
      (Reports ((portDirection (.ofGraph g)).findings g (c.classify g)) "Driven port '" t.id ↔
        g.ServedInside t ∧ g.ServedByCore t) := by
  intro criterion
  have hmatches := Criterion.matches_semanticDriven_ofGraph h ht role
  constructor
  · intro hcore
    rw [hmatches, g.shape_iff_servedInside h hcore]
  · intro c r hcustom hr hname
    have hsettings : ∀ role ∈ Criterion.drivenRoles,
        (Criterion.semanticDriven {} role).name ≠ "explicit-configuration" := by decide
    obtain ⟨d, hd, hdname, hdmatches, hclassified, htarget, hdirection⟩ :=
      Classifier.exists_criterion_of_get? h ht hr hname (hsettings role hrole)
    -- no other criterion has the name
    obtain rfl : d = criterion := by
      rcases List.mem_append.1 hd with hd | hd
      · exact List.inj_on_of_nodup_map (Criterion.builtIn_names_nodup _ _) hd
          (Criterion.semanticDriven_mem_builtIn _ _ hrole) hdname
      · exact absurd hdname (hcustom d hd)
    obtain ⟨⟨hinterface, -, -⟩, hshape⟩ := hmatches.1 hdmatches
    have hdriven : ∀ role ∈ Criterion.drivenRoles,
        role.family = .port ∧ role.direction? = some .driven := by decide
    have hport : r ∈ (c.classify g).ofFamily .port := by
      refine (c.mem_ofFamily_iff h hr).2 ⟨hclassified, ?_⟩
      rw [htarget]
      exact congrArg some (hdriven role hrole).1
    have htype : g.type? t.id = some t := h.type?_of_mem_types ht
    obtain ⟨-, hreports, -⟩ := portDirection_reports h c htype hinterface hr hport
    rw [hreports, and_iff_right (hdirection.trans (hdriven role hrole).2), List.any_eq_true]
    constructor
    · intro hcore
      exact ⟨(g.shape_iff_servedInside h hcore).1 hshape, hcore⟩
    · rintro ⟨-, hcore⟩
      exact hcore

section Example

/-- Where a bank finds the rates that others publish. -/
def rateStore : SourceType where
  name := "bank.RateStore"
  form := .interface

/-- An adapter that gets the rates from outside. -/
def restRates : SourceType where
  name := "bank.infra.RestRates"
  form := .plainClass
  interfaces := [.plain "bank.RateStore"]

/-- Rates that remember what other rates said. -/
def cachedRates : SourceType where
  name := "bank.CachedRates"
  form := .plainClass
  interfaces := [.plain "bank.RateStore"]
  fields := [.privateFinal "rates" (.plain "bank.RateStore")]

/-- The store and what implements it. -/
def storeWith (implementation : SourceType) : Model := { types := [rateStore, implementation] }

def storeGraph (implementation : SourceType) : Graph :=
  (storeWith implementation).build.toOption.getD .empty

/-- What the classifier without settings makes of the store. -/
def storeResult (implementation : SourceType) : ClassificationResult :=
  Classifier.judgedResult (Classifier.unconfigured.criteria (storeGraph implementation))
    (storeGraph implementation) rateStore.toNode

/-- With an adapter outside, the store is a driven port by its facts and is not reported. -/
theorem adapted_store_unreported :
    (Classifier.unconfigured.classify (storeGraph restRates)).get? rateStore.id
        = some (storeResult restRates) ∧
      (storeResult restRates).criterion = some "semantic-driven-driven-port" ∧
      ¬ Reports ((portDirection (.ofGraph (storeGraph restRates))).findings (storeGraph restRates)
        (Classifier.unconfigured.classify (storeGraph restRates))) "Driven port '" rateStore.id := by
  have hbuild : (storeWith restRates).build = .ok (storeGraph restRates) :=
    Model.build_eq_ok (by decide)
  have h := Model.builds_of_buildWith hbuild
  have ht := h.mem_types (t := rateStore) List.mem_cons_self
  have hr := Classifier.get?_of_open (c := Classifier.unconfigured) h.indexed ht rfl rfl
  have hname : (storeResult restRates).criterion = some "semantic-driven-driven-port" := by
    decide +kernel
  obtain ⟨-, hreported⟩ := semantic_port_reported_iff_served_inside h.indexed ht
    (by decide : Role.drivenPort ∈ Criterion.drivenRoles)
  have hiff := hreported Classifier.unconfigured _ (fun d hd => absurd hd List.not_mem_nil) hr hname
  refine ⟨hr, hname, fun hreports => ?_⟩
  have himplements : restRates.toNode ∈ (storeGraph restRates).implementorsOf rateStore.toNode.id := by
    decide +kernel
  have hdomain := (hiff.1 hreports).1.inside _ himplements (by decide)
  exact absurd hdomain (by decide +kernel)

/-- The rates that remember are core: they are domain code and ask other rates. With them alone the
store is a driven port by its facts, though a core class implements it, and it is reported. -/
theorem cached_store_reported :
    ∃ g r, (storeWith cachedRates).build = .ok g ∧
      (Criterion.semanticDriven (.ofGraph g (.ofGraph g)) .drivenPort).Matches g rateStore.toNode ∧
      g.ServedByCore rateStore.toNode ∧
      (Classifier.unconfigured.classify g).get? rateStore.id = some r ∧
      r.criterion = some "semantic-driven-driven-port" ∧
      Reports ((portDirection (.ofGraph g)).findings g (Classifier.unconfigured.classify g))
        "Driven port '" rateStore.id := by
  have hbuild : (storeWith cachedRates).build = .ok (storeGraph cachedRates) :=
    Model.build_eq_ok (by decide)
  have h := Model.builds_of_buildWith hbuild
  have ht := h.mem_types (t := rateStore) List.mem_cons_self
  obtain ⟨hjudged, hdriven, hname⟩ : ((storeResult cachedRates).isClassified = true ∧
      (storeResult cachedRates).target = some .port) ∧
      (storeResult cachedRates).direction = some .driven ∧
      (storeResult cachedRates).criterion = some "semantic-driven-driven-port" := by decide +kernel
  obtain ⟨hr, hport⟩ := Classifier.mem_ofFamily_of_open (c := Classifier.unconfigured) h.indexed ht
    rfl rfl .port hjudged
  have hmatches := (Criterion.matches_semanticDriven_ofGraph h.indexed ht .drivenPort).2
    ⟨⟨rfl, by decide, by decide⟩, by decide +kernel⟩
  have hcore : ∃ u ∈ (storeGraph cachedRates).implementorsOf rateStore.toNode.id,
      (Anchors.ofGraph (storeGraph cachedRates)).isCore u.id = true := by decide +kernel
  obtain ⟨-, hreports, -⟩ := portDirection_reports h.indexed Classifier.unconfigured
    (h.type?_id (t := rateStore) List.mem_cons_self) rfl hr hport
  exact ⟨_, _, hbuild, hmatches, hcore, hr, hname, hreports.2 ⟨hdriven, List.any_eq_true.2 hcore⟩⟩

end Example

end Constraint

end RoleAudit
