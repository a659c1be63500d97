import RoleAudit.Proofs.Classification.OrderFree
import RoleAudit.Proofs.Criterion.Ties

/-!
# Which conflicts the built-in criteria can make

A result in conflict has an entry of severity error for each of the tied matches. With the built-in
criteria alone, a conflict has one of few priorities: on an interface those of markers, of relations
and of hints, on any other type those of markers, of telling names and of relations.
-/

namespace RoleAudit

open Contribution

namespace ClassificationResult

/-- The entries of severity error. -/
def errors (r : ClassificationResult) : List Conflict := r.conflicts.filter (·.severity = .error)

theorem errors_contradicted (id : NodeId) (target : Family) (tied others : List Contribution) :
    (contradicted id target tied others).errors = tied.map (.ofContribution .error) := by
  simp [errors, contradicted, Conflict.ofContribution, List.filter_map, Function.comp_def]

section OfDecision

variable {id : NodeId} {target : Family} {hasSignal : Bool} {cs : List Contribution}

theorem status_ofDecision_iff {R : Nat ×ₗ Nat} (hR : IsTop cs R) :
    (ofDecision id target hasSignal (.decide cs)).status = .conflict ↔
      Contradictory (ofStanding R cs) := by
  rw [← Decision.exists_conflict_iff hR]
  cases Decision.decide cs with
  | empty => cases hasSignal <;> simp [ofDecision, unmatched]
  | winner first others => simp [ofDecision, classified]
  | conflict tied others => simp [ofDecision, contradicted]

/-- What a result in conflict is made of. -/
theorem exists_contradicted {R : Nat ×ₗ Nat} (hR : IsTop cs R)
    (h : Contradictory (ofStanding R cs)) :
    ∃ others, StableSort (notOfStanding R cs) others ∧
      ofDecision id target hasSignal (.decide cs)
        = contradicted id target (ofStanding R cs) others := by
  obtain ⟨tied, others, hdecide⟩ := (Decision.exists_conflict_iff hR).2 h
  obtain ⟨-, rfl, hothers⟩ := (Decision.decide_eq_conflict_iff hR).1 hdecide
  exact ⟨others, hothers, by rw [hdecide, ofDecision]⟩

/-- The errors of a result in conflict are the tied contributions. -/
theorem errors_ofDecision {R : Nat ×ₗ Nat} (hR : IsTop cs R)
    (h : Contradictory (ofStanding R cs)) :
    (ofDecision id target hasSignal (.decide cs)).errors
      = (ofStanding R cs).map (.ofContribution .error) := by
  obtain ⟨others, -, hr⟩ := exists_contradicted hR h
  rw [hr]
  exact errors_contradicted _ _ _ _

theorem exists_isTop_of_conflict
    (h : (ofDecision id target hasSignal (.decide cs)).status = .conflict) : ∃ R, IsTop cs R := by
  refine exists_isTop ?_
  rintro rfl
  rw [Decision.decide_nil, ofDecision, unmatched] at h
  cases hasSignal <;> exact nomatch h

end OfDecision

end ClassificationResult

namespace Classifier

/-- A type that is not left out and has no role in the settings is put to the criteria. -/
theorem get?_of_open {g : Graph} (h : g.Indexed) {c : Classifier} {t : TypeNode} (ht : t ∈ g.types)
    (hkept : c.excludes t = false) (hopen : c.explicit.get? t.name = none) :
    (c.classify g).get? t.id = some (judgedResult (c.criteria g) g t) := by
  have htype : g.type? t.id = some t := h.type?_of_mem_types ht
  rw [c.get?_classify h, htype, Option.filter_some_pos (by simp [hkept]), Option.map_some, result,
    hopen]

/-- The criteria alone put a type that the settings leave open into a family. -/
theorem mem_ofFamily_of_open {g : Graph} (h : g.Indexed) {c : Classifier} {t : TypeNode}
    (ht : t ∈ g.types) (hkept : c.excludes t = false) (hopen : c.explicit.get? t.name = none)
    (family : Family)
    (hjudged : (judgedResult (c.criteria g) g t).isClassified = true ∧
      (judgedResult (c.criteria g) g t).target = some family) :
    (c.classify g).get? t.id = some (judgedResult (c.criteria g) g t) ∧
      judgedResult (c.criteria g) g t ∈ (c.classify g).ofFamily family := by
  have hr := get?_of_open h ht hkept hopen
  exact ⟨hr, (c.mem_ofFamily_iff h hr).2 hjudged⟩

/-- What the criteria say for a type. -/
def proposals (c : Classifier) (g : Graph) (t : TypeNode) : List Contribution :=
  (Criterion.evaluate (c.criteria g) g (g.familiesOf t) t).contributions

theorem judgedResult_eq (c : Classifier) (g : Graph) (t : TypeNode) :
    judgedResult (c.criteria g) g t
      = { ClassificationResult.ofDecision t.id t.primaryFamily (g.hasSignal t)
            (.decide (c.proposals g t)) with
          diagnostics := (Criterion.evaluate (c.criteria g) g (g.familiesOf t) t).diagnostics } :=
  rfl

theorem status_judgedResult_iff {c : Classifier} {g : Graph} {t : TypeNode} {R : Nat ×ₗ Nat}
    (hR : IsTop (c.proposals g t) R) :
    (judgedResult (c.criteria g) g t).status = .conflict ↔
      Contradictory (ofStanding R (c.proposals g t)) :=
  ClassificationResult.status_ofDecision_iff hR

theorem errors_judgedResult {c : Classifier} {g : Graph} {t : TypeNode} {R : Nat ×ₗ Nat}
    (hR : IsTop (c.proposals g t) R) (h : Contradictory (ofStanding R (c.proposals g t))) :
    (judgedResult (c.criteria g) g t).errors
      = (ofStanding R (c.proposals g t)).map (.ofContribution .error) :=
  ClassificationResult.errors_ofDecision hR h

section Proposals

variable {c : Classifier} (hcustom : c.custom = []) (g : Graph) {t : TypeNode}
include hcustom

theorem proposals_interface (ht : t.isInterface = true) :
    c.proposals g t = (Criterion.portCriteria (.ofGraph g (.ofGraph g)) (.ofGraph g)).filterMap
      (·.contribution? g t) := by
  simp only [proposals, Criterion.evaluate, criteria, hcustom, List.append_nil, Graph.familiesOf, ht,
    if_true]
  rw [Criterion.asked_interface]

/-- A type that is no interface is not put to any criterion on ports. -/
theorem exists_proposals_inner (ht : t.isInterface = false) :
    ∃ asked : List Criterion, asked.Sublist Criterion.inner ∧
      c.proposals g t = asked.filterMap (·.contribution? g t) := by
  simp only [proposals, Criterion.evaluate, criteria, hcustom, List.append_nil, Graph.familiesOf, ht,
    Bool.false_eq_true, if_false]
  split
  · refine ⟨Criterion.domainCriteria, List.sublist_append_left _ _, ?_⟩
    rw [Criterion.asked_domain]
  · refine ⟨Criterion.inner, List.Sublist.refl _, ?_⟩
    rw [Criterion.asked_inner]

theorem length_ofStanding_interface (ht : t.isInterface = true) {R : Nat ×ₗ Nat}
    (hR : (ofLex R).1 ∈ [Priority.semantic, Priority.strong, Priority.graph]) :
    (ofStanding R (c.proposals g t)).length ≤ 1 := by
  rw [proposals_interface hcustom g ht, Criterion.ofStanding_filterMap]
  exact Criterion.length_ofStanding_le_one (Criterion.port_apart _ _ _ hR) R

/-- No two criteria on the facts tie, on any type. -/
theorem length_ofStanding_semantic (t : TypeNode) (k : Nat) :
    (ofStanding (toLex (Priority.semantic, k)) (c.proposals g t)).length ≤ 1 := by
  cases ht : t.isInterface with
  | true => exact length_ofStanding_interface hcustom g ht (by simp)
  | false =>
    obtain ⟨asked, hsub, heq⟩ := exists_proposals_inner hcustom g ht
    have hnone : asked.filter (·.priority = Priority.semantic) = [] := by
      have hinner : Criterion.inner.filter (·.priority = Priority.semantic) = [] := rfl
      have hfiltered := hsub.filter (·.priority = Priority.semantic)
      rw [hinner] at hfiltered
      exact List.sublist_nil.1 hfiltered
    rw [heq, Criterion.ofStanding_filterMap, ofLex_toLex, hnone]
    simp [ofStanding]

/-- The priorities of a contradiction. -/
theorem priority_of_contradictory_proposals {R : Nat ×ₗ Nat}
    (h : Contradictory (ofStanding R (c.proposals g t))) :
    (ofLex R).1 ∈ if t.isInterface then [100, 75, 60] else [100, 80, 75] := by
  cases ht : t.isInterface with
  | true =>
    rw [proposals_interface hcustom g ht] at h
    have hmem := Criterion.priority_of_contradictory (Criterion.port_apart _ _) h
    have hpriorities : ((Criterion.portCriteria (.ofGraph g (.ofGraph g)) (.ofGraph g)).map
        (·.priority)).filter (· ∉ [Priority.semantic, Priority.strong, Priority.graph])
        = [100, 100, 100, 75, 75, 75, 60, 60] := rfl
    rw [hpriorities] at hmem
    simpa using hmem
  | false =>
    obtain ⟨asked, hsub, heq⟩ := exists_proposals_inner hcustom g ht
    rw [heq] at h
    have hapart : ∀ p ∈ [Priority.graph, Priority.weak],
        (asked.filter (·.priority = p)).Pairwise (Criterion.Apart g t) :=
      fun p hp => (Criterion.inner_apart p hp).sublist (hsub.filter _)
    have hmem := ((hsub.map _).filter _).subset (Criterion.priority_of_contradictory hapart h)
    have hpriorities : ∀ p ∈ (Criterion.inner.map (·.priority)).filter
        (· ∉ [Priority.graph, Priority.weak]), p ∈ [100, 80, 75] := by decide
    exact hpriorities _ hmem

/-- A contradiction with the priority of telling names outside of interfaces. -/
theorem criteria_of_strong_contradiction (ht : t.isInterface = false) {R : Nat ×ₗ Nat}
    (hR : (ofLex R).1 = Priority.strong) (h : Contradictory (ofStanding R (c.proposals g t))) :
    ∃ other ∈ Criterion.besideRepository.map (·.name),
      (ofStanding R (c.proposals g t)).map (·.criterion) = ["repository-dominant", other] := by
  obtain ⟨asked, hsub, heq⟩ := exists_proposals_inner hcustom g ht
  have hgroup := hsub.filter fun d => d.priority = Priority.strong
  rw [Criterion.inner_strong] at hgroup
  refine Criterion.criteria_of_strong_tie (g := g) (t := t) (R := R) ?_ (two_le_of_contradictory h)
  rw [heq, Criterion.ofStanding_filterMap, hR]
  exact (hgroup.filterMap _).filter _

end Proposals

/-- Which conflicts there are with the built-in criteria alone. Take a graph whose look-ups are scans,
as they are in every graph that insertions make, and a type of it that is not left out and has no role
in the settings. If its result is in conflict, the tied entries have priority 100, 75 or 60 on an
interface, and 100, 80 or 75 on any other type. No two criteria on the facts tie, no two criteria on the
names of ports tie on an interface, and a tie with priority 80 on another type is between the criterion
on repositories and one that tells an identifier, a command or a query by its name. -/
theorem conflicts_of_builtIn_criteria {g : Graph} (h : g.Indexed) {c : Classifier}
    (hcustom : c.custom = []) {t : TypeNode} (ht : t ∈ g.types) (hkept : c.excludes t = false)
    (hopen : c.explicit.get? t.name = none) :
    ∃ r, (c.classify g).get? t.id = some r ∧
      (r.status = .conflict → 2 ≤ r.errors.length ∧
        ∀ e ∈ r.errors, e.priority ∈ if t.isInterface then [100, 75, 60] else [100, 80, 75]) ∧
      (∀ k, (ofStanding (toLex (85, k)) (c.proposals g t)).length ≤ 1) ∧
      (t.isInterface = true → ∀ k, (ofStanding (toLex (80, k)) (c.proposals g t)).length ≤ 1) ∧
      (t.isInterface = false → r.status = .conflict → (∃ e ∈ r.errors, e.priority = 80) →
        ∃ other ∈ ["record-single-id", "naming-command-model", "naming-query-model"],
          r.errors.map (·.criterion) = ["repository-dominant", other]) := by
  have htie : (judgedResult (c.criteria g) g t).status = .conflict →
      ∃ R, Contradictory (ofStanding R (c.proposals g t)) ∧
        (judgedResult (c.criteria g) g t).errors
          = (ofStanding R (c.proposals g t)).map (.ofContribution .error) := by
    intro hstatus
    obtain ⟨R, hR⟩ := ClassificationResult.exists_isTop_of_conflict hstatus
    have hcontra := (status_judgedResult_iff hR).1 hstatus
    exact ⟨R, hcontra, errors_judgedResult hR hcontra⟩
  have hpriority : ∀ R, ∀ e ∈ (ofStanding R (c.proposals g t)).map (Conflict.ofContribution .error),
      e.priority = (ofLex R).1 := by
    intro R e he
    obtain ⟨x, hx, rfl⟩ := List.mem_map.1 he
    rw [← (mem_ofStanding.1 hx).2]
    rfl
  refine ⟨judgedResult (c.criteria g) g t, get?_of_open h ht hkept hopen, ?_,
    length_ofStanding_semantic hcustom g t, ?_, ?_⟩
  · intro hstatus
    obtain ⟨R, hcontra, herrors⟩ := htie hstatus
    rw [herrors, List.length_map]
    refine ⟨two_le_of_contradictory hcontra, fun e he => ?_⟩
    rw [hpriority R e he]
    exact priority_of_contradictory_proposals hcustom g hcontra
  · intro hinterface k
    exact length_ofStanding_interface hcustom g hinterface (by simp [Priority.strong])
  · rintro hinner hstatus ⟨e, he, hstrong⟩
    obtain ⟨R, hcontra, herrors⟩ := htie hstatus
    rw [herrors] at he
    have hR : (ofLex R).1 = Priority.strong := (hpriority R e he).symm.trans hstrong
    obtain ⟨other, hother, hnames⟩ := criteria_of_strong_contradiction hcustom g hinner hR hcontra
    refine ⟨other, hother, ?_⟩
    rw [herrors, List.map_map, ← hnames]
    rfl

section Example

/-- A record whose name and single field say that it is an identifier. -/
def crateId : SourceType where
  name := "depot.CrateId"
  form := .record
  fields := [.privateFinal "id" (.plain "long")]

/-- A repository that keeps such records. -/
def crateIdRepository : SourceType where
  name := "depot.CrateIdRepository"
  form := .interface
  methods := [{ name := "find", returnType := .plain "depot.CrateId" }]

/-- A depot with both of them. -/
def depot : Model where
  types := [crateId, crateIdRepository]

/-- The graph of the depot. -/
def depotGraph : Graph := depot.build.toOption.getD .empty

/-- A classifier without settings. -/
def unconfigured : Classifier where
  exclusions := {}
  explicit := .ofList []

/-- The record is the identifier that it looks like and the aggregate root that the repository makes
of it. -/
theorem crateId_in_conflict :
    ∃ r, (unconfigured.classify depotGraph).get? crateId.id = some r ∧ r.status = .conflict ∧
      ∃ other, r.errors.map (·.criterion) = ["repository-dominant", other] := by
  have hbuilds : depot.Builds true depotGraph := Model.builds_build (by decide)
  have hix := hbuilds.indexed
  have hmem : crateId.toNode ∈ depotGraph.types := by
    rw [hix.types_eq]
    exact hbuilds.mem_typeNodes List.mem_cons_self
  obtain ⟨r, hr, -, -, -, hstrong⟩ :=
    conflicts_of_builtIn_criteria hix (c := unconfigured) rfl hmem rfl rfl
  obtain rfl := Option.some.inj (hr.symm.trans (get?_of_open hix hmem rfl rfl))
  have hstanding : ∀ x ∈ unconfigured.proposals depotGraph crateId.toNode,
      x.standing = toLex (80, 2) := by decide +kernel
  have hcontra : Contradictory (unconfigured.proposals depotGraph crateId.toNode) :=
    Decision.hasContradiction_iff.1 (by decide +kernel)
  have htied : ofStanding (toLex (80, 2)) (unconfigured.proposals depotGraph crateId.toNode)
      = unconfigured.proposals depotGraph crateId.toNode :=
    List.filter_eq_self.2 fun x hx => by simpa using hstanding x hx
  obtain ⟨x, hx, -⟩ := id hcontra
  have htop : IsTop (unconfigured.proposals depotGraph crateId.toNode) (toLex (80, 2)) := by
    refine ⟨⟨x, hx, hstanding x hx⟩, ?_⟩
    rintro S ⟨y, hy, rfl⟩
    exact (hstanding y hy).le
  rw [← htied] at hcontra hx
  have hstatus := (status_judgedResult_iff htop).2 hcontra
  have herror := List.mem_map_of_mem (f := Conflict.ofContribution .error) hx
  rw [← errors_judgedResult htop hcontra] at herror
  have hpriority : x.priority = 80 :=
    (Prod.ext_iff.1 (toLex.injective (mem_ofStanding.1 hx).2)).1
  obtain ⟨other, -, hnames⟩ := hstrong rfl hstatus ⟨_, herror, hpriority⟩
  exact ⟨_, hr, hstatus, other, hnames⟩

end Example

end Classifier

end RoleAudit
