import RoleAudit.Proofs.Criterion.Part

/-!
# A test double of an interface

A test double is test code that implements an interface and to which nothing refers. The facts on the
interface leave test code out, so the double does not change them. Two criteria on ports count all
implementations: one asks that there is none, and one that there is none in domain code. The double
silences the first of them, and the second if it is domain code itself. All other criteria on ports say
of the interface what they say without the double.
-/

namespace RoleAudit

section Inside

variable {α : Type} {inside : α → Bool} {l l' : List α} (hl : l'.filter inside = l) {f f' : α → Bool}
  (hin : ∀ a ∈ l', inside a = true → f' a = f a) (hout : ∀ a ∈ l', inside a = false → f' a = false)

include hl hin hout

/-- A test that fails outside and is the same inside selects the same. -/
theorem filter_eq_of_inside : l'.filter f' = l.filter f := by
  rw [← hl, List.filter_filter]
  refine List.filter_congr fun a ha => ?_
  cases hinside : inside a with
  | true => rw [hin a ha hinside, Bool.and_true]
  | false => rw [hout a ha hinside, Bool.and_false]

theorem any_eq_of_inside : l'.any f' = l.any f := by
  rw [← hl, List.any_filter]
  refine any_eq_of_forall_mem fun a ha => ?_
  cases hinside : inside a with
  | true => rw [hin a ha hinside, Bool.true_and]
  | false => rw [hout a ha hinside, Bool.false_and]

end Inside

namespace Graph

/-- The first graph is a base of the second, and the one type that stands on it is test code that
implements an interface of the first. -/
structure Double (p g : Graph) (id : NodeId) (x : TypeNode) : Prop extends Base p g where
  interface : id ∈ p.nodeIds
  implements : x ∈ g.implementorsOf id
  only : ∀ u ∈ g.types, u.id ∉ p.nodeIds → u = x
  concrete : x.isInterface = false
  test : x.isTestCode = true

namespace Double

variable {p g : Graph} {id : NodeId} {x : TypeNode} (h : p.Double g id x)

include h

theorem type?_eq_some : g.type? x.id = some x := (h.whole.type?_of_mem_resolveTypes h.implements).2

theorem eq_of_mem_resolveTypes {ids : List NodeId} {u : TypeNode} (hu : u ∈ g.resolveTypes ids)
    (hout : decide (u.id ∈ p.nodeIds) = false) : u = x := by
  have htype := (h.whole.type?_of_mem_resolveTypes hu).2
  refine h.only u ?_ (of_decide_eq_false hout)
  rw [h.whole.types_eq]
  exact (h.whole.type?_eq_some.1 htype).1

theorem isCore_eq_false : (Anchors.ofGraph g).isCore x.id = false := by
  rw [Anchors.isCore_ofGraph h.whole, h.type?_eq_some, Option.any_some, Anchors.isCoreType, h.test]
  simp

theorem isDomain_eq_decide :
    (Anchors.ofGraph g).isDomain x.id = decide (Anchor.ofType g x = .domain) := by
  rw [Anchors.isDomain, Anchors.get?_ofGraph h.whole, h.type?_eq_some, Option.bind_some, h.concrete]
  simp

/-! ## The facts on the interface -/

theorem productionImplementors_eq : g.productionImplementors id = p.productionImplementors id := by
  refine filter_eq_of_inside (h.implementorsOf_filter id) (fun _ _ _ => rfl) fun u hu hout => ?_
  rw [h.eq_of_mem_resolveTypes hu hout, h.test]
  rfl

theorem usedByCore_eq : (g.typesInjecting id).any ((Anchors.ofGraph g).isCore ·.id)
    = (p.typesInjecting id).any ((Anchors.ofGraph p).isCore ·.id) := by
  refine any_eq_of_inside (h.typesInjecting_filter id) (fun u _ hin => ?_) fun u hu hout => ?_
  · exact h.isCore_eq (of_decide_eq_true hin)
  · rw [h.eq_of_mem_resolveTypes hu hout]
    exact h.isCore_eq_false

theorem portFacts_eq {t : TypeNode} (ht : t.id = id) :
    PortFacts.ofInterface g (.ofGraph g) t = PortFacts.ofInterface p (.ofGraph p) t := by
  subst ht
  exact h.portFacts_eq_of_counted h.productionImplementors_eq h.usedByCore_eq

theorem facts_get?_eq : (PortFactsIndex.ofGraph g (.ofGraph g)).get? id
    = (PortFactsIndex.ofGraph p (.ofGraph p)).get? id :=
  h.facts_get?_eq_of_portFacts h.interface fun _ => h.portFacts_eq

end Double

end Graph

namespace Criterion

/-! ## What the criteria lose -/

/-- The criteria on ports that count all implementations of an interface. -/
def countingImplementors : List String := ["injected-as-dependency", "signature-based-driven-port"]

/-- The criteria on ports that a double of an anchor silences. -/
def lostTo (anchor : Anchor) : List String :=
  if anchor = .domain then countingImplementors else ["signature-based-driven-port"]

theorem lostTo_subset (anchor : Anchor) : lostTo anchor ⊆ countingImplementors := by
  cases anchor <;> decide

theorem signature_mem_lostTo (anchor : Anchor) : "signature-based-driven-port" ∈ lostTo anchor := by
  cases anchor <;> decide

theorem name_of_mem_beforeCounting {facts : PortFactsIndex} {c : Criterion}
    (hc : c ∈ beforeCounting facts) : c.name ∉ countingImplementors := by
  have hnames : ∀ name ∈ (beforeCounting {}).map (·.name), name ∉ countingImplementors := by decide
  have hsame : (beforeCounting facts).map (·.name) = (beforeCounting {}).map (·.name) := rfl
  exact hnames c.name (hsame ▸ List.mem_map_of_mem hc)

theorem name_of_mem_onPackages {c : Criterion} (hc : c ∈ onPackages) :
    c.name ∉ countingImplementors := by
  have hnames : ∀ name ∈ onPackages.map (·.name), name ∉ countingImplementors := by decide
  exact hnames c.name (List.mem_map_of_mem hc)

/-- The second criterion is silent if the first has one of given names, and else says the same. -/
def SameUnless (lost : List String) (p g : Graph) (t : TypeNode) (c c' : Criterion) : Prop :=
  if c.name ∈ lost then c'.judge g t = .silent else SameFor p g t c c'

/-- The contributions that are left are those of the other criteria. -/
theorem filterMap_of_sameUnless {lost : List String} {p g : Graph} {t : TypeNode}
    {criteria criteria' : List Criterion}
    (h : List.Forall₂ (SameUnless lost p g t) criteria criteria') :
    criteria'.filterMap (·.contribution? g t)
      = (criteria.filterMap (·.contribution? p t)).filter (·.criterion ∉ lost) := by
  rw [List.filter_filterMap]
  refine filterMap_eq_of_forall₂ h fun c c' hc => ?_
  have hname : ∀ y, c.contribution? p t = some y → y.criterion = c.name := by
    intro y hy
    obtain ⟨m, -, rfl⟩ := Option.map_eq_some_iff.1 hy
    rfl
  unfold SameUnless at hc
  split at hc
  · rename_i hlost
    rw [contribution?, hc]
    symm
    refine Option.filter_eq_none_iff.2 fun y hy => ?_
    simpa [hname y hy] using hlost
  · rename_i hkept
    rw [hc.contribution?_eq]
    cases hcontribution : c.contribution? p t with
    | none => rfl
    | some y =>
      rw [Option.filter_some_pos]
      simpa [hname y hcontribution] using hkept

section Double

variable {p g : Graph} {t x : TypeNode} (h : p.Double g t.id x)

include h

theorem signatureBasedDriven_silent : signatureBasedDriven.judge g t = .silent := by
  have himplemented : (g.implementorsOf t.id).isEmpty = false :=
    List.isEmpty_eq_false_iff_exists_mem.2 ⟨x, h.implements⟩
  simp only [signatureBasedDriven, himplemented, Bool.and_false, Bool.false_and]
  rfl

theorem injectedAsDependency_silent (hx : Anchor.ofType g x = .domain) :
    (injectedAsDependency (.ofGraph g)).judge g t = .silent := by
  have himplemented : (g.implementorsOf t.id).any ((Anchors.ofGraph g).isDomain ·.id) = true :=
    List.any_eq_true.2 ⟨x, h.implements, h.isDomain_eq_decide.trans (decide_eq_true hx)⟩
  simp only [injectedAsDependency, himplemented, Bool.not_true, Bool.and_false]
  rfl

/-- A double outside the domain is none of the types that the criterion counts. -/
theorem sameFor_injectedAsDependency_of_double (hx : Anchor.ofType g x ≠ .domain) :
    SameFor p g t (injectedAsDependency (.ofGraph p)) (injectedAsDependency (.ofGraph g)) := by
  have hin : ∀ u : TypeNode, decide (u.id ∈ p.nodeIds) = true →
      (Anchors.ofGraph g).isDomain u.id = (Anchors.ofGraph p).isDomain u.id :=
    fun u hu => h.isDomain_eq (of_decide_eq_true hu)
  have hout : ∀ ids, ∀ u ∈ g.resolveTypes ids, decide (u.id ∈ p.nodeIds) = false →
      (Anchors.ofGraph g).isDomain u.id = false := by
    intro ids u hu hu'
    rw [h.eq_of_mem_resolveTypes hu hu', h.isDomain_eq_decide]
    exact decide_eq_false hx
  have hconsumers := filter_eq_of_inside (h.typesInjecting_filter t.id) (fun u _ => hin u) (hout _)
  have hinDomain := any_eq_of_inside (h.implementorsOf_filter t.id) (fun u _ => hin u) (hout _)
  refine ⟨rfl, rfl, rfl, ?_⟩
  simp only [injectedAsDependency, hconsumers, hinDomain]

/-- The double silences the criteria that are lost to it, and changes no other one on ports. -/
theorem sameUnless_portCriteria :
    List.Forall₂ (SameUnless (lostTo (Anchor.ofType g x)) p g t)
      (portCriteria (.ofGraph p (.ofGraph p)) (.ofGraph p))
      (portCriteria (.ofGraph g (.ofGraph g)) (.ofGraph g)) := by
  have hkept : ∀ {cs cs' : List Criterion}, (∀ c ∈ cs, c.name ∉ countingImplementors) →
      List.Forall₂ (SameFor p g t) cs cs' →
      List.Forall₂ (SameUnless (lostTo (Anchor.ofType g x)) p g t) cs cs' := by
    intro cs cs' hnames hsame
    refine ((List.forall₂_and_left _ _).2 ⟨hnames, hsame⟩).imp fun c c' hc => ?_
    exact (if_neg fun hlost => hc.1 (lostTo_subset _ hlost)).mpr hc.2
  rw [portCriteria_eq, portCriteria_eq]
  refine List.rel_append (List.rel_append ?_ (.cons ?_ (.cons ?_ .nil))) ?_
  · exact hkept (fun _ => name_of_mem_beforeCounting)
      (sameFor_beforeCounting h.toBase h.interface h.facts_get?_eq)
  · by_cases hx : Anchor.ofType g x = .domain
    · have hlost : "injected-as-dependency" ∈ lostTo (Anchor.ofType g x) := by rw [hx]; decide
      exact (if_pos hlost).mpr (injectedAsDependency_silent h hx)
    · have hleft : "injected-as-dependency" ∉ lostTo (Anchor.ofType g x) := by
        rw [lostTo, if_neg hx]
        decide
      exact (if_neg hleft).mpr (sameFor_injectedAsDependency_of_double h hx)
  · exact (if_pos (signature_mem_lostTo _)).mpr (signatureBasedDriven_silent h)
  · exact hkept (fun _ => name_of_mem_onPackages) sameFor_onPackages

end Double

end Criterion

end RoleAudit
