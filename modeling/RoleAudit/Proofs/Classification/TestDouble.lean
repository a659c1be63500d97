import RoleAudit.Proofs.Classification.Compositional
import RoleAudit.Proofs.Classification.Decided
import RoleAudit.Proofs.Criterion.TestDouble
import RoleAudit.Proofs.Model.Queries
import RoleAudit.Regex.Standard

/-!
# Classifying an interface with a test double

A test double takes contributions from an interface and adds none. An interface that was decided by
another criterion than those that are lost is decided as before. If it was decided by one of the lost
criteria, all that is left are the hints of its package: a criterion with more to say would have
decided in the first place.
-/

namespace RoleAudit

open Contribution

namespace Criterion

/-! ## How much the criteria on ports count -/

section Standing

variable {g : Graph} {t : TypeNode} {facts : PortFactsIndex} {anchors : Anchors}

theorem confidence_commandPattern {m : Match} (h : commandPattern.judge g t = .matched m) :
    m.confidence = .medium := by
  simp only [commandPattern] at h
  split at h
  · cases h
  · split at h
    · cases h; rfl
    · split at h
      · cases h; rfl
      · cases h

theorem confidence_queryPattern {m : Match} (h : queryPattern.judge g t = .matched m) :
    m.confidence = .medium := by
  simp only [queryPattern] at h
  split at h
  · cases h; rfl
  · cases h

theorem confidence_injectedAsDependency {m : Match}
    (h : (injectedAsDependency anchors).judge g t = .matched m) : m.confidence = .medium := by
  simp only [injectedAsDependency] at h
  split at h
  · cases h; rfl
  · cases h

/-- In front of the criteria that count implementations no match is less than one by relations, with
medium confidence. -/
theorem standing_of_beforeCounting {y : Contribution}
    (hy : y ∈ (beforeCounting facts).filterMap (·.contribution? g t)) :
    toLex (75, 1) ≤ y.standing := by
  obtain ⟨c, hc, hcontribution⟩ := List.mem_filterMap.1 hy
  obtain ⟨m, hm, rfl⟩ := contribution?_eq_some.1 hcontribution
  have hpriorities : ∀ n ∈ (beforeCounting {}).map (·.priority), 75 ≤ n := by decide
  have hsame : (beforeCounting facts).map (·.priority) = (beforeCounting {}).map (·.priority) := rfl
  have hge : 75 ≤ c.priority := hpriorities _ (hsame ▸ List.mem_map_of_mem hc)
  rw [standing, Prod.Lex.toLex_le_toLex]
  rcases hge.lt_or_eq with hlt | heq
  · exact .inl hlt
  · have hrelations : (beforeCounting facts).filter (·.priority = 75)
        = [commandPattern, queryPattern] := rfl
    have hmem : c ∈ [commandPattern, queryPattern] := by
      rw [← hrelations]
      exact List.mem_filter.2 ⟨hc, decide_eq_true heq.symm⟩
    have hconfidence : m.confidence = .medium := by
      rcases List.mem_cons.1 hmem with rfl | hmem
      · exact confidence_commandPattern hm
      · rw [List.mem_singleton.1 hmem] at hm
        exact confidence_queryPattern hm
    refine .inr ⟨heq, ?_⟩
    rw [contribution, hconfidence]
    exact le_rfl

/-- A match of a criterion that counts implementations. -/
theorem of_mem_counting {y : Contribution}
    (hy : y ∈ [injectedAsDependency anchors, signatureBasedDriven].filterMap (·.contribution? g t)) :
    y.role = .drivenPort ∧ y.standing ≤ toLex (75, 1) ∧
      (y.criterion = "injected-as-dependency" ∧ y.priority = 75 ∨
        y.criterion = "signature-based-driven-port" ∧ y.priority = 70) := by
  obtain ⟨c, hc, hcontribution⟩ := List.mem_filterMap.1 hy
  obtain ⟨m, hm, rfl⟩ := contribution?_eq_some.1 hcontribution
  rcases List.mem_cons.1 hc with rfl | hc
  · refine ⟨rfl, ?_, .inl ⟨rfl, rfl⟩⟩
    rw [standing, contribution, confidence_injectedAsDependency hm]
    exact le_rfl
  · obtain rfl := List.mem_singleton.1 hc
    refine ⟨rfl, ?_, .inr ⟨rfl, rfl⟩⟩
    rw [standing, Prod.Lex.toLex_le_toLex]
    exact .inl (show (70 : Nat) < 75 by omega)

theorem standing_of_onPackages {y : Contribution}
    (hy : y ∈ onPackages.filterMap (·.contribution? g t)) : y.standing = toLex (60, 0) := by
  obtain ⟨c, hc, hcontribution⟩ := List.mem_filterMap.1 hy
  obtain ⟨m, hm, rfl⟩ := contribution?_eq_some.1 hcontribution
  simp only [onPackages, List.mem_cons, List.not_mem_nil, or_false] at hc
  rcases hc with rfl | rfl <;>
  · simp only [packageDirection] at hm
    split at hm
    · cases hm; rfl
    · cases hm

/-- A hint of the package. -/
theorem contribution?_packageDirection (ht : t.isInterface = true) (name segment : String)
    (role : Role) : ∃ y : Contribution, y.role = role ∧
      (packageDirection name segment role).contribution? g t
        = if hasPackageSegment t.package segment then some y else none := by
  let hint : Match :=
    { confidence := .low
      justification := "Declared in a '" ++ segment ++ "' package"
      evidence := [.ofStructure ("Package " ++ t.package)] }
  refine ⟨(packageDirection name segment role).contribution hint, rfl, ?_⟩
  have hjudge : (packageDirection name segment role).judge g t
      = if t.isInterface && hasPackageSegment t.package segment then .matched hint else .silent := rfl
  rw [contribution?, hjudge, ht, Bool.true_and]
  cases hasPackageSegment t.package segment <;> rfl

/-- The hints of the package make an interface a driven port if there is one outward and none inward. -/
theorem drivenPort_onPackages_iff (ht : t.isInterface = true) :
    (∃ winner others, Decision.decide (onPackages.filterMap (·.contribution? g t))
        = .winner winner others ∧ winner.role = .drivenPort) ↔
      hasPackageSegment t.package "out" = true ∧ hasPackageSegment t.package "in" = false := by
  obtain ⟨inward, hinward, hin⟩ := contribution?_packageDirection (g := g) ht "package-in" "in" .useCase
  obtain ⟨outward, houtward, hout⟩ :=
    contribution?_packageDirection (g := g) ht "package-out" "out" .drivenPort
  have hstanding : ∀ {winner others}, Decision.decide (onPackages.filterMap (·.contribution? g t))
      = .winner winner others → (onPackages.filterMap (·.contribution? g t)).head? = some winner := by
    intro winner others hwinner
    refine Decision.head?_of_winner hwinner fun y hy => ?_
    rw [standing_of_onPackages hy, standing_of_onPackages (Decision.winner_mem hwinner)]
  have hhints : onPackages.filterMap (·.contribution? g t)
      = (if hasPackageSegment t.package "in" then [inward] else [])
        ++ if hasPackageSegment t.package "out" then [outward] else [] := by
    rw [onPackages, List.filterMap_cons, List.filterMap_cons, hin, hout, List.filterMap_nil]
    cases hasPackageSegment t.package "in" <;> cases hasPackageSegment t.package "out" <;> rfl
  rw [hhints] at hstanding ⊢
  generalize hasPackageSegment t.package "in" = isIn at hstanding ⊢
  generalize hasPackageSegment t.package "out" = isOut at hstanding ⊢
  cases isIn with
  | true =>
    -- the hint inward comes first, so none but it can win
    refine ⟨?_, fun hno => nomatch hno.2⟩
    rintro ⟨winner, others, hwinner, hrole⟩
    obtain rfl : inward = winner := Option.some.inj (hstanding hwinner)
    rw [hinward] at hrole
    cases hrole
  | false =>
    cases isOut with
    | true => exact ⟨fun _ => ⟨rfl, rfl⟩, fun _ => ⟨outward, [], Decision.decide_singleton _, houtward⟩⟩
    | false =>
      refine ⟨?_, fun hno => nomatch hno.1⟩
      rintro ⟨winner, others, hwinner, -⟩
      exact absurd (Decision.winner_mem hwinner) List.not_mem_nil

/-! ## What is left beside a lost criterion -/

/-- A match of a name that counts implementations is one of the two. -/
theorem mem_counting {y : Contribution}
    (hy : y ∈ (portCriteria facts anchors).filterMap (·.contribution? g t))
    (hname : y.criterion ∈ countingImplementors) :
    y ∈ [injectedAsDependency anchors, signatureBasedDriven].filterMap (·.contribution? g t) := by
  obtain ⟨d, hd, hcontribution⟩ := List.mem_filterMap.1 hy
  rw [criterion_of_contribution? hcontribution] at hname
  rw [portCriteria_eq] at hd
  rcases List.mem_append.1 hd with hd | hd
  · rcases List.mem_append.1 hd with hd | hd
    · exact absurd hname (name_of_mem_beforeCounting hd)
    · exact List.mem_filterMap.2 ⟨d, hd, hcontribution⟩
  · exact absurd hname (name_of_mem_onPackages hd)

section Winner

variable {winner : Contribution} {others : List Contribution}
  (hwinner : Decision.decide ((portCriteria facts anchors).filterMap (·.contribution? g t))
    = .winner winner others)

include hwinner

/-- Where such a match wins, no criterion in front of it has a match: that one would have won. -/
theorem beforeCounting_eq_nil (hname : winner.criterion ∈ countingImplementors) :
    (beforeCounting facts).filterMap (·.contribution? g t) = [] := by
  obtain ⟨-, hle, -⟩ := of_mem_counting (mem_counting (Decision.winner_mem hwinner) hname)
  rw [portCriteria_eq, List.append_assoc, List.filterMap_append] at hwinner
  refine List.eq_nil_iff_forall_not_mem.2 fun y hy => ?_
  have hearly := Decision.winner_mem_left hwinner hy (hle.trans (standing_of_beforeCounting hy))
  obtain ⟨d, hd, hcontribution⟩ := List.mem_filterMap.1 hearly
  rw [criterion_of_contribution? hcontribution] at hname
  exact name_of_mem_beforeCounting hd hname

/-- Where a lost match wins, no match of the two criteria is kept. -/
theorem counting_lost {anchor : Anchor} (hlost : winner.criterion ∈ lostTo anchor) {y : Contribution}
    (hy : y ∈ [injectedAsDependency anchors, signatureBasedDriven].filterMap (·.contribution? g t)) :
    y.criterion ∈ lostTo anchor := by
  obtain ⟨-, -, ⟨hname, hpriority⟩ | ⟨hname, -⟩⟩ := of_mem_counting hy
  · by_cases hdomain : anchor = .domain
    · rw [hname, hdomain]
      decide
    · -- then the winner is the other one, which counts less
      have hmem := mem_counting (Decision.winner_mem hwinner) (lostTo_subset _ hlost)
      rw [lostTo, if_neg hdomain, List.mem_singleton] at hlost
      have hless : winner.priority = 70 := by
        obtain ⟨-, -, ⟨hother, -⟩ | ⟨-, hless⟩⟩ := of_mem_counting hmem
        · rw [hother] at hlost
          exact absurd hlost (by decide)
        · exact hless
      have hin : y ∈ (portCriteria facts anchors).filterMap (·.contribution? g t) := by
        rw [portCriteria_eq, List.filterMap_append, List.filterMap_append]
        exact List.mem_append_left _ (List.mem_append_right _ hy)
      have hle : y.standing ≤ winner.standing := (Decision.isTop_of_winner hwinner).2 ⟨y, hin, rfl⟩
      rw [Contribution.standing, Contribution.standing, Prod.Lex.toLex_le_toLex] at hle
      omega
  · rw [hname]
    exact signature_mem_lostTo _

/-- Where a lost match wins, the hints of the package are all that is kept. -/
theorem filter_lost {anchor : Anchor} (hlost : winner.criterion ∈ lostTo anchor) :
    ((portCriteria facts anchors).filterMap (·.contribution? g t)).filter
        (·.criterion ∉ lostTo anchor) = onPackages.filterMap (·.contribution? g t) := by
  have hearly := beforeCounting_eq_nil hwinner (lostTo_subset _ hlost)
  have hcounting : ([injectedAsDependency anchors, signatureBasedDriven].filterMap
      (·.contribution? g t)).filter (·.criterion ∉ lostTo anchor) = [] :=
    List.filter_eq_nil_iff.2 fun y hy => by simpa using counting_lost hwinner hlost hy
  have hpackages : (onPackages.filterMap (·.contribution? g t)).filter (·.criterion ∉ lostTo anchor)
      = onPackages.filterMap (·.contribution? g t) := by
    refine List.filter_eq_self.2 fun y hy => decide_eq_true fun hy' => ?_
    obtain ⟨d, hd, hcontribution⟩ := List.mem_filterMap.1 hy
    rw [criterion_of_contribution? hcontribution] at hy'
    exact name_of_mem_onPackages hd (lostTo_subset _ hy')
  rw [portCriteria_eq, List.filterMap_append, List.filterMap_append, hearly, List.nil_append,
    List.filter_append, hcounting, hpackages, List.nil_append]

end Winner

end Standing

end Criterion

namespace Classifier

theorem exists_winner_of_judgedResult {c : Classifier} {g : Graph} {t : TypeNode}
    (h : (judgedResult (c.criteria g) g t).status = .classified) :
    ∃ winner others, Decision.decide (c.proposals g t) = .winner winner others ∧
      (judgedResult (c.criteria g) g t).criterion = some winner.criterion ∧
      (judgedResult (c.criteria g) g t).role = some winner.role := by
  rw [judgedResult_eq] at h ⊢
  cases hdecide : Decision.decide (c.proposals g t) with
  | winner winner others => exact ⟨winner, others, rfl, rfl, rfl⟩
  | conflict tied others =>
    rw [hdecide] at h
    cases h
  | empty =>
    rw [hdecide] at h
    generalize g.hasSignal t = signal at h
    cases signal <;> cases h

section Double

variable {c : Classifier} (hcustom : c.custom = []) {p g : Graph} {t x : TypeNode}
  (h : p.Double g t.id x) (ht : t.isInterface = true) {winner : Contribution}
  {others : List Contribution} (hwinner : Decision.decide (c.proposals p t) = .winner winner others)

include hcustom h ht

/-- The double takes contributions away and adds none. -/
theorem proposals_of_double : c.proposals g t
    = (c.proposals p t).filter (·.criterion ∉ Criterion.lostTo (Anchor.ofType g x)) := by
  rw [proposals_interface hcustom g ht, proposals_interface hcustom p ht]
  exact Criterion.filterMap_of_sameUnless (Criterion.sameUnless_portCriteria h)

include hwinner

/-- An interface that was decided by a criterion that is not lost is decided as before. -/
theorem decided_of_kept (hkept : winner.criterion ∉ Criterion.lostTo (Anchor.ofType g x)) :
    (judgedResult (c.criteria g) g t).decided = (judgedResult (c.criteria p) p t).decided := by
  obtain ⟨others', hwinner'⟩ := Decision.exists_winner_filter hwinner
    (·.criterion ∉ Criterion.lostTo (Anchor.ofType g x)) (decide_eq_true hkept)
  rw [← proposals_of_double hcustom h ht] at hwinner'
  show (ClassificationResult.ofDecision _ _ _ (.decide (c.proposals g t))).decided
    = (ClassificationResult.ofDecision _ _ _ (.decide (c.proposals p t))).decided
  rw [hwinner, hwinner']
  rfl

/-- An interface that was decided by a lost criterion was a driven port, and is one by the hints of its
package or not at all. -/
theorem role_of_lost (hlost : winner.criterion ∈ Criterion.lostTo (Anchor.ofType g x)) :
    ((judgedResult (c.criteria g) g t).status = .classified ∧
        (judgedResult (c.criteria g) g t).role = some winner.role) ↔
      hasPackageSegment t.package "out" = true ∧ hasPackageSegment t.package "in" = false := by
  have hproposals := proposals_of_double hcustom h ht
  rw [proposals_interface hcustom p ht] at hwinner hproposals
  rw [Criterion.filter_lost hwinner hlost] at hproposals
  have hmem := Criterion.mem_counting (Decision.winner_mem hwinner) (Criterion.lostTo_subset _ hlost)
  rw [(Criterion.of_mem_counting hmem).1, ← Criterion.drivenPort_onPackages_iff ht (g := p),
    ← hproposals]
  constructor
  · rintro ⟨hstatus, hrole⟩
    obtain ⟨winner', others', hwinner', -, hrole'⟩ := exists_winner_of_judgedResult hstatus
    exact ⟨winner', others', hwinner', Option.some.inj (hrole'.symm.trans hrole)⟩
  · rintro ⟨winner', others', hwinner', hrole⟩
    show (ClassificationResult.ofDecision _ _ _ (.decide (c.proposals g t))).status = _ ∧
      (ClassificationResult.ofDecision _ _ _ (.decide (c.proposals g t))).role = _
    rw [hwinner']
    exact ⟨rfl, congrArg some hrole⟩

end Double

end Classifier

namespace Model

variable {m m' : Model} {i x : SourceType}

/-- The second model has one type more than the first: test code that implements an interface of the
first and that no reference of the first names. -/
structure AddsDouble (m m' : Model) (i x : SourceType) : Prop where
  mem : i ∈ m.types
  interface : i.form = .interface
  types : m'.types = m.types ++ [x]
  unnamed : ¬ m.Names x.name
  implements : ∃ r ∈ x.interfaces, r.name = i.name
  concrete : x.form ≠ .interface
  test : x.toNode.isTestCode = true

/-- The graphs of the two models. -/
theorem AddsDouble.double (h : m.AddsDouble m' i x) {derived : Bool} {g g' : Graph}
    (hg : m.Builds derived g) (hg' : m'.Builds derived g') : g.Double g' i.id x.toNode := by
  have hi : i ∈ m'.types := by
    rw [h.types]
    exact List.mem_append_left _ h.mem
  have hx : x ∈ m'.types := by
    rw [h.types]
    exact List.mem_append_right _ (List.mem_singleton_self x)
  have hadded : ∀ name, Model.declares { types := [x] } name = true → name = x.name := by
    intro name hname
    obtain ⟨t, ht, rfl⟩ := declares_iff _ |>.1 hname
    rw [List.mem_singleton.1 ht]
  have htypes : m'.types = m.types ++ Model.types { types := [x] } := h.types
  have hbase : m.Base m' := by
    refine base_left hg' htypes fun name hname => ?_
    by_contra hdeclared
    rw [Bool.not_eq_false] at hdeclared
    rw [hadded name hdeclared] at hname
    exact h.unnamed hname
  exact {
    toBase := hbase.base hg hg'
    interface := hg.mem_nodeIds.2 ⟨i, h.mem, List.mem_cons_self⟩
    implements := (hg'.mem_implementorsOf_iff hi).2 ⟨x, hx, rfl, h.implements⟩
    only := by
      intro u hu hu'
      rw [hg'.types_eq, h.types] at hu
      obtain ⟨t, ht, rfl⟩ := List.mem_map.1 hu
      rcases List.mem_append.1 ht with ht | ht
      · exact absurd (hg.mem_nodeIds.2 ⟨t, ht, List.mem_cons_self⟩) hu'
      · rw [List.mem_singleton.1 ht]
    concrete := decide_eq_false h.concrete
    test := h.test }

end Model

namespace Classifier

/-- What a test double does to an interface. Take a model with an interface to which the settings give
no role, and one type more: test code that is no interface, that implements the interface and that no
reference of the model names. Let both models have a graph, and let the interface have a role by one of
the built-in criteria. If the criterion is not lost to the double, the interface is decided as without
it. The lost criteria are the one that asks that nothing implements the interface and, if the double is
domain code by its anchor, the one that asks that no domain code does. After one of these the interface
keeps its role exactly if its package says outward and not inward. -/
theorem role_with_test_double {m m' : Model} {i x : SourceType} (hadds : m.AddsDouble m' i x)
    {derived : Bool} {g g' : Graph} (hg : m.buildWith derived = .ok g)
    (hg' : m'.buildWith derived = .ok g') {regexes : RegexLibrary} {s : ClassificationSettings}
    {c : Classifier} (hc : Classifier.ofSettings regexes s [] = .ok c)
    (hunset : s.explicit.get? i.name = none)
    {r : ClassificationResult} (hr : (c.classify g).get? i.id = some r)
    (hclassified : r.status = .classified) :
    ∃ name r', r.criterion = some name ∧ (c.classify g').get? i.id = some r' ∧
      if name ∈ Criterion.lostTo (Anchor.ofType g' x.toNode) then
        (r'.status = .classified ∧ r'.role = r.role ↔
          hasPackageSegment i.package "out" = true ∧ hasPackageSegment i.package "in" = false)
      else r'.decided = r.decided := by
  have hbuilds := Model.builds_of_buildWith hg
  have hbuilds' := Model.builds_of_buildWith hg'
  have hdouble := hadds.double hbuilds hbuilds'
  have hcustom := custom_of_ofSettings hc
  have hopen : c.explicit.get? i.toNode.name = none := (explicit_eq_none_iff hc).2 hunset
  have hinterface : i.toNode.isInterface = true := decide_eq_true hadds.interface
  have htype : g.type? i.id = some i.toNode := hbuilds.type?_eq_some.2 ⟨i, hadds.mem, rfl, rfl⟩
  have hkept : c.excludes i.toNode = false := by
    rw [c.get?_classify hbuilds.indexed, htype] at hr
    cases hexcluded : c.excludes i.toNode with
    | false => rfl
    | true => simp [Option.filter, hexcluded] at hr
  have hmem' : i ∈ m'.types := hadds.types ▸ List.mem_append_left _ hadds.mem
  have hresult := get?_of_open hbuilds.indexed (hbuilds.mem_types hadds.mem) hkept hopen
  have hresult' := get?_of_open hbuilds'.indexed (hbuilds'.mem_types hmem') hkept hopen
  obtain rfl : judgedResult (c.criteria g) g i.toNode = r := Option.some.inj (hresult.symm.trans hr)
  obtain ⟨winner, others, hwinner, hcriterion, hrole⟩ := exists_winner_of_judgedResult hclassified
  refine ⟨winner.criterion, _, hcriterion, hresult', ?_⟩
  split
  · rename_i hlost
    rw [hrole]
    exact role_of_lost hcustom hdouble hinterface hwinner hlost
  · rename_i hleft
    exact decided_of_kept hcustom hdouble hinterface hwinner hleft

section Example

/-- An entry of a ledger. -/
def entry : SourceType where
  name := "books.Entry"
  form := .plainClass
  fields := [{ name := "id", type := .plain "long" }]

/-- A ledger to which entries are posted. -/
def ledger : SourceType where
  name := "books.Ledger"
  form := .interface
  methods := [{
    name := "post", returnType := .plain "void"
    parameters := [{ name := "entry", type := .plain "books.Entry" }] }]

/-- A way to the tax office. -/
def taxGateway : SourceType where
  name := "books.TaxGateway"
  form := .interface

/-- A test double of an interface. -/
def fake (i : SourceType) : SourceType where
  name := "books.test.Fake" ++ i.simpleName
  form := .plainClass
  interfaces := [.plain i.name]

/-- The books, with more types. -/
def books (more : List SourceType) : Model := { types := [entry, ledger] ++ more }

def booksGraph (more : List SourceType) : Graph := (books more).build.toOption.getD .empty

/-- The gateway is one by its name, and so it stays. -/
theorem taxGateway_keeps_role :
    Model.AddsDouble (books [taxGateway]) (books [taxGateway, fake taxGateway]) taxGateway
        (fake taxGateway) ∧
      ∃ r r', (unconfigured.classify (booksGraph [taxGateway])).get? taxGateway.id = some r ∧
        r.status = .classified ∧ r.role = some .gateway ∧
        (unconfigured.classify (booksGraph [taxGateway, fake taxGateway])).get? taxGateway.id
          = some r' ∧ r'.decided = r.decided := by
  have hg : (books [taxGateway]).buildWith true = .ok (booksGraph [taxGateway]) :=
    Model.build_eq_ok (by decide)
  have hg' : (books [taxGateway, fake taxGateway]).buildWith true
      = .ok (booksGraph [taxGateway, fake taxGateway]) := Model.build_eq_ok (by decide)
  have hadds : Model.AddsDouble (books [taxGateway]) (books [taxGateway, fake taxGateway]) taxGateway
      (fake taxGateway) :=
    ⟨by simp [books], rfl, rfl, by decide +kernel, ⟨_, List.mem_singleton_self _, rfl⟩, by decide,
      by decide⟩
  have hc : Classifier.ofSettings .standard {} [] = .ok unconfigured := rfl
  have hbuilds := Model.builds_of_buildWith hg
  have hr := get?_of_open (c := unconfigured) hbuilds.indexed (hbuilds.mem_types hadds.mem) rfl rfl
  obtain ⟨hstatus, hrole, hcriterion⟩ :
      let r := judgedResult (unconfigured.criteria (booksGraph [taxGateway])) (booksGraph [taxGateway])
        taxGateway.toNode
      r.status = .classified ∧ r.role = some .gateway ∧ r.criterion = some "naming-gateway" := by
    decide +kernel
  obtain ⟨name, r', hname, hr', hdouble⟩ := role_with_test_double hadds hg hg' hc rfl hr hstatus
  obtain rfl : "naming-gateway" = name := Option.some.inj (hcriterion.symm.trans hname)
  rw [if_neg fun hlost => absurd (Criterion.lostTo_subset _ hlost) (by decide)] at hdouble
  exact ⟨hadds, _, r', hr, hstatus, hrole, hr', hdouble⟩

/-- The ledger is a driven port because nothing implements it. A fake in the tests takes that away, and
the ledger has no role any more. -/
theorem fake_ledger_takes_role :
    Model.AddsDouble (books []) (books [fake ledger]) ledger (fake ledger) ∧
      ledger.toNode.isTestCode = false ∧
      ∃ g g' r r', (books []).build = .ok g ∧ (books [fake ledger]).build = .ok g' ∧
      (unconfigured.classify g).get? ledger.id = some r ∧
      r.status = .classified ∧ r.role = some .drivenPort ∧
      (unconfigured.classify g').get? ledger.id = some r' ∧
      r'.status = .unclassified ∧ r'.role = none := by
  have hadds : Model.AddsDouble (books []) (books [fake ledger]) ledger (fake ledger) :=
    ⟨by simp [books], rfl, rfl, by decide +kernel, ⟨_, List.mem_singleton_self _, rfl⟩, by decide,
      by decide⟩
  have hg : (books []).build = .ok (booksGraph []) := Model.build_eq_ok (by decide)
  have hg' : (books [fake ledger]).build = .ok (booksGraph [fake ledger]) :=
    Model.build_eq_ok (by decide)
  have hbuilds := Model.builds_of_buildWith hg
  have hbuilds' := Model.builds_of_buildWith hg'
  have hr := get?_of_open (c := unconfigured) hbuilds.indexed
    (hbuilds.mem_types hadds.mem) rfl rfl
  have hr' := get?_of_open (c := unconfigured) hbuilds'.indexed
    (hbuilds'.mem_types (t := ledger) (by simp [books])) rfl rfl
  obtain ⟨hstatus, hrole⟩ :
      let r := judgedResult (unconfigured.criteria (booksGraph [])) (booksGraph []) ledger.toNode
      r.status = .classified ∧ r.role = some .drivenPort := by decide +kernel
  obtain ⟨hstatus', hrole'⟩ :
      let r := judgedResult (unconfigured.criteria (booksGraph [fake ledger]))
        (booksGraph [fake ledger]) ledger.toNode
      r.status = .unclassified ∧ r.role = none := by decide +kernel
  exact ⟨hadds, by decide, _, _, _, _, hg, hg', hr, hstatus, hrole, hr', hstatus', hrole'⟩

end Example

end Classifier

end RoleAudit
