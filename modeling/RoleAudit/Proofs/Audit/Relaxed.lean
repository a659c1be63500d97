import RoleAudit.Proofs.Audit.Reorder
import RoleAudit.Proofs.Settings.ExclusionMatcher

/-!
# Audits with relaxed settings

Settings are relaxed by leaving out more types, switching off more constraints, raising the threshold
or dropping a demand of the policy. An audit that passes still passes then.

For all constraints but one this is so because fewer results give fewer violations. The exception is
the constraint on circles of aggregates. A type that is left out is no aggregate any more, the search
along fields goes on through it, and so there can be more edges between the aggregates that remain,
more cycles, and a search that is cut short where it was not before. But the aggregates that remain
reach each other as they did, and a circle among them was reported already, if not the same one.
-/

namespace RoleAudit

/-- The second settings are the first, relaxed. -/
structure Settings.Relaxes (s s' : Settings) : Prop where
  /-- No type that was left out comes back. -/
  excludePatterns : s.classification.excludePatterns ⊆ s'.classification.excludePatterns
  /-- The policy demands no role where it did not before. -/
  failOnUnclassified : s'.classification.policy.failOnUnclassified = true →
    s.classification.policy.failOnUnclassified = true
  /-- The policy refuses no contradiction where it did not before. -/
  failOnConflict : s'.classification.policy.failOnConflict = true →
    s.classification.policy.failOnConflict = true
  /-- No constraint is switched on. -/
  disabled : s.constraints.disabled ⊆ s'.constraints.disabled
  /-- The threshold does not sink. -/
  failOn : s.constraints.failOn ≤ s'.constraints.failOn
  /-- The same roles are given by hand. -/
  explicit : s'.classification.explicit = s.classification.explicit
  /-- Cycles are searched for as before. -/
  cycles : s'.cycles = s.cycles
  /-- Constraints weigh as much as before. -/
  severityOverrides : s'.constraints.severityOverrides = s.constraints.severityOverrides
  /-- The same packages are forbidden. -/
  forbiddenDomainPrefixes :
    s'.constraints.forbiddenDomainPrefixes = s.constraints.forbiddenDomainPrefixes

/-! ## Fewer results -/

theorem ExclusionMatcher.isExcluded_mono {regexes : RegexLibrary} {globs more : List String}
    (hsub : globs ⊆ more) {x y : ExclusionMatcher} (hx : ofGlobs regexes globs = .ok x)
    (hy : ofGlobs regexes more = .ok y) {name : String} (h : x.isExcluded name = true) :
    y.isExcluded name = true := by
  obtain ⟨glob, hglob, hmatch⟩ := (isExcluded_iff hx).1 h
  exact (isExcluded_iff hy).2 ⟨glob, hsub hglob, hmatch⟩

/-- A classifier that leaves out more types gives the same results for those that remain. -/
theorem Classifier.results_sublist {c c' : Classifier} (g : Graph)
    (hexclusions : ∀ name, c.exclusions.isExcluded name = true →
      c'.exclusions.isExcluded name = true)
    (hexplicit : c'.explicit = c.explicit) (hcustom : c'.custom = c.custom) :
    (c'.classify g).results.Sublist (c.classify g).results := by
  have hresult : c'.result (c'.criteria g) g = c.result (c.criteria g) g := by
    funext t
    rw [result, result, criteria, criteria, hexplicit, hcustom]
  have hkept : (g.types.filter (!c'.excludes ·)).Sublist (g.types.filter (!c.excludes ·)) := by
    refine List.monotone_filter_right g.types fun t ht => ?_
    rw [Bool.not_eq_true'] at ht ⊢
    by_contra hexcluded
    rw [Bool.not_eq_false] at hexcluded
    have hmore : c'.excludes t = true := hexclusions t.name hexcluded
    rw [ht] at hmore
    exact Bool.noConfusion hmore
  rw [classify, classify, hresult]
  exact hkept.map _

theorem ClassificationResult.fails_mono {policy policy' : ClassificationPolicy}
    (hunclassified : policy'.failOnUnclassified = true → policy.failOnUnclassified = true)
    (hconflict : policy'.failOnConflict = true → policy.failOnConflict = true)
    {r : ClassificationResult} (h : r.fails policy' = true) : r.fails policy = true := by
  unfold fails at h ⊢
  cases hstatus : r.status with
  | classified => simp [hstatus] at h
  | unclassified =>
    rw [hstatus] at h
    exact hunclassified h
  | conflict =>
    rw [hstatus] at h
    exact hconflict h
  | notAnalyzed => simp [hstatus] at h

namespace Constraint

variable {g : Graph} {k k' : Classification}

section Fewer

variable (hk : k'.results.Sublist k.results)

include hk

theorem portsOf_sublist (direction : Direction) :
    (portsOf g k' direction).Sublist (portsOf g k direction) :=
  (((hk.filter _).filter _).map _).filterMap _

theorem ofRole_ids_sublist (role : Role) :
    ((k'.ofRole role).map (·.nodeId)).Sublist ((k.ofRole role).map (·.nodeId)) :=
  (hk.filter _).map _

/-- A circle of the aggregates that remain was a circle before. -/
theorem hasCycle_of_sublist (h : g.Indexed) (hcycle : (g.aggregateReferences k').HasCycle) :
    (g.aggregateReferences k).HasCycle := by
  have hsub : Graph.aggregateIds k' ⊆ Graph.aggregateIds k := (ofRole_ids_sublist hk _).subset
  obtain ⟨a, b, hne, ha, hb, hab, hba⟩ := h.hasCycle_iff.1 hcycle
  exact h.hasCycle_iff.2 ⟨a, b, hne, hsub ha, hsub hb, hab, hba⟩

theorem covers_aggregateCycle (h : g.Indexed) (settings : CycleSettings) :
    Violation.Covers .critical ((aggregateCycle settings).findings g k)
      ((aggregateCycle settings).findings g k') where
  graded v hv := severity_of_mem_findings hv
  graded' v hv := severity_of_mem_findings hv
  nil hnil := by
    rw [findings_eq_nil_iff] at hnil ⊢
    exact fun hcycle => hnil (hasCycle_of_sublist hk h hcycle)
  own hown := by
    -- what may be reported at most is the same, so a circle is reported here if it is there
    rw [exists_critical_iff,
      (g.wellFormed_aggregateReferences _).findCycles_ne_nil_iff] at hown ⊢
    exact ⟨hown.1, hasCycle_of_sublist hk h hown.2⟩

/-- With fewer results a standard constraint finds nothing graver. -/
theorem covers_standard (h : g.Indexed) {settings : Settings} {anchors : Anchors} {c : Constraint}
    (hc : c ∈ standard settings anchors) :
    Violation.Covers c.severity (c.findings g k) (c.findings g k') := by
  have hfewer : ∀ {own : Severity} {vs vs' : List Violation}, (∀ v ∈ vs, v.severity = own) →
      vs'.Sublist vs → Violation.Covers own vs vs' := by
    intro own vs vs' hown hsub
    refine .of_own hown (fun v hv => hown v (hsub.subset hv)) ?_
    rintro rfl
    exact List.sublist_nil.1 hsub
  simp only [standard, List.mem_cons, List.not_mem_nil, or_false] at hc
  rcases hc with rfl | rfl | rfl | rfl | rfl | rfl | rfl | rfl
  · exact covers_aggregateCycle hk h settings.cycles
  · exact hfewer (fun v hv => severity_portDependency hv) ((portsOf_sublist hk _).filterMap _)
  · exact hfewer (fun v hv => severity_valueObjectImmutable hv)
      (((ofRole_ids_sublist hk _).filterMap _).filterMap _)
  · exact hfewer (fun v hv => severity_portDirection hv)
      (((portsOf_sublist hk _).filterMap _).append ((portsOf_sublist hk _).filterMap _))
  · exact hfewer (fun v hv => severity_portCoverage hv) (((portsOf_sublist hk _).filter _).map _)
  · exact hfewer (fun v hv => severity_domainPurity hv)
      ((((hk.filter _).map _).filterMap _).filterMap _)
  · -- layers and packages do not depend on the results
    exact hfewer (fun v hv => severity_layering hv) (List.Sublist.refl _)
  · exact hfewer (fun v hv => severity_packageCycles hv) (List.Sublist.refl _)

end Fewer

/-- A violation below a threshold is below a higher one. -/
theorem staysBelow_mono {s s' : ConstraintSettings} {c : Constraint} {severity : Severity}
    (hoverrides : s'.severityOverrides = s.severityOverrides) (hthreshold : s.failOn ≤ s'.failOn)
    (h : staysBelow s c s.failOn severity = true) : staysBelow s' c s'.failOn severity = true := by
  have hfor : s'.severityFor c.id c.severity = s.severityFor c.id c.severity := by
    rw [ConstraintSettings.severityFor, ConstraintSettings.severityFor, hoverrides]
  unfold staysBelow at h ⊢
  rw [hfor]
  have hlt := of_decide_eq_true h
  exact decide_eq_true (Nat.lt_of_lt_of_le hlt hthreshold)

/-- Constraints that find nothing graver stay below a threshold that is no lower. -/
theorem all_check_mono {cs : List Constraint} {s s' : ConstraintSettings}
    (hcovers : ∀ c ∈ cs, Violation.Covers c.severity (c.findings g k) (c.findings g k'))
    (hdisabled : s.disabled ⊆ s'.disabled)
    (hoverrides : s'.severityOverrides = s.severityOverrides) (hthreshold : s.failOn ≤ s'.failOn)
    (hpass : (check cs s g k).all (fun v => v.severity < s.failOn) = true) :
    (check cs s' g k').all (fun v => v.severity < s'.failOn) = true := by
  rw [all_check_iff] at hpass ⊢
  intro c hc henabled
  have hbefore : s.isEnabled c.id = true := by
    simp only [ConstraintSettings.isEnabled, Bool.not_eq_true', List.contains_eq_mem,
      decide_eq_false_iff_not] at henabled ⊢
    exact fun hin => henabled (hdisabled hin)
  have hall := (hcovers c hc).all (staysBelow s c s.failOn) staysBelow_own_of_info
    (hpass c hc hbefore)
  rw [List.all_eq_true] at hall ⊢
  intro v hv
  exact staysBelow_mono hoverrides hthreshold (hall v hv)

end Constraint

/-- A report on fewer results under relaxed settings passes if the report on all does. -/
theorem AuditReport.passed_of_relaxes {s s' : Settings} (h : s.Relaxes s') {g : Graph}
    (hg : g.Indexed) {k k' : Classification} (hk : k'.results.Sublist k.results)
    (hpassed : (ofClassification s g k).passed = true) :
    (ofClassification s' g k').passed = true := by
  have hboth : (k.policyFailures s.classification.policy).isEmpty = true ∧
      (Constraint.check (Constraint.standard s (Anchors.ofGraph g)) s.constraints g k).all
        (fun v => v.severity < s.constraints.failOn) = true := by
    rw [← Bool.and_eq_true]
    exact hpassed
  obtain ⟨hfailures, hviolations⟩ := hboth
  have hfailures' : (k'.policyFailures s'.classification.policy).isEmpty = true := by
    rw [List.isEmpty_iff, Classification.policyFailures, List.filter_eq_nil_iff] at hfailures ⊢
    intro r hr hfails
    exact hfailures r (hk.subset hr)
      (ClassificationResult.fails_mono h.failOnUnclassified h.failOnConflict hfails)
  have hstandard : Constraint.standard s' (Anchors.ofGraph g)
      = Constraint.standard s (Anchors.ofGraph g) := by
    rw [Constraint.standard, Constraint.standard, h.cycles, h.forbiddenDomainPrefixes]
  have hviolations' : (Constraint.check (Constraint.standard s' (Anchors.ofGraph g)) s'.constraints
      g k').all (fun v => v.severity < s'.constraints.failOn) = true := by
    rw [hstandard]
    exact Constraint.all_check_mono (fun c hc => Constraint.covers_standard hk hg hc) h.disabled
      h.severityOverrides h.failOn hviolations
  exact Bool.and_eq_true _ _ ▸ ⟨hfailures', hviolations'⟩

namespace Model

/-- An audit that passes still comes to a report, and passes, when types are left out, constraints are
switched off, the threshold is raised or demands of the policy are dropped, in any combination. The one thing
that can stop it is that a new pattern is refused as an expression, and its error says so. -/
theorem relaxed_audit_still_passes (m : Model) {regexes : RegexLibrary} {s s' : Settings}
    (hrelaxes : s.Relaxes s') {r : AuditReport} (hr : m.audit regexes s = .ok r)
    (hpassed : r.passed = true) :
    (∃ r', m.audit regexes s' = .ok r' ∧ r'.passed = true) ∨
      ∃ pattern ∈ s'.classification.excludePatterns, pattern ∉ s.classification.excludePatterns ∧
        ∃ fault, regexes.compile (Glob.regexText regexes.escape pattern) = .error fault ∧
          m.audit regexes s' = .error (.invalidPattern pattern fault) := by
  obtain ⟨g, c, hg, hc, rfl⟩ := audit_eq_ok_iff.1 hr
  obtain ⟨entries, x, hentries, hx, rfl⟩ := Classifier.ofSettings_eq_ok_iff.1 hc
  rw [← hrelaxes.explicit] at hentries
  cases hy : s'.classification.exclusionMatcher regexes with
  | error e =>
    obtain ⟨pattern, hpattern, he⟩ := ExclusionMatcher.exists_of_ofGlobs_eq_error hy
    have hnew : pattern ∉ s.classification.excludePatterns := by
      intro hold
      obtain ⟨test, htest⟩ := ExclusionMatcher.exists_ofGlobs_iff.1 ⟨x, hx⟩ pattern hold
      rw [he] at htest
      cases htest
    obtain ⟨fault, hfault, rfl⟩ := Glob.compile_eq_error_iff.1 he
    have hc' : Classifier.ofSettings regexes s'.classification [] = .error _ :=
      Error.bind_eq_error_iff.2 (.inr ⟨entries, hentries, Error.bind_eq_error_iff.2 (.inl hy)⟩)
    have hr' : m.audit regexes s' = .error _ :=
      Error.bind_eq_error_iff.2 (.inr ⟨g, hg, Error.bind_eq_error_iff.2 (.inl hc')⟩)
    exact .inr ⟨pattern, hpattern, hnew, fault, hfault, hr'⟩
  | ok y =>
    have hc' : Classifier.ofSettings regexes s'.classification [] = .ok _ :=
      Classifier.ofSettings_eq_ok_iff.2 ⟨entries, y, hentries, hy, rfl⟩
    refine .inl ⟨_, audit_eq_ok_iff.2 ⟨g, _, hg, hc', rfl⟩, ?_⟩
    refine AuditReport.passed_of_relaxes hrelaxes (builds_of_buildWith hg).indexed ?_ hpassed
    refine Classifier.results_sublist g (fun name => ?_) rfl rfl
    exact ExclusionMatcher.isExcluded_mono hrelaxes.excludePatterns hx hy

section Example

open Constraint

/-- Orders, lines and customers are aggregates. -/
def shopRoots : Dictionary String where
  entries := [("shop.Customer", "AGGREGATE_ROOT"), ("shop.Line", "AGGREGATE_ROOT"),
    ("shop.Order", "AGGREGATE_ROOT")]
  ascending := by decide

/-- Only blockers stop the audit of the shop. -/
def shopSettings : Settings where
  classification := { explicit := shopRoots }
  constraints := { failOn := .blocker }

/-- Lines are left out, so that orders refer to customers directly. -/
def relaxedShopSettings : Settings where
  classification :=
    { excludePatterns := ["*.Line"], explicit := shopRoots, policy := { failOnConflict := false } }
  constraints := { disabled := ["hexagonal:layering"], failOn := .blocker }

theorem shopSettings_relaxes : shopSettings.Relaxes relaxedShopSettings where
  excludePatterns := List.nil_subset _
  failOnUnclassified := id
  failOnConflict := fun _ => rfl
  disabled := List.nil_subset _
  failOn := Nat.le_refl _
  explicit := rfl
  cycles := rfl
  severityOverrides := rfl
  forbiddenDomainPrefixes := rfl

/-- No standard constraint is a blocker of its own. -/
theorem all_check_shopSettings (g : Graph) (k : Classification) (anchors : Anchors) :
    (check (standard shopSettings anchors) shopSettings.constraints g k).all
      (fun v => v.severity < shopSettings.constraints.failOn) = true := by
  rw [all_check_iff]
  intro c hc _
  have hbelow : staysBelow shopSettings.constraints c .blocker c.severity = true ∧
      staysBelow shopSettings.constraints c .blocker .info = true := by
    simp only [standard, List.mem_cons, List.not_mem_nil, or_false] at hc
    rcases hc with rfl | rfl | rfl | rfl | rfl | rfl | rfl | rfl <;> exact ⟨rfl, rfl⟩
  rw [List.all_eq_true]
  intro v hv
  rcases graded_standard hc hv with hown | hnote
  · rw [hown]
    exact hbelow.1
  · rw [hnote]
    exact hbelow.2

/-- With lines left out the shop still passes. -/
theorem shop_passes_without_lines :
    ∃ r r', shop.audit .standard shopSettings = .ok r ∧
      shop.audit .standard relaxedShopSettings = .ok r' ∧
      r.passed = true ∧ r'.passed = true := by
  have hok : (shop.audit .standard shopSettings).isOk = true := by
    rw [isOk_audit, (shop.isOk_buildWith_iff true).2 (by decide)]
    rfl
  obtain ⟨r, hr⟩ := Error.exists_of_isOk hok
  have hpassed : r.passed = true := by
    obtain ⟨g, c, hg, hc, rfl⟩ := audit_eq_ok_iff.1 hr
    have hroots : ∀ t ∈ shop.types, c.explicit.get? t.name = some .aggregateRoot := by
      obtain ⟨entries, x, hentries, -, rfl⟩ := Classifier.ofSettings_eq_ok_iff.1 hc
      obtain rfl : [("shop.Customer", Role.aggregateRoot), ("shop.Line", .aggregateRoot),
        ("shop.Order", .aggregateRoot)] = entries := Except.ok.inj hentries
      dsimp only
      decide
    have hfailures : ((c.classify g).policyFailures shopSettings.classification.policy).isEmpty
        = true := by
      rw [List.isEmpty_iff, Classification.policyFailures, List.filter_eq_nil_iff]
      intro result hresult hfails
      obtain ⟨n, hn, rfl⟩ := List.mem_map.1 hresult
      have hn := (List.mem_filter.1 hn).1
      rw [(builds_of_buildWith hg).types_eq] at hn
      obtain ⟨t, ht, rfl⟩ := List.mem_map.1 hn
      have hrole : c.explicit.get? t.toNode.name = some .aggregateRoot := hroots t ht
      rw [Classifier.result, hrole] at hfails
      exact Bool.noConfusion hfails
    exact Bool.and_eq_true _ _ ▸ ⟨hfailures, all_check_shopSettings _ _ _⟩
  rcases relaxed_audit_still_passes shop shopSettings_relaxes hr hpassed with
    ⟨r', hr', hpassed'⟩ | ⟨pattern, -, -, fault, hfault, -⟩
  · exact ⟨r, r', hr, hr', hpassed, hpassed'⟩
  · -- the standard library refuses no pattern
    rw [Glob.regexText_eq, RegexLibrary.compile_standard] at hfault
    cases hfault

end Example

end Model

end RoleAudit
