import RoleAudit.Constraint.Standard
import RoleAudit.Proofs.Constraint.AggregateCycle

/-!
# Violations and thresholds

Whether an audit passes depends on the severities of its violations alone. A standard constraint
reports violations of its own severity and, where a search for cycles was cut short, a note of the
lowest severity. Settings can give the first another severity and leave the second alone. So whether
all violations of a constraint stay below a threshold depends on two things: whether there is one of
the constraint's own severity, and whether there is any.
-/

namespace RoleAudit

/-- Two lists of violations of a severity and of notes: a threshold that stops the second stops the
first. -/
structure Violation.Covers (own : Severity) (vs vs' : List Violation) : Prop where
  /-- The first list has violations of the severity and notes only. -/
  graded : ∀ v ∈ vs, v.severity = own ∨ v.severity = .info
  /-- So has the second list. -/
  graded' : ∀ v ∈ vs', v.severity = own ∨ v.severity = .info
  /-- If the first is empty, so is the second. -/
  nil : vs = [] → vs' = []
  /-- If the second has a violation of the severity, so has the first. -/
  own : (∃ v ∈ vs', v.severity = own) → ∃ v ∈ vs, v.severity = own

namespace Violation

variable {own : Severity} {vs vs' : List Violation}

/-- Violations of one severity cover each other where one list is empty only if the other is. -/
theorem Covers.of_own (h : ∀ v ∈ vs, v.severity = own) (h' : ∀ v ∈ vs', v.severity = own)
    (hnil : vs = [] → vs' = []) : Covers own vs vs' where
  graded v hv := .inl (h v hv)
  graded' v hv := .inl (h' v hv)
  nil := hnil
  own := by
    rintro ⟨v, hv, -⟩
    have hne : vs ≠ [] := fun hempty => List.ne_nil_of_mem hv (hnil hempty)
    obtain ⟨w, hw⟩ := List.exists_mem_of_ne_nil vs hne
    exact ⟨w, hw, h w hw⟩

/-- A test that all severities fail if notes fail it is passed by the second list if by the first. -/
theorem Covers.all (h : Covers own vs vs') (test : Severity → Bool)
    (htest : test .info = false → test own = false) (hall : vs.all (test ·.severity) = true) :
    vs'.all (test ·.severity) = true := by
  rw [List.all_eq_true] at hall ⊢
  intro v hv
  rcases h.graded' v hv with hown | hnote
  · obtain ⟨w, hw, hwown⟩ := h.own ⟨v, hv, hown⟩
    have hpass := hall w hw
    rwa [hwown, ← hown] at hpass
  · -- some violation passed, and if notes failed it would have failed too
    have hne : vs ≠ [] := fun hempty => List.ne_nil_of_mem hv (h.nil hempty)
    obtain ⟨w, hw⟩ := List.exists_mem_of_ne_nil vs hne
    have hpass := hall w hw
    rw [hnote]
    by_contra hfail
    rw [Bool.not_eq_true] at hfail
    rcases h.graded w hw with hwown | hwnote
    · rw [hwown, htest hfail] at hpass
      exact Bool.noConfusion hpass
    · rw [hwnote, hfail] at hpass
      exact Bool.noConfusion hpass

end Violation

namespace Constraint

/-- Whether a violation of a constraint stays below a threshold, by the severity it is found with. -/
def staysBelow (s : ConstraintSettings) (c : Constraint) (threshold severity : Severity) : Bool :=
  (if severity = c.severity then s.severityFor c.id c.severity else severity) < threshold

theorem severity_adjusted (s : ConstraintSettings) (c : Constraint) (v : Violation) :
    (adjusted s c v).severity
      = if v.severity = c.severity then s.severityFor c.id c.severity else v.severity := by
  unfold adjusted
  split <;> rfl

theorem all_map_adjusted (s : ConstraintSettings) (c : Constraint) (threshold : Severity)
    (vs : List Violation) :
    (vs.map (adjusted s c)).all (fun v => v.severity < threshold)
      = vs.all (fun v => staysBelow s c threshold v.severity) := by
  simp only [List.all_map, Function.comp_def, severity_adjusted]
  rfl

/-- Nothing is below a threshold that a note reaches. -/
theorem staysBelow_own_of_info {s : ConstraintSettings} {c : Constraint} {threshold : Severity}
    (hinfo : staysBelow s c threshold .info = false) :
    staysBelow s c threshold c.severity = false := by
  by_cases hown : Severity.info = c.severity
  · rwa [← hown]
  · rw [staysBelow, if_neg hown, decide_eq_false_iff_not] at hinfo
    rw [staysBelow, if_pos rfl]
    refine decide_eq_false fun hlt => hinfo ?_
    have hlt : Severity.rank _ < threshold.rank := hlt
    show Severity.info.rank < threshold.rank
    rw [show Severity.info.rank = 0 from rfl]
    omega

/-- All violations of all enabled constraints stay below a threshold. -/
theorem all_check_iff {cs : List Constraint} {s : ConstraintSettings} {g : Graph}
    {k : Classification} {threshold : Severity} :
    (check cs s g k).all (fun v => v.severity < threshold) = true ↔
      ∀ c ∈ cs, s.isEnabled c.id = true →
        (c.findings g k).all (fun v => staysBelow s c threshold v.severity) = true := by
  simp only [check, List.all_flatMap, all_map_adjusted]
  rw [List.all_eq_true]
  constructor
  · intro h c hc henabled
    exact h c (List.mem_filter.2 ⟨hc, henabled⟩)
  · intro h c hc
    obtain ⟨hc, henabled⟩ := List.mem_filter.1 hc
    exact h c hc henabled

/-! ## Severities of the standard constraints -/

variable {g : Graph} {k : Classification}

theorem severity_portDependency {anchors : Anchors} {v : Violation}
    (hv : v ∈ (portDependency anchors).findings g k) : v.severity = .major := by
  obtain ⟨port, -, hport⟩ := List.mem_filterMap.1 hv
  split at hport
  · exact absurd hport (by simp)
  · rw [← Option.some.inj hport]

theorem severity_valueObjectImmutable {v : Violation}
    (hv : v ∈ valueObjectImmutable.findings g k) : v.severity = .major := by
  obtain ⟨t, -, ht⟩ := List.mem_filterMap.1 hv
  dsimp only at ht
  split at ht
  · exact absurd ht (by simp)
  · rw [← Option.some.inj ht]

theorem directionViolation?_eq_none {wording : String} {port : TypeNode} {cores : List TypeNode} :
    directionViolation? wording port cores = none ↔ cores = [] := by
  cases cores <;> simp [directionViolation?]

theorem severity_directionViolation? {wording : String} {port : TypeNode} {cores : List TypeNode}
    {v : Violation} (hv : directionViolation? wording port cores = some v) :
    v.severity = .major := by
  cases cores with
  | nil => exact absurd hv (by simp [directionViolation?])
  | cons t ts =>
    rw [← Option.some.inj hv]

theorem severity_portDirection {anchors : Anchors} {v : Violation}
    (hv : v ∈ (portDirection anchors).findings g k) : v.severity = .major := by
  rcases List.mem_append.1 hv with hv | hv <;> obtain ⟨port, -, hport⟩ := List.mem_filterMap.1 hv
  · exact severity_directionViolation? hport
  · exact severity_directionViolation? hport

theorem severity_portCoverage {v : Violation} (hv : v ∈ portCoverage.findings g k) :
    v.severity = .major := by
  obtain ⟨port, -, rfl⟩ := List.mem_map.1 hv
  rfl

theorem severity_domainPurity {packages : List String} {v : Violation}
    (hv : v ∈ (domainPurity packages).findings g k) : v.severity = .critical := by
  obtain ⟨t, -, ht⟩ := List.mem_filterMap.1 hv
  split at ht
  · exact absurd ht (by simp)
  · rw [← Option.some.inj ht]

theorem severity_layering {v : Violation} (hv : v ∈ layering.findings g k) :
    v.severity = .critical := by
  obtain ⟨t, -, ht⟩ := List.mem_filterMap.1 hv
  split at ht
  · exact absurd ht (by simp)
  · rw [← Option.some.inj ht]

theorem severity_packageCycles {settings : CycleSettings} {v : Violation}
    (hv : v ∈ (packageCycles settings).findings g k) : v.severity = .major := by
  obtain ⟨component, -, rfl⟩ := List.mem_map.1 hv
  rfl

/-- Every violation of a standard constraint has the severity of the constraint or is a note. -/
theorem graded_standard {settings : Settings} {anchors : Anchors} {c : Constraint}
    (hc : c ∈ standard settings anchors) {v : Violation} (hv : v ∈ c.findings g k) :
    v.severity = c.severity ∨ v.severity = .info := by
  simp only [standard, List.mem_cons, List.not_mem_nil, or_false] at hc
  rcases hc with rfl | rfl | rfl | rfl | rfl | rfl | rfl | rfl
  · exact severity_of_mem_findings hv
  · exact .inl (severity_portDependency hv)
  · exact .inl (severity_valueObjectImmutable hv)
  · exact .inl (severity_portDirection hv)
  · exact .inl (severity_portCoverage hv)
  · exact .inl (severity_domainPurity hv)
  · exact .inl (severity_layering hv)
  · exact .inl (severity_packageCycles hv)

end Constraint

end RoleAudit
