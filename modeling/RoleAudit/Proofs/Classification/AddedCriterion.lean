import RoleAudit.Proofs.Classification.Decided
import RoleAudit.Regex.Standard

/-!
# One criterion more

Criteria of a user come after the built-in ones, in the order in which they are given. What changes when
one more stands among them, at any place? Where it fails, a remark at its place and nothing else; where
it stays silent, nothing at all; and where it counts less than what decided a type, nothing of what was
decided, whatever it says.
-/

namespace RoleAudit

open Contribution

namespace Criterion

variable {c : Criterion} {criteria criteria' : List Criterion} {g : Graph} {families : List Family}
  {t : TypeNode}

/-- The remarks that criteria leave on a type, in their order. -/
def remarks (criteria : List Criterion) (g : Graph) (t : TypeNode) : List Evidence :=
  (evaluate criteria g (g.familiesOf t) t).diagnostics

theorem evaluate_append :
    evaluate (criteria ++ criteria') g families t
      = { contributions := (evaluate criteria g families t).contributions
            ++ (evaluate criteria' g families t).contributions
          diagnostics := (evaluate criteria g families t).diagnostics
            ++ (evaluate criteria' g families t).diagnostics } := by
  simp [evaluate]

theorem evaluate_cons_of_not_mem (h : c.role.family ∉ families) :
    evaluate (c :: criteria) g families t = evaluate criteria g families t := by
  simp [evaluate, h]

theorem evaluate_cons_of_silent (h : c.judge g t = .silent) :
    evaluate (c :: criteria) g families t = evaluate criteria g families t := by
  have hcontribution : c.contribution? g t = none := by rw [contribution?, h]; rfl
  have hdiagnostic : c.diagnostic? g t = none := by rw [diagnostic?, h]; rfl
  by_cases hfamily : c.role.family ∈ families
  · simp [evaluate, hfamily, hcontribution, hdiagnostic]
  · exact evaluate_cons_of_not_mem hfamily

/-- A criterion that fails contributes nothing and leaves one remark. -/
theorem evaluate_cons_of_failure (hfamily : c.role.family ∈ families) {message : String}
    (h : (c.judge g t).failure? = some message) :
    evaluate (c :: criteria) g families t
      = { evaluate criteria g families t with
          diagnostics := .ofDiagnostic ("Criterion '" ++ c.name ++ "' failed: " ++ message)
            :: (evaluate criteria g families t).diagnostics } := by
  have hcontribution : c.contribution? g t = none := by
    rw [contribution?]
    cases hjudge : c.judge g t with
    | matched m =>
      rw [hjudge] at h
      cases h
    | silent => rfl
    | failed causes => rfl
    | crashed cause => rfl
  have hdiagnostic : c.diagnostic? g t
      = some (.ofDiagnostic ("Criterion '" ++ c.name ++ "' failed: " ++ message)) := by
    rw [diagnostic?, h]
    rfl
  simp [evaluate, hfamily, hcontribution, hdiagnostic]

/-- A criterion contributes with its own priority. -/
theorem priority_of_mem_evaluate {x : Contribution}
    (hx : x ∈ (evaluate [c] g families t).contributions) : x.priority = c.priority := by
  obtain ⟨d, hd, hcontribution⟩ := List.mem_filterMap.1 hx
  obtain rfl : d = c := List.mem_singleton.1 (List.mem_filter.1 hd).1
  exact priority_of_contribution? hcontribution

end Criterion

namespace Contribution

variable {cs cs' between : List Contribution} {R : Nat ×ₗ Nat}

/-- Contributions of less priority leave the greatest standing and those that have it as they are. -/
theorem isTop_insert (hR : IsTop (cs ++ cs') R) (h : ∀ x ∈ between, x.priority < (ofLex R).1) :
    IsTop (cs ++ (between ++ cs')) R ∧
      ofStanding R (cs ++ (between ++ cs')) = ofStanding R (cs ++ cs') := by
  have hlt : ∀ x ∈ between, x.standing < R := by
    intro x hx
    rw [Prod.Lex.lt_iff]
    exact .inl (h x hx)
  refine ⟨⟨?_, ?_⟩, ?_⟩
  · obtain ⟨x, hx, hstanding⟩ := hR.1
    refine ⟨x, ?_, hstanding⟩
    rcases List.mem_append.1 hx with hx | hx <;> simp [hx]
  · rintro S ⟨x, hx, rfl⟩
    rcases List.mem_append.1 hx with hx | hx
    · exact hR.2 ⟨x, List.mem_append_left _ hx, rfl⟩
    · rcases List.mem_append.1 hx with hx | hx
      · exact (hlt x hx).le
      · exact hR.2 ⟨x, List.mem_append_right _ hx, rfl⟩
  · have hnone : ofStanding R between = [] :=
      List.filter_eq_nil_iff.2 fun x hx => by simpa using (hlt x hx).ne
    rw [ofStanding, ofStanding, List.filter_append, List.filter_append, List.filter_append,
      ← ofStanding, ← ofStanding, hnone, List.nil_append]

end Contribution

namespace Classifier

variable {regexes : RegexLibrary} {s : ClassificationSettings} {k : Classifier} {g : Graph}
  {t : TypeNode}

/-! ## The criteria before and behind -/

theorem ofSettings_custom {custom : List Criterion} (h : ofSettings regexes s custom = .ok k)
    (custom' : List Criterion) : ofSettings regexes s custom' = .ok { k with custom := custom' } := by
  obtain ⟨roles, exclusions, hroles, hexclusions, rfl⟩ := ofSettings_eq_ok_iff.1 h
  exact ofSettings_eq_ok_iff.2 ⟨roles, exclusions, hroles, hexclusions, rfl⟩

theorem criteria_append (k : Classifier) (before after : List Criterion) (g : Graph) :
    criteria { k with custom := before ++ after } g
      = criteria { k with custom := before } g ++ after :=
  (List.append_assoc ..).symm

theorem criteria_of_ofSettings {before after : List Criterion}
    (h : ofSettings regexes s (before ++ after) = .ok k) (g : Graph) :
    k.criteria g = criteria { k with custom := before } g ++ after := by
  rw [← criteria_append, ← custom_of_ofSettings h]

/-- A type that is not left out has the result that the classifier gives it. -/
theorem get?_of_kept (h : g.Indexed) (ht : t ∈ g.types) (hkept : k.excludes t = false) :
    (k.classify g).get? t.id = some (k.result (k.criteria g) g t) := by
  have htype : g.type? t.id = some t := h.type?_of_mem_types ht
  rw [k.get?_classify h, htype, Option.filter_some_pos (by simp [hkept]), Option.map_some]

section Insert

variable {criteria criteria' : List Criterion} {c : Criterion}

theorem judgedResult_insert_eq
    (h : Criterion.evaluate (c :: criteria') g (g.familiesOf t) t
      = Criterion.evaluate criteria' g (g.familiesOf t) t) :
    judgedResult (criteria ++ c :: criteria') g t = judgedResult (criteria ++ criteria') g t := by
  rw [judgedResult, judgedResult, Criterion.evaluate_append, Criterion.evaluate_append, h]

theorem diagnostics_judgedResult :
    (judgedResult (criteria ++ criteria') g t).diagnostics
      = Criterion.remarks criteria g t ++ Criterion.remarks criteria' g t := by
  rw [judgedResult, Criterion.evaluate_append]
  rfl

/-- Where the criterion fails, the result has a remark more at its place. -/
theorem judgedResult_insert_of_failure (hfamily : c.role.family ∈ g.familiesOf t) {message : String}
    (h : (c.judge g t).failure? = some message) :
    judgedResult (criteria ++ c :: criteria') g t
      = { judgedResult (criteria ++ criteria') g t with
          diagnostics := Criterion.remarks criteria g t
            ++ .ofDiagnostic ("Criterion '" ++ c.name ++ "' failed: " ++ message)
            :: Criterion.remarks criteria' g t } := by
  rw [judgedResult, judgedResult, Criterion.evaluate_append, Criterion.evaluate_append,
    Criterion.evaluate_cons_of_failure hfamily h]
  rfl

/-- Where the criterion counts less than what decided, it changes nothing of what was decided. -/
theorem decided_judgedResult_insert {p : Nat} (hc : c.priority < p)
    (hp : (judgedResult (criteria ++ criteria') g t).DecidedAt p) :
    (judgedResult (criteria ++ c :: criteria') g t).decided
      = (judgedResult (criteria ++ criteria') g t).decided := by
  have hdecision : (ClassificationResult.ofDecision t.id t.primaryFamily (g.hasSignal t) (.decide
      (Criterion.evaluate (criteria ++ criteria') g (g.familiesOf t) t).contributions)).DecidedAt p := hp
  obtain ⟨R, hR, rfl⟩ := ClassificationResult.exists_isTop_of_decidedAt hdecision
  rw [Criterion.evaluate_append] at hR
  have hbetween : ∀ x ∈ (Criterion.evaluate [c] g (g.familiesOf t) t).contributions,
      x.priority < (ofLex R).1 := by
    intro x hx
    rw [Criterion.priority_of_mem_evaluate hx]
    exact hc
  obtain ⟨hR', htied⟩ := isTop_insert hR hbetween
  have hsplit : criteria ++ c :: criteria' = criteria ++ ([c] ++ criteria') := rfl
  rw [judgedResult, judgedResult, hsplit, Criterion.evaluate_append, Criterion.evaluate_append,
    Criterion.evaluate_append]
  exact ClassificationResult.decided_eq_of_tied hR hR' htied

end Insert

/-- Failures are isolated. Take a graph whose look-ups are scans, as they are in every graph that
insertions make, settings, criteria after the built-in ones, and one criterion more at any place among
them. The results are then of the same types. On a type where the new criterion stays silent, the result
is the same. Where it fails, the result is the same too, except that a type without a role in the
settings to which its family applies has one remark more: it names the criterion and says why it
failed, behind the remarks on the criteria before it and in front of those on the criteria behind it. -/
theorem failing_criterion_is_isolated {g : Graph} (h : g.Indexed) {regexes : RegexLibrary}
    {s : ClassificationSettings} {before after : List Criterion} {k : Classifier}
    (hk : Classifier.ofSettings regexes s (before ++ after) = .ok k) (c : Criterion) :
    ∃ k', Classifier.ofSettings regexes s (before ++ c :: after) = .ok k' ∧
      (k'.classify g).results.map (·.nodeId) = (k.classify g).results.map (·.nodeId) ∧
      ∀ t ∈ g.types, k.excludes t = false →
        ∃ r r', (k.classify g).get? t.id = some r ∧ (k'.classify g).get? t.id = some r' ∧
          (c.judge g t = .silent → r' = r) ∧
          ∀ message, (c.judge g t).failure? = some message →
            if s.explicit.get? t.name = none ∧ c.role.family ∈ g.familiesOf t then
              let earlier := Criterion.remarks (criteria { k with custom := before } g) g t
              let later := Criterion.remarks after g t
              r.diagnostics = earlier ++ later ∧
                r' = { r with diagnostics := earlier
                  ++ .ofDiagnostic ("Criterion '" ++ c.name ++ "' failed: " ++ message) :: later }
            else r' = r := by
  have hcriteria := criteria_of_ofSettings hk g
  have hcriteria' : criteria { k with custom := before ++ c :: after } g
      = criteria { k with custom := before } g ++ c :: after := criteria_append k before _ g
  refine ⟨_, ofSettings_custom hk _, ?_, ?_⟩
  · rw [map_nodeId_results _ h, map_nodeId_results _ h]
    rfl
  · intro t ht hkept
    refine ⟨_, _, get?_of_kept h ht hkept,
      get?_of_kept (k := { k with custom := before ++ c :: after }) h ht hkept, ?_⟩
    rw [hcriteria, hcriteria', result, result]
    cases hset : k.explicit.get? t.name with
    | some role =>
      -- the settings give the type its role, and no criterion is asked
      have hexplicit : s.explicit.get? t.name ≠ none := by
        rw [Ne, ← explicit_eq_none_iff hk, hset]
        exact Option.some_ne_none role
      refine ⟨fun _ => rfl, fun message _ => ?_⟩
      rw [if_neg fun hasked => hexplicit hasked.1]
    | none =>
      have hexplicit : s.explicit.get? t.name = none := (explicit_eq_none_iff hk).1 hset
      refine ⟨fun hsilent => ?_, fun message hfailure => ?_⟩
      · exact judgedResult_insert_eq (Criterion.evaluate_cons_of_silent hsilent)
      · by_cases hfamily : c.role.family ∈ g.familiesOf t
        · rw [if_pos ⟨hexplicit, hfamily⟩]
          exact ⟨diagnostics_judgedResult, judgedResult_insert_of_failure hfamily hfailure⟩
        · rw [if_neg fun hasked => hfamily hasked.2]
          exact judgedResult_insert_eq (Criterion.evaluate_cons_of_not_mem hfamily)

section Example

/-- A crane with an identity. -/
def crane : SourceType where
  name := "yard.Crane"
  form := .plainClass
  fields := [.privateFinal "id" (.plain "long")]

/-- A yard with one crane. -/
def yard : Model := { types := [crane] }

def yardGraph : Graph := yard.build.toOption.getD .empty

/-- A criterion that says the same of every type. -/
def blanket (name : String) (priority : Nat) (role : Role) (verdict : Verdict) : Criterion where
  name := name
  priority := priority
  role := role
  judge _ _ := verdict

/-- A criterion that gives an error. -/
def lost : Criterion := blanket "lost" 90 .entity (.failed ["no answer", "no source"])

/-- A criterion that breaks down with a message. -/
def loud : Criterion := blanket "loud" 50 .valueObject (.crashed (some "boom"))

/-- A criterion that breaks down without a word. -/
def mute : Criterion := blanket "mute" 10 .entity (.crashed none)

/-- A criterion that is quite sure of something wrong. -/
def rumour : Criterion :=
  blanket "rumour" 59 .valueObject
    (.matched { confidence := .high, justification := "Heard so", evidence := [] })

/-- Between a criterion that gives an error and one that breaks down, a third that breaks down on the
crane leaves a remark between theirs. -/
theorem crane_gains_one_remark :
    ∃ k k' r r', Classifier.ofSettings .standard {} [lost, mute] = .ok k ∧
      Classifier.ofSettings .standard {} [lost, loud, mute] = .ok k' ∧
      (k.classify yardGraph).get? crane.id = some r ∧
      (k'.classify yardGraph).get? crane.id = some r' ∧
      r'.decided = r.decided ∧ r'.conflicts = r.conflicts ∧
      r'.diagnostics.map (·.description) =
        ["Criterion 'lost' failed: no answer: no source", "Criterion 'loud' failed: panicked: boom",
          "Criterion 'mute' failed: panicked: unknown panic payload"] := by
  have hbuilds : yard.Builds true yardGraph := Model.builds_build (by decide)
  have hk : Classifier.ofSettings .standard {} ([lost] ++ [mute])
      = .ok { unconfigured with custom := [lost, mute] } := rfl
  obtain ⟨k', hk', -, hresults⟩ := failing_criterion_is_isolated hbuilds.indexed hk loud
  obtain ⟨r, r', hr, hr', -, hfailure⟩ :=
    hresults crane.toNode (hbuilds.mem_types (by simp [yard])) rfl
  have hremark := hfailure "panicked: boom" rfl
  rw [if_pos ⟨rfl, by decide +kernel⟩] at hremark
  obtain ⟨-, rfl⟩ := hremark
  have hremarks : (Criterion.remarks
        (criteria { unconfigured with custom := [lost] } yardGraph) yardGraph crane.toNode
      ++ .ofDiagnostic "Criterion 'loud' failed: panicked: boom"
        :: Criterion.remarks [mute] yardGraph crane.toNode).map (·.description)
      = ["Criterion 'lost' failed: no answer: no source", "Criterion 'loud' failed: panicked: boom",
        "Criterion 'mute' failed: panicked: unknown panic payload"] := by decide +kernel
  exact ⟨_, k', r, _, hk, hk', hr, hr', rfl, rfl, hremarks⟩

end Example

/-- A higher priority dominates. If a type was decided with a priority, by a winner or in a conflict,
one more criterion of less priority changes nothing of what was decided: not the status, the target, the
role, the confidence, the priority, the criterion, the justification, the evidence or the direction. It
may stand at any place, propose any role and match with any confidence or fail. -/
theorem lower_priority_decides_nothing {g : Graph} (h : g.Indexed) {regexes : RegexLibrary}
    {s : ClassificationSettings} {before after : List Criterion} {k : Classifier}
    (hk : Classifier.ofSettings regexes s (before ++ after) = .ok k) {id : NodeId}
    {r : ClassificationResult} (hr : (k.classify g).get? id = some r) {p : Nat} (hp : r.DecidedAt p)
    {c : Criterion} (hc : c.priority < p) :
    ∃ k' r', Classifier.ofSettings regexes s (before ++ c :: after) = .ok k' ∧
      (k'.classify g).get? id = some r' ∧ r'.decided = r.decided := by
  rw [k.get?_classify h, Option.map_eq_some_iff] at hr
  obtain ⟨t, ht, rfl⟩ := hr
  refine ⟨{ k with custom := before ++ c :: after },
    result { k with custom := before ++ c :: after }
      (criteria { k with custom := before ++ c :: after } g) g t, ofSettings_custom hk _, ?_, ?_⟩
  · rw [get?_classify _ h]
    exact Option.map_eq_some_iff.2 ⟨t, ht, rfl⟩
  · rw [criteria_of_ofSettings hk, result] at hp ⊢
    rw [criteria_append, result]
    cases hset : k.explicit.get? t.name with
    | some role => rfl
    | none =>
      rw [hset] at hp
      exact decided_judgedResult_insert hc hp

/-- The crane is an entity by its identity field, which is a hint of low confidence. A criterion of less
priority is quite sure that it is a value object, and does not change that. -/
theorem crane_stays_entity :
    ∃ k' r', Classifier.ofSettings .standard {} [lost, rumour, mute] = .ok k' ∧
      (k'.classify yardGraph).get? crane.id = some r' ∧ r'.status = .classified ∧
      r'.role = some .entity ∧ r'.confidence = some .low ∧ r'.priority = some 60 := by
  have hbuilds : yard.Builds true yardGraph := Model.builds_build (by decide)
  have hk : Classifier.ofSettings .standard {} ([lost] ++ [mute])
      = .ok { unconfigured with custom := [lost, mute] } := rfl
  have hr := get?_of_kept (k := { unconfigured with custom := [lost, mute] }) hbuilds.indexed
    (hbuilds.mem_types (t := crane) (by simp [yard])) rfl
  obtain ⟨hstatus, hrole, hconfidence, hpriority⟩ :
      let k : Classifier := { unconfigured with custom := [lost, mute] }
      let r := k.result (k.criteria yardGraph) yardGraph crane.toNode
      r.status = .classified ∧ r.role = some .entity ∧ r.confidence = some .low ∧
        r.priority = some 60 := by decide +kernel
  obtain ⟨k', r', hk', hr', hdecided⟩ := lower_priority_decides_nothing hbuilds.indexed hk hr
    (.inl ⟨hstatus, hpriority⟩) (c := rumour) (by decide)
  refine ⟨k', r', hk', hr', ?_, ?_, ?_, ?_⟩
  · exact (congrArg ClassificationResult.status hdecided).trans hstatus
  · exact (congrArg ClassificationResult.role hdecided).trans hrole
  · exact (congrArg ClassificationResult.confidence hdecided).trans hconfidence
  · exact (congrArg ClassificationResult.priority hdecided).trans hpriority

end Classifier

end RoleAudit
