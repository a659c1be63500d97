import Mathlib
import RoleAudit.Classification.Result
import RoleAudit.Criterion.Basic
import RoleAudit.Criterion.Shape

/-!
# Results that differ in the order of names

The reasons of a match are words for the reader, and some of them list types by name. `Reworded` says
of two texts that they differ at most in the order of such a list, and of two matches, contributions,
decisions or results that they differ in their reasons alone, and in these at most so.

A decision looks at the roles, the priorities and the confidences of the contributions and never at
their reasons. So contributions that are reworded one by one come to a decision that is reworded, and
from there to a result with the same role.
-/

namespace RoleAudit

/-! ## Reasons -/

/-- The texts are the same but for the order of the types that one line of names lists. -/
def Text.Reworded (s s' : String) : Prop :=
  ∃ (before after : String) (ts ts' : List TypeNode), ts'.Perm ts ∧
    s = before ++ TypeNode.namesLine ts ++ after ∧ s' = before ++ TypeNode.namesLine ts' ++ after

namespace Text.Reworded

theorem refl (s : String) : Reworded s s :=
  ⟨s, "", [], [], .refl _, by simp [TypeNode.namesLine], by simp [TypeNode.namesLine]⟩

theorem names {ts ts' : List TypeNode} (h : ts'.Perm ts) :
    Reworded (TypeNode.namesLine ts) (TypeNode.namesLine ts') :=
  ⟨"", "", ts, ts', h, by simp, by simp⟩

theorem prepend {s s' : String} (h : Reworded s s') (t : String) : Reworded (t ++ s) (t ++ s') := by
  obtain ⟨before, after, ts, ts', hperm, rfl, rfl⟩ := h
  exact ⟨t ++ before, after, ts, ts', hperm, by simp only [String.append_assoc],
    by simp only [String.append_assoc]⟩

theorem append {s s' : String} (h : Reworded s s') (t : String) : Reworded (s ++ t) (s' ++ t) := by
  obtain ⟨before, after, ts, ts', hperm, rfl, rfl⟩ := h
  exact ⟨before, after ++ t, ts, ts', hperm, by simp only [String.append_assoc],
    by simp only [String.append_assoc]⟩

end Text.Reworded

/-- The evidence is the same but for the order of the types it names. -/
structure Evidence.Reworded (e e' : Evidence) : Prop where
  kind : e'.kind = e.kind
  description : Text.Reworded e.description e'.description
  relatedNodes : e'.relatedNodes.Perm e.relatedNodes

theorem Evidence.Reworded.refl (e : Evidence) : Reworded e e := ⟨rfl, .refl _, .refl _⟩

theorem Evidence.Reworded.refl_list (es : List Evidence) : List.Forall₂ Reworded es es :=
  List.forall₂_same.2 fun e _ => .refl e

theorem Evidence.Reworded.ofRelationship {s s' : String} (hs : Text.Reworded s s')
    {ts ts' : List TypeNode} (h : ts'.Perm ts) :
    Reworded (.ofRelationship s (ts.map (·.id))) (.ofRelationship s' (ts'.map (·.id))) :=
  ⟨rfl, hs, h.map _⟩

/-- The match is the same but for its reasons. -/
structure Match.Reworded (m m' : Match) : Prop where
  confidence : m'.confidence = m.confidence
  justification : Text.Reworded m.justification m'.justification
  evidence : List.Forall₂ Evidence.Reworded m.evidence m'.evidence

/-- The verdict is the same but for the reasons of a match. -/
inductive Verdict.Reworded : Verdict → Verdict → Prop where
  | same (v : Verdict) : Reworded v v
  | matched {m m' : Match} (h : m.Reworded m') : Reworded (.matched m) (.matched m')

theorem Verdict.Reworded.of_eq {v v' : Verdict} (h : v' = v) : Reworded v v' := h ▸ .same v'

theorem Verdict.Reworded.failure?_eq {v v' : Verdict} (h : v.Reworded v') :
    v'.failure? = v.failure? := by
  cases h <;> rfl

theorem Verdict.Reworded.match? {v v' : Verdict} (h : v.Reworded v') :
    Option.Rel Match.Reworded v.match? v'.match? := by
  cases h with
  | matched h => exact .some h
  | same v =>
    cases v with
    | matched m => exact .some ⟨rfl, .refl _, Evidence.Reworded.refl_list _⟩
    | silent => exact .none
    | failed => exact .none
    | crashed => exact .none

/-! ## Decisions -/

/-- The contribution is the same but for its reasons. -/
structure Contribution.Reworded (c c' : Contribution) : Prop where
  criterion : c'.criterion = c.criterion
  role : c'.role = c.role
  priority : c'.priority = c.priority
  confidence : c'.confidence = c.confidence
  justification : Text.Reworded c.justification c'.justification
  evidence : List.Forall₂ Evidence.Reworded c.evidence c'.evidence

/-- The decision is the same but for the reasons of the contributions. -/
inductive Decision.Reworded : Decision → Decision → Prop where
  | empty : Reworded .empty .empty
  | winner {w w' : Contribution} {others others' : List Contribution} (hw : w.Reworded w')
      (hothers : List.Forall₂ Contribution.Reworded others others') :
      Reworded (.winner w others) (.winner w' others')
  | conflict {tied tied' others others' : List Contribution}
      (htied : List.Forall₂ Contribution.Reworded tied tied')
      (hothers : List.Forall₂ Contribution.Reworded others others') :
      Reworded (.conflict tied others) (.conflict tied' others')

theorem Contribution.Reworded.rank {c c' : Contribution} (h : c.Reworded c') :
    c'.rank = c.rank := by
  rw [Contribution.rank, Contribution.rank, h.priority, h.confidence]

theorem Contribution.ranked_reworded {cs cs' : List Contribution}
    (h : List.Forall₂ Reworded cs cs') : List.Forall₂ Reworded (ranked cs) (ranked cs') := by
  -- both lists are sorted as one list of pairs, which either member of a pair ranks alike
  obtain ⟨hlength, hpairs⟩ := List.forall₂_iff_zip.1 h
  have hfirst : (cs.zip cs').map Prod.fst = cs := List.map_fst_zip hlength.le
  have hsecond : (cs.zip cs').map Prod.snd = cs' := List.map_snd_zip hlength.ge
  let sorted := (cs.zip cs').mergeSort fun p q => q.1.rank ≤ p.1.rank
  have hcs : ranked cs = sorted.map Prod.fst := by
    rw [← hfirst]
    exact (List.map_mergeSort (f := Prod.fst) fun _ _ _ _ => rfl).symm
  have hcs' : ranked cs' = sorted.map Prod.snd := by
    rw [← hsecond]
    refine (List.map_mergeSort (f := Prod.snd) fun p hp q hq => ?_).symm
    rw [(hpairs hp).rank, (hpairs hq).rank]
  rw [hcs, hcs', List.forall₂_map_left_iff, List.forall₂_map_right_iff]
  exact List.forall₂_same.2 fun p hp => hpairs (List.mem_mergeSort.1 hp)

/-- Where a test says the same of related items, the lists are cut at the same place. -/
theorem forall₂_takeWhile_dropWhile {α : Type} {R : α → α → Prop} {p p' : α → Bool}
    (hp : ∀ a a', R a a' → p' a' = p a) {l l' : List α} (h : List.Forall₂ R l l') :
    List.Forall₂ R (l.takeWhile p) (l'.takeWhile p') ∧
      List.Forall₂ R (l.dropWhile p) (l'.dropWhile p') := by
  induction h with
  | nil => exact ⟨.nil, .nil⟩
  | @cons a a' l l' ha hrest ih =>
    simp only [List.takeWhile_cons, List.dropWhile_cons, hp a a' ha]
    cases p a with
    | true => exact ⟨.cons ha ih.1, ih.2⟩
    | false => exact ⟨.nil, .cons ha hrest⟩

namespace Decision

theorem hasContradiction_reworded {cs cs' : List Contribution}
    (h : List.Forall₂ Contribution.Reworded cs cs') : hasContradiction cs' = hasContradiction cs := by
  induction h with
  | nil => rfl
  | @cons c c' rest rest' hc hrest ih =>
    have hany : rest'.any (fun d => !c'.role.isCompatibleWith d.role)
        = rest.any fun d => !c.role.isCompatibleWith d.role := by
      clear ih
      induction hrest with
      | nil => rfl
      | cons hd _ ih => rw [List.any_cons, List.any_cons, ih, hd.role, hc.role]
    rw [hasContradiction, hasContradiction, hany, ih]

theorem ofRanked_reworded {cs cs' : List Contribution}
    (h : List.Forall₂ Contribution.Reworded cs cs') : Reworded (ofRanked cs) (ofRanked cs') := by
  cases h with
  | nil => exact .empty
  | @cons top top' rest rest' htop hrest =>
    have hsame : ∀ c c' : Contribution, c.Reworded c' →
        (c'.rank = top'.rank : Bool) = (c.rank = top.rank : Bool) := by
      intro c c' hc
      rw [hc.rank, htop.rank]
    obtain ⟨htied, hothers⟩ := forall₂_takeWhile_dropWhile hsame (List.Forall₂.cons htop hrest)
    simp only [ofRanked, hasContradiction_reworded htied]
    split
    · exact .conflict htied hothers
    · exact .winner htop hrest

/-- Contributions that are reworded one by one come to a reworded decision. -/
theorem decide_reworded {cs cs' : List Contribution}
    (h : List.Forall₂ Contribution.Reworded cs cs') : Reworded (decide cs) (decide cs') :=
  ofRanked_reworded (Contribution.ranked_reworded h)

end Decision

/-! ## Results -/

/-- The entry is the same but for its reason. -/
structure Conflict.Reworded (c c' : Conflict) : Prop where
  role : c'.role = c.role
  criterion : c'.criterion = c.criterion
  priority : c'.priority = c.priority
  confidence : c'.confidence = c.confidence
  severity : c'.severity = c.severity
  justification : Text.Reworded c.justification c'.justification

/-- The result is the same but for its reasons: in all else that it says of the type, and in the
entries on matches that did not decide, one by one and in their order. -/
structure ClassificationResult.Reworded (r r' : ClassificationResult) : Prop where
  nodeId : r'.nodeId = r.nodeId
  status : r'.status = r.status
  target : r'.target = r.target
  role : r'.role = r.role
  confidence : r'.confidence = r.confidence
  priority : r'.priority = r.priority
  criterion : r'.criterion = r.criterion
  direction : r'.direction = r.direction
  diagnostics : r'.diagnostics = r.diagnostics
  justification : Option.Rel Text.Reworded r.justification r'.justification
  evidence : List.Forall₂ Evidence.Reworded r.evidence r'.evidence
  conflicts : List.Forall₂ Conflict.Reworded r.conflicts r'.conflicts

theorem Conflict.reworded_ofContribution {c c' : Contribution} (h : c.Reworded c')
    (severity : ConflictSeverity) :
    Reworded (ofContribution severity c) (ofContribution severity c') :=
  ⟨h.role, h.criterion, h.priority, h.confidence, rfl, h.justification⟩

namespace ClassificationResult

theorem reworded_proposalSummary {c c' : Contribution} (h : c.Reworded c') :
    Evidence.Reworded (proposalSummary c) (proposalSummary c') := by
  refine ⟨rfl, ?_, .refl _⟩
  simp only [proposalSummary, Evidence.ofDiagnostic, h.criterion, h.role, h.confidence, h.priority]
  exact h.justification.prepend _

theorem reworded_classified (id : NodeId) {w w' : Contribution} {others others' : List Contribution}
    (hw : w.Reworded w') (hothers : List.Forall₂ Contribution.Reworded others others') :
    Reworded (classified id w others) (classified id w' others') where
  nodeId := rfl
  status := rfl
  target := congrArg (fun role : Role => some role.family) hw.role
  role := congrArg some hw.role
  confidence := congrArg some hw.confidence
  priority := congrArg some hw.priority
  criterion := congrArg some hw.criterion
  direction := congrArg Role.direction? hw.role
  diagnostics := rfl
  justification := .some hw.justification
  evidence := hw.evidence
  conflicts := by
    refine List.rel_map (fun c c' hc => ?_) (List.rel_filter (fun c c' hc => ?_) hothers)
    · rw [hc.role, hw.role]
      exact Conflict.reworded_ofContribution hc _
    · simp only [hc.role, hw.role]

theorem reworded_contradicted (id : NodeId) (target : Family)
    {tied tied' others others' : List Contribution}
    (htied : List.Forall₂ Contribution.Reworded tied tied')
    (hothers : List.Forall₂ Contribution.Reworded others others') :
    Reworded (contradicted id target tied others) (contradicted id target tied' others') where
  nodeId := rfl
  status := rfl
  target := rfl
  role := rfl
  confidence := rfl
  priority := rfl
  criterion := rfl
  direction := rfl
  diagnostics := rfl
  justification := .none
  evidence := List.rel_flatMap htied fun _ _ hc => .cons (reworded_proposalSummary hc) hc.evidence
  conflicts := by
    refine List.rel_append (List.rel_map (fun c c' hc => ?_) htied)
      (List.rel_map (fun c c' hc => ?_) hothers)
    · exact Conflict.reworded_ofContribution hc .error
    · exact Conflict.reworded_ofContribution hc .warning

theorem Reworded.refl (r : ClassificationResult) : Reworded r r where
  nodeId := rfl
  status := rfl
  target := rfl
  role := rfl
  confidence := rfl
  priority := rfl
  criterion := rfl
  direction := rfl
  diagnostics := rfl
  justification := by
    cases r.justification with
    | none => exact .none
    | some text => exact .some (.refl text)
  evidence := Evidence.Reworded.refl_list r.evidence
  conflicts := List.forall₂_same.2 fun _ _ => ⟨rfl, rfl, rfl, rfl, rfl, .refl _⟩

/-- A reworded decision gives a reworded result. -/
theorem reworded_ofDecision (id : NodeId) (target : Family) (hasSignal : Bool) {d d' : Decision}
    (h : d.Reworded d') :
    Reworded (ofDecision id target hasSignal d) (ofDecision id target hasSignal d') := by
  cases h with
  | empty => exact .refl _
  | winner hw hothers => exact reworded_classified id hw hothers
  | conflict htied hothers => exact reworded_contradicted id target htied hothers

end ClassificationResult

/-! ## Criteria -/

namespace Criterion

/-- Two criteria say the same of every type, each in a graph of its own, but for their reasons. -/
structure Agrees (g g' : Graph) (c c' : Criterion) : Prop where
  /-- They have one name. -/
  name : c'.name = c.name
  /-- They count the same. -/
  priority : c'.priority = c.priority
  /-- They propose one role. -/
  role : c'.role = c.role
  /-- Their verdicts differ in their reasons alone. -/
  judge : ∀ t, (c.judge g t).Reworded (c'.judge g' t)

variable {g g' : Graph} {c c' : Criterion}

theorem Agrees.contribution? (h : Agrees g g' c c') (t : TypeNode) :
    Option.Rel Contribution.Reworded (c.contribution? g t) (c'.contribution? g' t) := by
  have hmatch := (h.judge t).match?
  rw [Criterion.contribution?, Criterion.contribution?]
  generalize (c.judge g t).match? = m, (c'.judge g' t).match? = m' at hmatch
  cases hmatch with
  | none => exact .none
  | some hm =>
    exact .some ⟨h.name, h.role, h.priority, hm.confidence, hm.justification, hm.evidence⟩

theorem Agrees.diagnostic?_eq (h : Agrees g g' c c') (t : TypeNode) :
    c'.diagnostic? g' t = c.diagnostic? g t := by
  rw [diagnostic?, diagnostic?, (h.judge t).failure?_eq, h.name]

/-- Criteria that agree one by one contribute the same but for the reasons. -/
theorem evaluate_of_agrees {criteria criteria' : List Criterion}
    (h : List.Forall₂ (Agrees g g') criteria criteria') (families : List Family) (t : TypeNode) :
    List.Forall₂ Contribution.Reworded (evaluate criteria g families t).contributions
        (evaluate criteria' g' families t).contributions ∧
      (evaluate criteria' g' families t).diagnostics
        = (evaluate criteria g families t).diagnostics := by
  have hasked : List.Forall₂ (Agrees g g')
      (criteria.filter fun c => families.contains c.role.family)
      (criteria'.filter fun c => families.contains c.role.family) := by
    refine List.rel_filter (fun c c' hc => ?_) h
    simp only [hc.role]
  refine ⟨List.rel_filterMap (fun c c' hc => hc.contribution? t) hasked, ?_⟩
  rw [evaluate, evaluate]
  generalize criteria.filter _ = asked, criteria'.filter _ = asked' at hasked
  induction hasked with
  | nil => rfl
  | cons hc _ ih =>
    simp only at ih ⊢
    rw [List.filterMap_cons, List.filterMap_cons, ih, hc.diagnostic?_eq]

end Criterion

/-! ## Outlines -/

/-- The entry without its reason. -/
def Conflict.outline (c : Conflict) : Conflict := { c with justification := "" }

namespace ClassificationResult

/-- The result without reasons. -/
def outline (r : ClassificationResult) : ClassificationResult :=
  { r with
    justification := r.justification.map fun _ => ""
    evidence := []
    conflicts := r.conflicts.map Conflict.outline }

/-- Results that differ in their reasons alone have one outline. -/
theorem Reworded.outline_eq {r r' : ClassificationResult} (h : r.Reworded r') :
    r'.outline = r.outline := by
  have hreason : r'.justification.map (fun _ => "") = r.justification.map fun _ => "" := by
    have hrel := h.justification
    generalize r.justification = reason, r'.justification = reason' at hrel
    cases hrel <;> rfl
  have hentries : r'.conflicts.map Conflict.outline = r.conflicts.map Conflict.outline := by
    have hrel := h.conflicts
    generalize r.conflicts = entries, r'.conflicts = entries' at hrel
    induction hrel with
    | nil => rfl
    | cons hc _ ih =>
      obtain ⟨hrole, hcriterion, hpriority, hconfidence, hseverity, -⟩ := hc
      rw [List.map_cons, List.map_cons, ih, Conflict.outline, Conflict.outline, hrole, hcriterion,
        hpriority, hconfidence, hseverity]
  rw [outline, outline, hreason, hentries, h.nodeId, h.status, h.target, h.role, h.confidence,
    h.priority, h.criterion, h.direction, h.diagnostics]

end ClassificationResult

end RoleAudit
