import RoleAudit.Proofs.Classification.Arbitration
import RoleAudit.Proofs.Classification.Results
import RoleAudit.Proofs.Model.SignatureUses
import RoleAudit.Regex.Standard

/-!
# Results that agree with themselves and with the graph

A result has many optional fields. This module says how they hang together, whatever criteria there
are and whichever of them fail: the fields on the match that decided are there exactly if the type
is classified, and the target is always there. Where the settings say nothing of a type, only
criteria of the families that apply to it are asked, and so its target agrees with its form and with
the signatures that mention it. The counts of a summary follow.
-/

namespace RoleAudit

/-- A type of the graph has signatures that mention a type. -/
def Graph.UsedInSignature (g : Graph) (used : TypeNode) : Prop :=
  ∃ user ∈ g.typeNodes, ∃ e ∈ g.edges,
    e.kind = .usesInSignature ∧ e.source = user.id ∧ e.target = used.id

namespace ClassificationResult

/-- The fields of a result agree with its status. -/
structure Consistent (r : ClassificationResult) : Prop where
  target : r.target.isSome = true
  classified_iff : r.status = .classified ↔
    r.role.isSome = true ∧ r.confidence.isSome = true ∧ r.priority.isSome = true ∧
      r.criterion.isSome = true ∧ r.justification.isSome = true
  of_classified : r.status = .classified →
    r.target = r.role.map Role.family ∧ r.direction = r.role.bind Role.direction?
  of_not_classified : r.status ≠ .classified →
    r.role = none ∧ r.confidence = none ∧ r.priority = none ∧ r.criterion = none ∧
      r.justification = none ∧ r.direction = none

theorem consistent_classified (id : NodeId) (winner : Contribution) (others : List Contribution) :
    (classified id winner others).Consistent where
  target := rfl
  classified_iff := iff_of_true rfl ⟨rfl, rfl, rfl, rfl, rfl⟩
  of_classified _ := ⟨rfl, rfl⟩
  of_not_classified hne := absurd rfl hne

/-- A result without the fields on a match that decided is that of a type without a role. -/
theorem consistent_of_open {r : ClassificationResult} (hstatus : r.status ≠ .classified)
    (htarget : r.target.isSome = true) (hrole : r.role = none) (hconfidence : r.confidence = none)
    (hpriority : r.priority = none) (hcriterion : r.criterion = none)
    (hjustification : r.justification = none) (hdirection : r.direction = none) : r.Consistent where
  target := htarget
  classified_iff := iff_of_false hstatus (by simp [hrole])
  of_classified h := absurd h hstatus
  of_not_classified _ :=
    ⟨hrole, hconfidence, hpriority, hcriterion, hjustification, hdirection⟩

theorem consistent_ofDecision (id : NodeId) (family : Family) (hasSignal : Bool) (d : Decision) :
    (ofDecision id family hasSignal d).Consistent := by
  cases d with
  | empty =>
    refine consistent_of_open ?_ rfl rfl rfl rfl rfl rfl rfl
    cases hasSignal <;> simp [ofDecision, unmatched]
  | winner winner others => exact consistent_classified id winner others
  | conflict tied others => exact consistent_of_open nofun rfl rfl rfl rfl rfl rfl rfl

/-- Remarks on criteria that failed change nothing else. -/
theorem Consistent.withDiagnostics {r : ClassificationResult} (h : r.Consistent)
    (diagnostics : List Evidence) : { r with diagnostics }.Consistent :=
  ⟨h.target, h.classified_iff, h.of_classified, h.of_not_classified⟩

/-- The target is the family of the type, or that of a contribution which then classifies it. -/
theorem target_ofDecision (id : NodeId) (family : Family) (hasSignal : Bool)
    (cs : List Contribution) :
    (ofDecision id family hasSignal (.decide cs)).target = some family ∨
      ∃ winner ∈ cs,
        (ofDecision id family hasSignal (.decide cs)).target = some winner.role.family ∧
        (ofDecision id family hasSignal (.decide cs)).status = .classified := by
  have hperm := Decision.contributions_decide_perm cs
  cases hdecide : Decision.decide cs with
  | empty => exact .inl rfl
  | conflict tied others => exact .inl rfl
  | winner winner others =>
    rw [hdecide] at hperm
    exact .inr ⟨winner, hperm.subset List.mem_cons_self, rfl, rfl⟩

/-- The target of a result agrees with the form of the type and with the signatures that mention
it. -/
structure Fits (g : Graph) (t : TypeNode) (r : ClassificationResult) : Prop where
  port_iff : r.target = some .port ↔ t.isInterface = true
  of_model : r.target = some .model → r.status = .classified ∧ g.UsedInSignature t

end ClassificationResult

/-- Only criteria of the given families contribute. -/
theorem Criterion.family_of_mem_contributions {criteria : List Criterion} {g : Graph}
    {families : List Family} {t : TypeNode} {x : Contribution}
    (h : x ∈ (evaluate criteria g families t).contributions) : x.role.family ∈ families := by
  obtain ⟨criterion, hasked, hx⟩ := List.mem_filterMap.1 h
  obtain ⟨m, -, rfl⟩ := Option.map_eq_some_iff.1 hx
  exact List.contains_iff_mem.1 (List.mem_filter.1 hasked).2

namespace Graph

variable {g : Graph}

theorem Indexed.usedInSignature_of_mem (h : g.Indexed) {user used : TypeNode}
    (huser : user ∈ g.interfacesUsing used.id) : g.UsedInSignature used := by
  obtain ⟨hid, htype⟩ := h.type?_of_mem_resolveTypes huser
  rw [h.signatureUsers, mem_distinct, sourcesOf, List.mem_map] at hid
  obtain ⟨e, he, hsource⟩ := hid
  obtain ⟨he, hends⟩ := List.mem_filter.1 he
  obtain ⟨hkind, htarget⟩ := of_decide_eq_true hends
  exact ⟨user, (h.type?_eq_some.1 htype).1, e, Array.mem_toList_iff.1 he, hkind, hsource, htarget⟩

/-- Roles of ports are for interfaces, and for nothing else. -/
theorem port_mem_familiesOf {t : TypeNode} : .port ∈ g.familiesOf t ↔ t.isInterface = true := by
  unfold familiesOf
  split
  · rename_i hinterface
    simp [hinterface]
  · rename_i hinner
    split <;> simp [hinner]

theorem Indexed.usedInSignature_of_model (h : g.Indexed) {t : TypeNode}
    (hmodel : .model ∈ g.familiesOf t) : g.UsedInSignature t := by
  unfold familiesOf at hmodel
  split at hmodel
  · simp at hmodel
  · split at hmodel
    · simp at hmodel
    · rename_i hused
      rw [List.isEmpty_iff] at hused
      obtain ⟨user, huser⟩ := List.exists_mem_of_ne_nil _ hused
      exact h.usedInSignature_of_mem huser

theorem primaryFamily_mem_familiesOf (t : TypeNode) : t.primaryFamily ∈ g.familiesOf t := by
  unfold familiesOf TypeNode.primaryFamily
  split
  · simp
  · split <;> simp

end Graph

/-- A method of an interface mentions a name somewhere in its signature. -/
def Model.MentionedInSignature (m : Model) (name : String) : Prop :=
  ∃ i ∈ m.types, i.form = .interface ∧ ∃ k ∈ i.methods, ∃ position, k.MentionsAt position name

theorem Model.Builds.mentionedInSignature {m : Model} {derived : Bool} {g : Graph}
    (h : m.Builds derived g) {t : TypeNode} (ht : t ∈ g.typeNodes) (hused : g.UsedInSignature t) :
    m.MentionedInSignature t.name := by
  rw [← h.indexed.types_eq, h.types_eq] at ht
  obtain ⟨v, -, rfl⟩ := List.mem_map.1 ht
  obtain ⟨-, -, e, he, hkind, -, htarget⟩ := hused
  rw [← Array.mem_toList_iff, h.edges] at he
  rcases List.mem_append.1 he with he | he
  · exact absurd hkind (kind_of_mem_bodyEdges he)
  · obtain ⟨⟨_, hi, hei⟩, -⟩ := of_mem_derived he
    obtain ⟨_, _, proof, ⟨i, hi, k, hk, u, -, hform, -, hmentions, rfl, rfl, -⟩, rfl⟩ :=
      mem_signatureEdges_iff.1 (List.mem_flatMap.2 ⟨_, hi, hei⟩)
    have hname : u.name = v.toNode.name := NodeId.ofType_injective htarget
    exact ⟨i, hi, hform, k, hk, proof.position, hname ▸ hmentions⟩

namespace Classifier

theorem consistent_result (c : Classifier) (criteria : List Criterion) (g : Graph) (t : TypeNode) :
    (c.result criteria g t).Consistent := by
  unfold result
  split
  · exact ClassificationResult.consistent_classified _ _ _
  · exact (ClassificationResult.consistent_ofDecision _ _ _ _).withDiagnostics _

/-- Where criteria are asked, the target is one of the families that apply; if it is not the family
of the type, a criterion of it has decided. -/
theorem target_judgedResult (criteria : List Criterion) (g : Graph) (t : TypeNode) :
    ∃ family ∈ g.familiesOf t, (judgedResult criteria g t).target = some family ∧
      (family = t.primaryFamily ∨ (judgedResult criteria g t).status = .classified) := by
  rcases ClassificationResult.target_ofDecision t.id t.primaryFamily (g.hasSignal t)
    (Criterion.evaluate criteria g (g.familiesOf t) t).contributions with
    htarget | ⟨winner, hwinner, htarget, hstatus⟩
  · exact ⟨_, Graph.primaryFamily_mem_familiesOf t, htarget, .inl rfl⟩
  · exact ⟨_, Criterion.family_of_mem_contributions hwinner, htarget, .inr hstatus⟩

theorem fits_judgedResult {g : Graph} (h : g.Indexed) (criteria : List Criterion) (t : TypeNode) :
    (judgedResult criteria g t).Fits g t := by
  obtain ⟨family, hfamily, htarget, hdecided⟩ := target_judgedResult criteria g t
  refine ⟨?_, ?_⟩
  · rw [htarget, Option.some.injEq]
    constructor
    · rintro rfl
      exact Graph.port_mem_familiesOf.1 hfamily
    · intro hinterface
      rw [Graph.familiesOf, if_pos hinterface] at hfamily
      exact List.mem_singleton.1 hfamily
  · -- no type has the family of data carriers by itself, so a criterion has decided
    intro hmodel
    obtain rfl : family = .model := Option.some.inj (htarget.symm.trans hmodel)
    refine ⟨hdecided.resolve_left ?_, h.usedInSignature_of_model hfamily⟩
    unfold TypeNode.primaryFamily
    split <;> exact nofun

end Classifier

/-! ## Counts -/

theorem sum_indicator_eq_count {β : Type} [DecidableEq β] (values : List β) (b : β) :
    (values.map fun v => if b = v then 1 else 0).sum = values.count b := by
  induction values with
  | nil => rfl
  | cons v rest ih =>
    rw [List.map_cons, List.sum_cons, ih, List.count_cons, Nat.add_comm]
    by_cases hv : b = v
    · simp [hv]
    · simp [hv, Ne.symm hv]

/-- Items that all have one of some values are as many as have each of the values together. -/
theorem length_eq_sum_countP {α β : Type} [DecidableEq β] (f : α → β) (values : List β)
    (hnodup : values.Nodup) {items : List α} (h : ∀ a ∈ items, f a ∈ values) :
    items.length = (values.map fun v => items.countP (f · = v)).sum := by
  induction items with
  | nil => simp
  | cons a rest ih =>
    have hrest := ih fun b hb => h b (List.mem_cons_of_mem a hb)
    have hone : (values.map fun v => if f a = v then 1 else 0).sum = 1 := by
      rw [sum_indicator_eq_count]
      exact List.count_eq_one_of_mem hnodup (h a List.mem_cons_self)
    simp only [List.countP_cons, List.sum_map_add, decide_eq_true_eq, hone, List.length_cons, hrest]

namespace Classification

variable (k : Classification)

theorem total_eq_statuses : k.summary.total = k.summary.classified + k.summary.unclassified
    + k.summary.conflicts + k.summary.notAnalyzed := by
  have hstatus : ∀ r ∈ k.results,
      r.status ∈ [Status.classified, .unclassified, .conflict, .notAnalyzed] := by
    intro r _
    cases r.status <;> simp
  have hlength := length_eq_sum_countP ClassificationResult.status _ (by decide) hstatus
  simpa [summary, Nat.add_assoc] using hlength

theorem total_eq_families (h : ∀ r ∈ k.results, r.target.isSome = true) :
    k.summary.total = k.summary.domain + k.summary.ports + k.summary.models := by
  have htarget : ∀ r ∈ k.results, r.target ∈ [some Family.domain, some .port, some .model] := by
    intro r hr
    obtain ⟨family, hfamily⟩ := Option.isSome_iff_exists.1 (h r hr)
    rw [hfamily]
    cases family <;> simp
  have hlength := length_eq_sum_countP ClassificationResult.target _ (by decide) htarget
  simpa [summary, Nat.add_assoc] using hlength

end Classification

/-- Take a graph whose look-ups are scans, as they are in every graph that insertions make. Whatever
the settings and the criteria are, a classifier gives one result for each type that the settings do
not leave out, in the order of the types. The fields of every result agree with its status; where
the settings give a type no role, its target agrees with the graph, and, if the graph is that of a
model, with the signatures of the interfaces there. The counts of the summary add up to the number
of results, by status and by family. -/
theorem Classifier.classify_consistent {g : Graph} (h : g.Indexed) {regexes : RegexLibrary}
    {s : ClassificationSettings} {custom : List Criterion} {c : Classifier}
    (hc : Classifier.ofSettings regexes s custom = .ok c) :
    s.exclusionMatcher regexes = .ok c.exclusions ∧
    List.Forall₂ (fun t r => r.nodeId = t.id ∧ r.Consistent ∧
        (s.explicit.get? t.name = none → r.Fits g t))
      (g.typeNodes.filter fun t => !c.exclusions.isExcluded t.name) (c.classify g).results ∧
    ((c.classify g).results.map (·.nodeId)).Nodup ∧
    (∀ (m : Model) (derived : Bool), m.buildWith derived = .ok g → ∀ t ∈ g.typeNodes,
      g.UsedInSignature t → m.MentionedInSignature t.name) ∧
    let summary := (c.classify g).summary
    summary.total = (c.classify g).results.length ∧
      summary.total = summary.classified + summary.unclassified + summary.conflicts
        + summary.notAnalyzed ∧
      summary.total = summary.domain + summary.ports + summary.models := by
  have hkept : g.typeNodes.filter (fun t => !c.exclusions.isExcluded t.name)
      = g.types.filter (!c.excludes ·) := by
    rw [h.types_eq]
    rfl
  refine ⟨exclusionMatcher_of_ofSettings hc, ?_, c.nodup_results h, ?_, rfl,
    (c.classify g).total_eq_statuses, ?_⟩
  · show List.Forall₂ _ _ (List.map _ _)
    rw [hkept, List.forall₂_map_right_iff, List.forall₂_same]
    intro t _
    refine ⟨c.nodeId_result _ t, c.consistent_result _ g t, fun hopen => ?_⟩
    rw [result, (explicit_eq_none_iff hc).2 hopen]
    exact fits_judgedResult h _ t
  · intro m derived hbuild t ht hused
    exact (Model.builds_of_buildWith hbuild).mentionedInSignature ht hused
  · refine (c.classify g).total_eq_families fun r hr => ?_
    obtain ⟨t, -, rfl⟩ := List.mem_map.1 hr
    exact (c.consistent_result _ g t).target

section Example

/-- What a clerk hands over. -/
def orderDto : SourceType := { name := "desk.OrderDto", form := .record }

/-- A desk where orders are looked up. -/
def orderDesk : SourceType where
  name := "desk.OrderDesk"
  form := .interface
  methods := [{ name := "find", returnType := .plain "desk.OrderDto" }]

/-- A clerk, whose role the settings give. -/
def clerk : SourceType := { name := "desk.Clerk", form := .plainClass }

/-- Notes, which the settings leave out. -/
def notes : SourceType := { name := "desk.draft.Notes", form := .plainClass }

/-- The desk. -/
def desk : Model := { types := [orderDto, orderDesk, clerk, notes] }

def deskGraph : Graph := desk.build.toOption.getD .empty

/-- The settings of the desk. -/
def deskSettings : ClassificationSettings where
  excludePatterns := ["desk.draft.*"]
  explicit := .ofList [("desk.Clerk", "entity")]

/-- A criterion that breaks down on every type. -/
def broken : Criterion where
  name := "broken"
  priority := 1
  role := .entity
  judge _ _ := .crashed none

/-- The classifier of these settings. -/
def deskClassifier : Classifier where
  exclusions := (deskSettings.exclusionMatcher .standard).toOption.getD {}
  explicit := .ofList [("desk.Clerk", .entity)]
  custom := [broken]

/-- At the desk there are results for three of the four types, although a criterion breaks down. The
first is a data carrier, and so its name is in the signature of an interface. -/
theorem desk_classified_consistently :
    Classifier.ofSettings .standard deskSettings [broken] = .ok deskClassifier ∧
    List.Forall₂ (fun t r => r.nodeId = t.id ∧ r.Consistent ∧
        (deskSettings.explicit.get? t.name = none → r.Fits deskGraph t))
      [orderDto.toNode, orderDesk.toNode, clerk.toNode]
      (deskClassifier.classify deskGraph).results ∧
    desk.MentionedInSignature orderDto.name ∧
    (deskClassifier.classify deskGraph).summary.total = 3 := by
  obtain ⟨g, hg⟩ := Error.exists_of_isOk ((desk.isOk_buildWith_iff true).2 (by decide))
  obtain rfl : deskGraph = g := by
    rw [deskGraph, Model.build, hg]
    rfl
  have hc : Classifier.ofSettings .standard deskSettings [broken] = .ok deskClassifier := rfl
  have hbuilds := Model.builds_of_buildWith hg
  obtain ⟨-, hresults, -, hmentioned, htotal, -⟩ := Classifier.classify_consistent hbuilds.indexed hc
  have hkept : deskGraph.typeNodes.filter (fun t => !deskClassifier.exclusions.isExcluded t.name)
      = [orderDto.toNode, orderDesk.toNode, clerk.toNode] := by
    rw [← hbuilds.indexed.types_eq, hbuilds.types_eq]
    decide +kernel
  have htargets : (deskClassifier.classify deskGraph).results.map (·.target)
      = [some .model, some .port, some .domain] := by decide +kernel
  rw [hkept] at hresults
  refine ⟨hc, hresults, ?_, htotal.trans hresults.length_eq.symm⟩
  obtain ⟨r, rest, ⟨-, -, hfits⟩, -, hcons⟩ := List.forall₂_cons_left_iff.1 hresults
  rw [hcons, List.map_cons] at htargets
  have hmodel : r.target = some .model := (List.cons.inj htargets).1
  have hnode : orderDto.toNode ∈ deskGraph.typeNodes := hbuilds.mem_typeNodes List.mem_cons_self
  exact hmentioned desk true hg _ hnode ((hfits (by decide)).of_model hmodel).2

end Example

end RoleAudit
