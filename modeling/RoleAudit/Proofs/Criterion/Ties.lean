import RoleAudit.Classification.Classifier
import RoleAudit.Proofs.Classification.Arbitration
import RoleAudit.Proofs.CoherentFacts

/-!
# Criteria that never tie

A type is put to the built-in criteria of its families. Two of them tie on a type if they match it with
one priority and one confidence. Most criteria of one priority exclude each other: by what the facts on
an interface can be, by the role that its name suggests, or by the ending of a name. Where they do, no
contradiction can come of them.
-/

namespace RoleAudit

/-- A text has two endings only if one of them ends in the other. -/
theorem Text.suffix_of_endsWith {a b text : String} (ha : endsWith a text = true)
    (hb : endsWith b text = true) : a.toList <:+ b.toList ∨ b.toList <:+ a.toList := by
  rw [endsWith_iff] at ha hb
  exact List.suffix_or_suffix_of_suffix ha hb

/-- There is a way in which the facts make an interface a driven port exactly if they make it one. -/
theorem Criterion.isSome_drivenShape? (f : PortFacts) : (drivenShape? f).isSome = f.isDriven := by
  rw [drivenShape?, PortFacts.isDriven]
  cases f.isDrivenCandidate <;> cases f.isDrivenExternally <;> cases f.isDrivenByInfrastructure <;> rfl

/-- An interface that drives the core is not driven by it. -/
theorem PortFacts.isDrivingCandidate_of_drivenShape? {f : PortFacts}
    (h : (Criterion.drivenShape? f).isSome = true) : f.isDrivingCandidate = false := by
  rw [Criterion.isSome_drivenShape?] at h
  refine Bool.eq_false_iff.2 fun hdriving => ?_
  rw [isDriven_eq_false_of_isDrivingCandidate hdriving] at h
  exact nomatch h

namespace Contribution

variable {cs : List Contribution} {R : Nat ×ₗ Nat}

/-- It takes two to contradict. -/
theorem two_le_of_contradictory (h : Contradictory cs) : 2 ≤ cs.length := by
  obtain ⟨a, ha, b, hb, hab⟩ := h
  match cs, ha, hb with
  | [], ha, _ => exact absurd ha List.not_mem_nil
  | [c], ha, hb =>
    rw [List.mem_singleton] at ha hb
    rw [ha, hb, Role.isCompatibleWith_self] at hab
    exact absurd hab (by simp)
  | _ :: _ :: _, _, _ => simp

/-- Those of one standing have one priority. -/
theorem ofStanding_eq_filter_priority (R : Nat ×ₗ Nat) (cs : List Contribution) :
    ofStanding R cs = ofStanding R (cs.filter (·.priority = (ofLex R).1)) := by
  rw [ofStanding, ofStanding, List.filter_filter]
  refine List.filter_congr fun c _ => ?_
  by_cases hc : c.standing = R
  · subst hc
    simp [standing]
  · simp [hc]

end Contribution

namespace Criterion

open Contribution

variable {g : Graph} {t : TypeNode}

/-- The criterion matches the type. -/
def Matches (g : Graph) (t : TypeNode) (c : Criterion) : Prop := ∃ m, c.judge g t = .matched m

/-- The criteria do not match the type with one standing. -/
def Apart (g : Graph) (t : TypeNode) (c d : Criterion) : Prop :=
  ∀ x y, c.contribution? g t = some x → d.contribution? g t = some y → x.standing ≠ y.standing

theorem contribution?_eq_some {c : Criterion} {x : Contribution} :
    c.contribution? g t = some x ↔ ∃ m, c.judge g t = .matched m ∧ x = c.contribution m := by
  rw [contribution?, Option.map_eq_some_iff]
  cases c.judge g t <;> simp [Verdict.match?, eq_comm]

theorem priority_of_contribution? {c : Criterion} {x : Contribution}
    (h : c.contribution? g t = some x) : x.priority = c.priority := by
  obtain ⟨m, -, rfl⟩ := contribution?_eq_some.1 h
  rfl

theorem criterion_of_contribution? {c : Criterion} {x : Contribution}
    (h : c.contribution? g t = some x) : x.criterion = c.name := by
  obtain ⟨m, -, rfl⟩ := contribution?_eq_some.1 h
  rfl

/-! ## Ways to be apart -/

/-- Criteria that do not both match are apart. -/
theorem apart_of_not_both {c d : Criterion} (h : c.Matches g t → ¬ d.Matches g t) :
    Apart g t c d := by
  intro x y hx hy
  obtain ⟨m, hm, -⟩ := contribution?_eq_some.1 hx
  obtain ⟨n, hn, -⟩ := contribution?_eq_some.1 hy
  exact absurd ⟨n, hn⟩ (h ⟨m, hm⟩)

/-- Criteria that are told by endings of names are apart if no ending of one ends in an ending of the
other. -/
theorem apart_of_endings {c d : Criterion} {as bs : List String}
    (hc : c.Matches g t → ∃ a ∈ as, Text.endsWith a t.simpleName = true)
    (hd : d.Matches g t → ∃ b ∈ bs, Text.endsWith b t.simpleName = true)
    (h : ∀ a ∈ as, ∀ b ∈ bs, ¬ a.toList <:+ b.toList ∧ ¬ b.toList <:+ a.toList) :
    Apart g t c d := by
  refine apart_of_not_both fun hcm hdm => ?_
  obtain ⟨a, ha, haname⟩ := hc hcm
  obtain ⟨b, hb, hbname⟩ := hd hdm
  have hne := h a ha b hb
  rcases Text.suffix_of_endsWith haname hbname with hab | hba
  · exact hne.1 hab
  · exact hne.2 hba

/-- Criteria that match with different confidences are apart. -/
theorem apart_of_confidence {c d : Criterion} {k l : Confidence}
    (hc : ∀ m, c.judge g t = .matched m → m.confidence = k)
    (hd : ∀ m, d.judge g t = .matched m → m.confidence = l) (hkl : k.strength ≠ l.strength) :
    Apart g t c d := by
  intro x y hx hy hxy
  obtain ⟨m, hm, rfl⟩ := contribution?_eq_some.1 hx
  obtain ⟨n, hn, rfl⟩ := contribution?_eq_some.1 hy
  have hstrength : m.confidence.strength = n.confidence.strength :=
    (Prod.ext_iff.1 (toLex.injective hxy)).2
  rw [hc m hm, hd n hn] at hstrength
  exact hkl hstrength

/-! ## Criteria that are apart do not contradict each other -/

/-- Of criteria that are apart at most one gives a contribution of a standing. -/
theorem length_ofStanding_le_one {criteria : List Criterion} (h : criteria.Pairwise (Apart g t))
    (R : Nat ×ₗ Nat) : (ofStanding R (criteria.filterMap (·.contribution? g t))).length ≤ 1 := by
  have hdistinct : (criteria.filterMap (·.contribution? g t)).Pairwise
      fun x y => x.standing ≠ y.standing := by
    refine List.pairwise_filterMap.2 (h.imp fun {c d} hcd => ?_)
    intro x hx y hy
    exact hcd x y hx hy
  have htied : (ofStanding R (criteria.filterMap (·.contribution? g t))).Pairwise
      fun x y => x.standing ≠ y.standing := hdistinct.filter _
  have hstanding : ∀ x ∈ ofStanding R (criteria.filterMap (·.contribution? g t)), x.standing = R :=
    fun x hx => (mem_ofStanding.1 hx).2
  generalize ofStanding R (criteria.filterMap (·.contribution? g t)) = tied at htied hstanding
  match tied with
  | [] => simp
  | [_] => simp
  | x :: y :: rest =>
    have hxy := (List.pairwise_cons.1 htied).1 y List.mem_cons_self
    exact absurd ((hstanding x (by simp)).trans (hstanding y (by simp)).symm) hxy

/-- The contributions of one priority are those of its criteria. -/
theorem filter_priority_filterMap (criteria : List Criterion) (p : Nat) :
    (criteria.filterMap (·.contribution? g t)).filter (·.priority = p)
      = (criteria.filter (·.priority = p)).filterMap (·.contribution? g t) := by
  rw [List.filter_filterMap, List.filterMap_filter]
  refine List.filterMap_congr fun c _ => ?_
  cases hc : c.contribution? g t with
  | none => simp
  | some x => simp [Option.filter, priority_of_contribution? hc]

/-- What is contributed with a standing comes from the criteria of its priority. -/
theorem ofStanding_filterMap (criteria : List Criterion) (R : Nat ×ₗ Nat) :
    ofStanding R (criteria.filterMap (·.contribution? g t))
      = ofStanding R ((criteria.filter (·.priority = (ofLex R).1)).filterMap
          (·.contribution? g t)) := by
  rw [ofStanding_eq_filter_priority, filter_priority_filterMap]

/-- The priority of a contradiction is one of some criterion, but of none whose criteria are apart. -/
theorem priority_of_contradictory {criteria : List Criterion} {apart : List Nat} {R : Nat ×ₗ Nat}
    (h : ∀ p ∈ apart, (criteria.filter (·.priority = p)).Pairwise (Apart g t))
    (hcontra : Contradictory (ofStanding R (criteria.filterMap (·.contribution? g t)))) :
    (ofLex R).1 ∈ (criteria.map (·.priority)).filter (· ∉ apart) := by
  rw [List.mem_filter]
  constructor
  · obtain ⟨x, hx, -⟩ := hcontra
    obtain ⟨hmem, rfl⟩ := mem_ofStanding.1 hx
    obtain ⟨c, hc, hcx⟩ := List.mem_filterMap.1 hmem
    rw [List.mem_map]
    exact ⟨c, hc, (priority_of_contribution? hcx).symm⟩
  · rw [decide_eq_true_eq]
    intro hp
    have hle := length_ofStanding_le_one (h _ hp) R
    rw [← ofStanding_filterMap] at hle
    have htwo := two_le_of_contradictory hcontra
    omega

/-! ## What a match says -/

theorem of_matches_semanticDriving {facts : PortFactsIndex}
    (h : (semanticDriving facts).Matches g t) :
    ∃ f, facts.get? t.id = some f ∧ f.isDrivingCandidate = true := by
  obtain ⟨m, hm⟩ := h
  simp only [semanticDriving] at hm
  split at hm
  · rename_i f hf
    split at hm
    · rename_i hcandidate
      exact ⟨f, hf, hcandidate⟩
    · exact nomatch hm
  · exact nomatch hm

theorem of_matches_semanticDriven {facts : PortFactsIndex} {role : Role}
    (h : (semanticDriven facts role).Matches g t) :
    drivenRoleOfName t.simpleName = role ∧
      ∃ f, facts.get? t.id = some f ∧ (drivenShape? f).isSome = true := by
  obtain ⟨m, hm⟩ := h
  unfold semanticDriven at hm
  dsimp only at hm
  split at hm
  · rename_i shape hshape
    obtain ⟨f, hf, hfshape⟩ := Option.bind_eq_some_iff.1 hshape
    split at hm
    · rename_i hrole
      exact ⟨hrole, f, hf, by rw [hfshape]; rfl⟩
    · exact nomatch hm
  · exact nomatch hm

theorem of_matches_namingPort {ending : String} {role : Role}
    (h : (namingPort ending role).Matches g t) :
    ∃ e ∈ [ending], Text.endsWith e t.simpleName = true := by
  obtain ⟨m, hm⟩ := h
  simp only [namingPort] at hm
  split at hm
  · rename_i hname
    exact ⟨ending, List.mem_singleton_self _, (Bool.and_eq_true_iff.1 hname).2⟩
  · exact nomatch hm

theorem of_matches_recordSingleId (h : recordSingleId.Matches g t) :
    ∃ e ∈ ["Id"], Text.endsWith e t.simpleName = true := by
  obtain ⟨m, hm⟩ := h
  simp only [recordSingleId] at hm
  split at hm
  · rename_i hname _
    exact ⟨"Id", List.mem_singleton_self _, (Bool.and_eq_true_iff.1 hname).2⟩
  · exact nomatch hm

theorem of_matches_namingDomainEvent (h : namingDomainEvent.Matches g t) :
    ∃ e ∈ ["Event"], Text.endsWith e t.simpleName = true := by
  obtain ⟨m, hm⟩ := h
  simp only [namingDomainEvent] at hm
  split at hm
  · rename_i hname
    have hboth := (Bool.and_eq_true_iff.1 hname).1
    exact ⟨"Event", List.mem_singleton_self _, (Bool.and_eq_true_iff.1 hboth).2⟩
  · exact nomatch hm

theorem confidence_namingDomainEvent (m : Match) (hm : namingDomainEvent.judge g t = .matched m) :
    m.confidence = .medium := by
  simp only [namingDomainEvent] at hm
  split at hm
  · cases hm
    rfl
  · exact nomatch hm

theorem confidence_identityEntity (m : Match) (hm : identityEntity.judge g t = .matched m) :
    m.confidence = .low := by
  simp only [identityEntity] at hm
  split at hm
  · cases hm
    rfl
  · exact nomatch hm

section NamingData

variable {name : String} {endings : List String} {role : Role} {priority : Nat}
  {confidence : Confidence}

theorem of_matches_namingData
    (h : (namingData name endings role priority confidence).Matches g t) :
    ∃ e ∈ endings, Text.endsWith e t.simpleName = true := by
  obtain ⟨m, hm⟩ := h
  simp only [namingData] at hm
  split at hm
  · rename_i ending _ hending
    have hname := List.find?_some (p := fun e => Text.endsWith e t.simpleName) hending
    exact ⟨ending, List.mem_of_find?_eq_some hending, hname⟩
  · exact nomatch hm

theorem confidence_namingData (m : Match)
    (hm : (namingData name endings role priority confidence).judge g t = .matched m) :
    m.confidence = confidence := by
  simp only [namingData] at hm
  split at hm
  · cases hm
    rfl
  · exact nomatch hm

end NamingData

/-! ## The criteria of ports, by priority -/

/-- At most one of the criteria on the facts matches: the facts give one direction, and the name one
driven role. -/
theorem semantic_apart (facts : PortFactsIndex) (anchors : Anchors) :
    ((portCriteria facts anchors).filter (·.priority = Priority.semantic)).Pairwise (Apart g t) := by
  have hgroup : (portCriteria facts anchors).filter (·.priority = Priority.semantic)
      = semanticDriving facts :: drivenRoles.map (semanticDriven facts) := rfl
  rw [hgroup, List.pairwise_cons]
  constructor
  · intro d hd
    obtain ⟨role, -, rfl⟩ := List.mem_map.1 hd
    refine apart_of_not_both fun hdriving hdriven => ?_
    obtain ⟨f, hf, hcandidate⟩ := of_matches_semanticDriving hdriving
    obtain ⟨-, f', hf', hshape⟩ := of_matches_semanticDriven hdriven
    obtain rfl : f = f' := Option.some.inj (hf.symm.trans hf')
    rw [PortFacts.isDrivingCandidate_of_drivenShape? hshape] at hcandidate
    exact absurd hcandidate (by simp)
  · have hdistinct : drivenRoles.Pairwise (· ≠ ·) := by decide
    refine List.pairwise_map.2 (hdistinct.imp fun {a b} hab => ?_)
    refine apart_of_not_both fun ha hb => ?_
    exact hab ((of_matches_semanticDriven ha).1.symm.trans (of_matches_semanticDriven hb).1)

/-- At most one of the criteria on the name of a port matches. -/
theorem namingPort_apart (facts : PortFactsIndex) (anchors : Anchors) :
    ((portCriteria facts anchors).filter (·.priority = Priority.strong)).Pairwise (Apart g t) := by
  have hgroup : (portCriteria facts anchors).filter (·.priority = Priority.strong)
      = portEndings.map (fun entry => namingPort entry.1 entry.2) := rfl
  have hendings : portEndings.Pairwise fun a b =>
      ∀ e ∈ [a.1], ∀ e' ∈ [b.1], ¬ e.toList <:+ e'.toList ∧ ¬ e'.toList <:+ e.toList := by decide
  rw [hgroup]
  refine List.pairwise_map.2 (hendings.imp fun {a b} hab => ?_)
  exact apart_of_endings of_matches_namingPort of_matches_namingPort hab

theorem port_apart (facts : PortFactsIndex) (anchors : Anchors) :
    ∀ p ∈ [Priority.semantic, Priority.strong, Priority.graph],
      ((portCriteria facts anchors).filter (·.priority = p)).Pairwise (Apart g t) := by
  have hgraph : (portCriteria facts anchors).filter (·.priority = Priority.graph)
      = [signatureBasedDriven] := rfl
  simp only [List.forall_mem_cons, List.not_mem_nil, false_implies, implies_true, and_true]
  refine ⟨semantic_apart facts anchors, namingPort_apart facts anchors, ?_⟩
  rw [hgraph]
  exact List.pairwise_singleton _ _

/-! ## The criteria of other types, by priority -/

/-- All criteria that a type that is no interface can be put to. -/
def inner : List Criterion := domainCriteria ++ dataCriteria

/-- The criteria beside the one on repositories that count as much. -/
def besideRepository : List Criterion :=
  [recordSingleId,
    namingData "naming-command-model" ["Command"] .commandModel Priority.strong .high,
    namingData "naming-query-model" ["Query"] .queryModel Priority.strong .high]

theorem inner_strong :
    inner.filter (·.priority = Priority.strong) = repositoryDominant :: besideRepository := rfl

/-- No name has two of the endings. -/
theorem besideRepository_apart : besideRepository.Pairwise (Apart g t) := by
  simp only [besideRepository, List.pairwise_cons, List.forall_mem_cons, List.not_mem_nil,
    false_implies, implies_true, and_true, List.Pairwise.nil]
  refine ⟨⟨?_, ?_⟩, ?_⟩
  · exact apart_of_endings of_matches_recordSingleId of_matches_namingData (by decide)
  · exact apart_of_endings of_matches_recordSingleId of_matches_namingData (by decide)
  · exact apart_of_endings of_matches_namingData of_matches_namingData (by decide)

/-- Events and data carriers have other names, and the identity field gives less confidence. -/
theorem inner_apart :
    ∀ p ∈ [Priority.graph, Priority.weak], (inner.filter (·.priority = p)).Pairwise (Apart g t) := by
  have hgraph : inner.filter (·.priority = Priority.graph) = [embeddedValueObject] := rfl
  have hweak : inner.filter (·.priority = Priority.weak)
      = [namingDomainEvent, identityEntity,
        namingData "naming-dto" ["Request", "Response", "Dto", "DTO", "View"] .dto Priority.weak
          .medium] := rfl
  simp only [List.forall_mem_cons, List.not_mem_nil, false_implies, implies_true, and_true]
  rw [hgraph, hweak]
  refine ⟨List.pairwise_singleton _ _, ?_⟩
  simp only [List.pairwise_cons, List.forall_mem_cons, List.not_mem_nil, false_implies,
    implies_true, and_true, List.Pairwise.nil]
  refine ⟨⟨?_, ?_⟩, ?_⟩
  · exact apart_of_confidence confidence_namingDomainEvent confidence_identityEntity (by decide)
  · exact apart_of_endings of_matches_namingDomainEvent of_matches_namingData (by decide)
  · exact apart_of_confidence confidence_identityEntity confidence_namingData (by decide)

/-- Two that tie with the priority of telling names are the one on repositories and one beside it. -/
theorem criteria_of_strong_tie {tied : List Contribution} {R : Nat ×ₗ Nat}
    (hsub : tied.Sublist (ofStanding R
      ((repositoryDominant :: besideRepository).filterMap (·.contribution? g t))))
    (htwo : 2 ≤ tied.length) :
    ∃ other ∈ besideRepository.map (·.name),
      tied.map (·.criterion) = ["repository-dominant", other] := by
  have hbeside := length_ofStanding_le_one (g := g) (t := t) besideRepository_apart R
  have hlength := hsub.length_le
  cases hrepository : repositoryDominant.contribution? g t with
  | none =>
    rw [List.filterMap_cons_none (f := fun c : Criterion => c.contribution? g t) hrepository]
      at hlength
    omega
  | some x =>
    rw [List.filterMap_cons_some (f := fun c : Criterion => c.contribution? g t) hrepository]
      at hsub hlength
    by_cases hx : x.standing = R
    · rw [ofStanding, List.filter_cons_of_pos (by simpa using hx), ← ofStanding] at hsub hlength
      rw [List.length_cons] at hlength
      have hone : (ofStanding R (besideRepository.filterMap (·.contribution? g t))).length = 1 := by
        omega
      obtain ⟨y, hy⟩ := List.length_eq_one_iff.1 hone
      rw [hy] at hsub
      obtain rfl := hsub.eq_of_length_le htwo
      have hmem : y ∈ ofStanding R (besideRepository.filterMap (·.contribution? g t)) := by
        rw [hy]
        exact List.mem_singleton_self y
      obtain ⟨d, hd, hdy⟩ := List.mem_filterMap.1 (mem_ofStanding.1 hmem).1
      refine ⟨d.name, List.mem_map_of_mem hd, ?_⟩
      rw [List.map_cons, List.map_cons, List.map_nil, criterion_of_contribution? hrepository,
        criterion_of_contribution? hdy]
      rfl
    · rw [ofStanding, List.filter_cons_of_neg (by simpa using hx), ← ofStanding] at hlength
      omega

/-! ## The criteria that are asked -/

theorem asked_interface (facts : PortFactsIndex) (anchors : Anchors) :
    (builtIn facts anchors).filter (fun c => [Family.port].contains c.role.family)
      = portCriteria facts anchors := rfl

theorem asked_inner (facts : PortFactsIndex) (anchors : Anchors) :
    (builtIn facts anchors).filter (fun c => [Family.domain, Family.model].contains c.role.family)
      = inner := rfl

theorem asked_domain (facts : PortFactsIndex) (anchors : Anchors) :
    (builtIn facts anchors).filter (fun c => [Family.domain].contains c.role.family)
      = domainCriteria := rfl

end Criterion

end RoleAudit
