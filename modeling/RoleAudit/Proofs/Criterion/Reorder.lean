import RoleAudit.Classification.Classifier
import RoleAudit.Proofs.Classification.Rewording
import RoleAudit.Proofs.PortFacts

/-!
# Built-in criteria in reordered graphs

Most criteria ask what is the same in both graphs. The others ask for a list that is the same up to
order. What counts is whether it is empty; only the reasons name its items, and they name all of them.
-/

namespace RoleAudit

theorem empty_or_cons_of_perm {α : Type} {l l' : List α} (h : l'.Perm l) :
    (l = [] ∧ l' = []) ∨ ∃ a as b bs, l = a :: as ∧ l' = b :: bs := by
  cases l with
  | nil => exact Or.inl ⟨rfl, h.eq_nil⟩
  | cons a as =>
    cases l' with
    | nil => exact absurd h.symm.eq_nil (by simp)
    | cons b bs => exact Or.inr ⟨a, as, b, bs, rfl, rfl⟩

namespace Criterion

variable {g g' : Graph}

/-- A criterion that judges every type alike in both graphs agrees with itself. -/
theorem agrees_of_judge_eq {c : Criterion} (h : ∀ t, c.judge g' t = c.judge g t) :
    Agrees g g' c c :=
  ⟨rfl, rfl, rfl, fun t => .of_eq (h t)⟩

/-- Criteria made from one list agree if those made from each item do. -/
theorem agrees_map {β : Type} {f f' : β → Criterion} (items : List β)
    (hf : ∀ item, Agrees g g' (f item) (f' item)) :
    List.Forall₂ (Agrees g g') (items.map f) (items.map f') := by
  rw [List.forall₂_map_left_iff, List.forall₂_map_right_iff]
  exact List.forall₂_same.2 fun item _ => hf item

/-- The criterion agrees with itself for other facts that look up the same. -/
theorem agrees_semanticDriving {facts facts' : PortFactsIndex}
    (hfacts : ∀ id, facts'.get? id = facts.get? id) :
    Agrees g g' (semanticDriving facts) (semanticDriving facts') := by
  refine ⟨rfl, rfl, rfl, fun t => .of_eq ?_⟩
  unfold semanticDriving
  dsimp only
  rw [hfacts]

theorem agrees_semanticDriven {facts facts' : PortFactsIndex}
    (hfacts : ∀ id, facts'.get? id = facts.get? id) (role : Role) :
    Agrees g g' (semanticDriven facts role) (semanticDriven facts' role) := by
  refine ⟨rfl, rfl, rfl, fun t => .of_eq ?_⟩
  unfold semanticDriven
  dsimp only
  rw [hfacts]

variable (h : g.Reordered g')

include h

theorem agrees_namingData (name : String) (endings : List String) (role : Role) (priority : Nat)
    (confidence : Confidence) :
    Agrees g g' (namingData name endings role priority confidence)
      (namingData name endings role priority confidence) := by
  refine ⟨rfl, rfl, rfl, fun t => ?_⟩
  have hports := h.interfacesUsing_perm t.id
  simp only [namingData, hports.isEmpty_eq]
  cases t.isInterface with
  | true => exact .same _
  | false =>
    cases endings.find? (Text.endsWith · t.simpleName) with
    | none => exact .same _
    | some ending =>
      refine .matched ⟨rfl, .refl _, .cons (.refl _) ?_⟩
      split
      · exact .nil
      · exact .cons (.ofRelationship ((Text.Reworded.names hports).prepend _) hports) .nil

theorem dominantType?_eq (repository : TypeNode) :
    dominantType? g' repository = dominantType? g repository := by
  rw [dominantType?, dominantType?, h.signatureTypesOf_eq]
  simp only [h.hasIdentity_eq, h.signatureProofs_eq]

theorem dominatedRepositories_perm (t : TypeNode) :
    (dominatedRepositories g' t).Perm (dominatedRepositories g t) := by
  rw [dominatedRepositories, dominatedRepositories]
  simp only [dominantType?_eq h]
  exact (h.interfacesUsing_perm t.id).filter _

theorem agrees_repositoryDominant : Agrees g g' repositoryDominant repositoryDominant := by
  refine ⟨rfl, rfl, rfl, fun t => ?_⟩
  have hperm := dominatedRepositories_perm h t
  simp only [repositoryDominant, h.identityField?_eq]
  rcases empty_or_cons_of_perm hperm with ⟨hnil, hnil'⟩ | ⟨r, rs, r', rs', hcons, hcons'⟩
  · rw [hnil, hnil']
    exact .same _
  · rw [hcons, hcons'] at hperm ⊢
    cases t.isClassOrRecord with
    | false => exact .same _
    | true =>
      cases g.identityField? t with
      | none => exact .same _
      | some field =>
        have hnames := Text.Reworded.names hperm
        exact .matched ⟨rfl, (((hnames.prepend _).append _).append _).append _,
          .cons (.ofRelationship (hnames.prepend _) hperm) (.cons (.refl _) .nil)⟩

theorem containersOf_perm (t : TypeNode) : (containersOf g' t).Perm (containersOf g t) := by
  rw [containersOf, containersOf, h.resolveTypes_eq]
  simp only [h.hasIdentity_eq]
  exact ((distinct_perm ((h.fieldsOfType_perm t.id).map _)).filterMap _).filter _

theorem agrees_embeddedValueObject : Agrees g g' embeddedValueObject embeddedValueObject := by
  refine ⟨rfl, rfl, rfl, fun t => ?_⟩
  have hperm := containersOf_perm h t
  simp only [embeddedValueObject, h.hasIdentity_eq, h.isImmutable_eq]
  rcases empty_or_cons_of_perm hperm with ⟨hnil, hnil'⟩ | ⟨c, cs, c', cs', hcons, hcons'⟩
  · rw [hnil, hnil']
    exact .same _
  · rw [hcons, hcons'] at hperm ⊢
    cases t.isClassOrRecord && !g.hasIdentity t && g.isImmutable t with
    | false => exact .same _
    | true =>
      have hnames := Text.Reworded.names hperm
      exact .matched ⟨rfl, (hnames.prepend _).append _,
        .cons (.ofRelationship (hnames.prepend _) hperm) (.cons (.refl _) .nil)⟩

/-- The criteria for roles in the domain agree with themselves. -/
theorem agrees_domainCriteria : List.Forall₂ (Agrees g g') domainCriteria domainCriteria := by
  have hrecord : Agrees g g' recordSingleId recordSingleId :=
    agrees_of_judge_eq fun t => by simp only [recordSingleId, h.instanceFieldsOf_eq]
  have hevent : Agrees g g' namingDomainEvent namingDomainEvent :=
    agrees_of_judge_eq fun t => by simp only [namingDomainEvent, h.isImmutable_eq]
  have hentity : Agrees g g' identityEntity identityEntity :=
    agrees_of_judge_eq fun t => by simp only [identityEntity, h.identityField?_eq]
  refine List.rel_append (List.rel_append (List.rel_append (List.rel_append ?_ ?_) ?_) ?_) ?_
  · exact agrees_map domainMarkers fun _ => agrees_of_judge_eq fun _ => rfl
  · exact agrees_map domainInterfaces fun _ => agrees_of_judge_eq fun _ => rfl
  · exact .cons (agrees_repositoryDominant h) (.cons hrecord .nil)
  · refine agrees_map inheritableRoles fun role => agrees_of_judge_eq fun t => ?_
    simp only [inherited, h.supertypesOf_eq, h.interfacesOf_eq]
  · exact .cons (agrees_embeddedValueObject h) (.cons hevent (.cons hentity .nil))

theorem portOperations_eq (t : TypeNode) : portOperations g' t = portOperations g t := by
  rw [portOperations, portOperations, h.methodsOf_eq]

theorem agrees_injectedAsDependency {anchors anchors' : Anchors}
    (hanchors : ∀ id, anchors'.isDomain id = anchors.isDomain id) :
    Agrees g g' (injectedAsDependency anchors) (injectedAsDependency anchors') := by
  refine ⟨rfl, rfl, rfl, fun t => ?_⟩
  have hconsumers := (h.typesInjecting_perm t.id).filter (anchors.isDomain ·.id)
  simp only [injectedAsDependency, hanchors, hconsumers.isEmpty_eq,
    (h.implementorsOf_perm t.id).any_eq]
  split
  · have hnames := Text.Reworded.names hconsumers
    exact .matched ⟨rfl, (hnames.prepend _).append _,
      .cons (.ofRelationship (hnames.prepend _) hconsumers) .nil⟩
  · exact .same _

theorem agrees_signatureBasedDriven : Agrees g g' signatureBasedDriven signatureBasedDriven := by
  refine agrees_of_judge_eq fun t => ?_
  simp only [signatureBasedDriven, h.signatureTypesOf_eq, funext h.hasIdentity_eq,
    (h.implementorsOf_perm t.id).isEmpty_eq]

/-- The criteria for ports agree, each with the facts and anchors of its own graph. -/
theorem agrees_portCriteria :
    List.Forall₂ (Agrees g g') (portCriteria (.ofGraph g (.ofGraph g)) (.ofGraph g))
      (portCriteria (.ofGraph g' (.ofGraph g')) (.ofGraph g')) := by
  have hcommand : Agrees g g' commandPattern commandPattern :=
    agrees_of_judge_eq fun t => by simp only [commandPattern, portOperations_eq h]
  have hquery : Agrees g g' queryPattern queryPattern :=
    agrees_of_judge_eq fun t => by simp only [queryPattern, portOperations_eq h]
  refine List.rel_append (List.rel_append (List.rel_append (List.rel_append ?_ ?_) ?_) ?_) ?_
  · exact agrees_map portRoleMarkers fun _ => agrees_of_judge_eq fun _ => rfl
  · exact .cons (agrees_semanticDriving h.facts_get?_eq) .nil
  · exact agrees_map drivenRoles (agrees_semanticDriven h.facts_get?_eq)
  · exact agrees_map portEndings fun _ => agrees_of_judge_eq fun _ => rfl
  · exact .cons hcommand (.cons hquery (.cons (agrees_injectedAsDependency h h.isDomain_eq)
      (.cons (agrees_signatureBasedDriven h) (.cons (agrees_of_judge_eq fun _ => rfl)
        (.cons (agrees_of_judge_eq fun _ => rfl) .nil)))))

/-- All built-in criteria agree. -/
theorem agrees_builtIn :
    List.Forall₂ (Agrees g g') (builtIn (.ofGraph g (.ofGraph g)) (.ofGraph g))
      (builtIn (.ofGraph g' (.ofGraph g')) (.ofGraph g')) := by
  have hdata : List.Forall₂ (Agrees g g') dataCriteria dataCriteria :=
    .cons (agrees_namingData h _ _ _ _ _) (.cons (agrees_namingData h _ _ _ _ _)
      (.cons (agrees_namingData h _ _ _ _ _) .nil))
  exact List.rel_append (List.rel_append (agrees_domainCriteria h) (agrees_portCriteria h)) hdata

end Criterion

end RoleAudit
