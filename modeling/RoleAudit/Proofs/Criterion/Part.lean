import RoleAudit.Classification.Classifier
import RoleAudit.Proofs.Graph.Part
import RoleAudit.Proofs.PortFacts

/-!
# Built-in criteria in a part of a graph

The anchors and the facts of a type in a part of a graph are those that it has in the whole graph, and
every built-in criterion says the same of it in both. So it is put to the same families, carries a signal
in both or in none, and has the same result.
-/

namespace RoleAudit

theorem filterMap_eq_of_forall₂ {α β γ : Type} {R : α → β → Prop} {f : α → Option γ} {f' : β → Option γ}
    {l : List α} {l' : List β} (h : List.Forall₂ R l l') (hf : ∀ a b, R a b → f' b = f a) :
    l'.filterMap f' = l.filterMap f := by
  induction h with
  | nil => rfl
  | cons hab _ ih => rw [List.filterMap_cons, List.filterMap_cons, ih, hf _ _ hab]

theorem any_eq_of_forall_mem {α : Type} {l : List α} {f f' : α → Bool} (h : ∀ a ∈ l, f a = f' a) :
    l.any f = l.any f' := by
  induction l with
  | nil => rfl
  | cons a rest ih =>
    rw [List.any_cons, List.any_cons, h a List.mem_cons_self,
      ih fun b hb => h b (List.mem_cons_of_mem a hb)]

theorem all_eq_of_forall_mem {α : Type} {l : List α} {f f' : α → Bool} (h : ∀ a ∈ l, f a = f' a) :
    l.all f = l.all f' := by
  rw [List.all_eq_not_any_not, List.all_eq_not_any_not,
    any_eq_of_forall_mem fun a ha => by rw [h a ha]]

/-! ## Anchors and facts -/

namespace Graph.Base

variable {p g : Graph} (h : p.Base g)

include h

theorem anchorOf_eq {t : TypeNode} (ht : t.id ∈ p.nodeIds) : Anchor.ofType g t = Anchor.ofType p t := by
  rw [Anchor.ofType, Anchor.ofType, h.fieldsOf_eq ht]

theorem type?_of_mem_fieldsOf {id : NodeId} {f : FieldNode} (hf : f ∈ p.fieldsOf id) :
    g.type? (.ofType f.type.name) = p.type? (.ofType f.type.name) :=
  h.closed _ (h.indexed.field_mem_nodes hf) _ (List.mem_cons_of_mem _ List.mem_cons_self)

theorem type?_of_mem_constructorsOf {id : NodeId} {c : ConstructorNode}
    (hc : c ∈ p.constructorsOf id) {parameter : Parameter} (hparameter : parameter ∈ c.parameters) :
    g.type? (.ofType parameter.type.name) = p.type? (.ofType parameter.type.name) :=
  h.closed _ (h.indexed.constructor_mem_nodes hc) _
    (List.mem_cons_of_mem _ (List.mem_map_of_mem hparameter))

theorem dependsOnInterface_eq {t : TypeNode} (ht : t.id ∈ p.nodeIds) :
    g.dependsOnInterface t = p.dependsOnInterface t := by
  rw [dependsOnInterface, dependsOnInterface, h.fieldsOf_eq ht, h.constructorsOf_eq ht]
  refine any_eq_of_forall_mem fun name hname => ?_
  rcases List.mem_append.1 hname with hname | hname
  · obtain ⟨f, hf, rfl⟩ := List.mem_map.1 hname
    rw [h.type?_of_mem_fieldsOf hf]
  · obtain ⟨c, hc, hname⟩ := List.mem_flatMap.1 hname
    obtain ⟨parameter, hparameter, rfl⟩ := List.mem_map.1 hname
    rw [h.type?_of_mem_constructorsOf hc hparameter]

theorem isCoreType_eq {t : TypeNode} (ht : t.id ∈ p.nodeIds) :
    Anchors.isCoreType g t = Anchors.isCoreType p t := by
  rw [Anchors.isCoreType, Anchors.isCoreType, h.anchorOf_eq ht, h.dependsOnInterface_eq ht]

theorem anchors_get?_eq {id : NodeId} (hid : id ∈ p.nodeIds) :
    (Anchors.ofGraph g).get? id = (Anchors.ofGraph p).get? id := by
  rw [Anchors.get?_ofGraph h.whole, Anchors.get?_ofGraph h.indexed, h.type?_eq hid]
  cases htype : p.type? id with
  | none => rfl
  | some t =>
    obtain rfl : t.id = id := (h.indexed.type?_eq_some.1 htype).2
    simp only [Option.bind_some, h.anchorOf_eq hid]

theorem isDomain_eq {id : NodeId} (hid : id ∈ p.nodeIds) :
    (Anchors.ofGraph g).isDomain id = (Anchors.ofGraph p).isDomain id := by
  rw [Anchors.isDomain, Anchors.isDomain, h.anchors_get?_eq hid]

theorem isInfrastructure_eq {id : NodeId} (hid : id ∈ p.nodeIds) :
    (Anchors.ofGraph g).isInfrastructure id = (Anchors.ofGraph p).isInfrastructure id := by
  rw [Anchors.isInfrastructure, Anchors.isInfrastructure, h.anchors_get?_eq hid]

theorem isCore_eq {id : NodeId} (hid : id ∈ p.nodeIds) :
    (Anchors.ofGraph g).isCore id = (Anchors.ofGraph p).isCore id := by
  rw [Anchors.isCore_ofGraph h.whole, Anchors.isCore_ofGraph h.indexed, h.type?_eq hid]
  cases htype : p.type? id with
  | none => rfl
  | some t =>
    obtain rfl : t.id = id := (h.indexed.type?_eq_some.1 htype).2
    simp only [Option.any_some, h.isCoreType_eq hid]

/-- The facts on an interface are the same in both graphs where it has the same implementations
outside of tests and is used by core code in both or in none. -/
theorem portFacts_eq_of_counted {t : TypeNode}
    (hproduction : g.productionImplementors t.id = p.productionImplementors t.id)
    (hused : (g.typesInjecting t.id).any ((Anchors.ofGraph g).isCore ·.id)
      = (p.typesInjecting t.id).any ((Anchors.ofGraph p).isCore ·.id)) :
    PortFacts.ofInterface g (.ofGraph g) t = PortFacts.ofInterface p (.ofGraph p) t := by
  have himplementor : ∀ u ∈ p.productionImplementors t.id, u.id ∈ p.nodeIds := fun u hu =>
    h.indexed.mem_nodeIds_of_mem_resolveTypes (List.mem_filter.1 hu).1
  have hdomain := all_eq_of_forall_mem fun u hu => h.isDomain_eq (himplementor u hu)
  have hinfrastructure := all_eq_of_forall_mem fun u hu => h.isInfrastructure_eq (himplementor u hu)
  have hcore := any_eq_of_forall_mem fun u hu => h.isCore_eq (himplementor u hu)
  simp only [PortFacts.ofInterface, hproduction, hused, hdomain, hinfrastructure, hcore]

/-- Where the facts on an interface of the base are the same in both graphs, so is its entry. -/
theorem facts_get?_eq_of_portFacts {id : NodeId} (hid : id ∈ p.nodeIds)
    (hfacts : ∀ t : TypeNode, t.id = id →
      PortFacts.ofInterface g (.ofGraph g) t = PortFacts.ofInterface p (.ofGraph p) t) :
    (PortFactsIndex.ofGraph g (.ofGraph g)).get? id
      = (PortFactsIndex.ofGraph p (.ofGraph p)).get? id := by
  rw [PortFactsIndex.get?_ofGraph h.whole, PortFactsIndex.get?_ofGraph h.indexed, h.type?_eq hid]
  cases htype : p.type? id with
  | none => rfl
  | some t => simp only [Option.bind_some, hfacts t (h.indexed.type?_eq_some.1 htype).2]

end Graph.Base

namespace Graph.Part

variable {p g : Graph} (h : p.Part g)

include h

theorem portFacts_eq {t : TypeNode} (ht : t.id ∈ p.nodeIds) :
    PortFacts.ofInterface g (.ofGraph g) t = PortFacts.ofInterface p (.ofGraph p) t := by
  refine h.portFacts_eq_of_counted ?_ ?_
  · rw [productionImplementors, productionImplementors, h.implementorsOf_eq ht]
  · rw [h.typesInjecting_eq ht]
    exact any_eq_of_forall_mem fun u hu =>
      h.isCore_eq (h.indexed.mem_nodeIds_of_mem_resolveTypes hu)

theorem facts_get?_eq {id : NodeId} (hid : id ∈ p.nodeIds) :
    (PortFactsIndex.ofGraph g (.ofGraph g)).get? id
      = (PortFactsIndex.ofGraph p (.ofGraph p)).get? id :=
  h.facts_get?_eq_of_portFacts hid fun _ ht => h.portFacts_eq (ht ▸ hid)

end Graph.Part

namespace Criterion

/-- Two criteria are the same to one type, each in a graph of its own. -/
structure SameFor (p g : Graph) (t : TypeNode) (c c' : Criterion) : Prop where
  name : c'.name = c.name
  priority : c'.priority = c.priority
  role : c'.role = c.role
  judge : c'.judge g t = c.judge p t

section SameFor

variable {p g : Graph} {t : TypeNode}

theorem sameFor_self {c : Criterion} (h : c.judge g t = c.judge p t) : SameFor p g t c c :=
  ⟨rfl, rfl, rfl, h⟩

theorem SameFor.contribution?_eq {c c' : Criterion} (h : SameFor p g t c c') :
    c'.contribution? g t = c.contribution? p t := by
  have hcontribution : c'.contribution = c.contribution := by
    funext m
    rw [contribution, contribution, h.name, h.role, h.priority]
  rw [contribution?, contribution?, h.judge, hcontribution]

theorem sameFor_map {β : Type} {f f' : β → Criterion} (items : List β)
    (hf : ∀ item, SameFor p g t (f item) (f' item)) :
    List.Forall₂ (SameFor p g t) (items.map f) (items.map f') := by
  rw [List.forall₂_map_left_iff, List.forall₂_map_right_iff]
  exact List.forall₂_same.2 fun item _ => hf item

/-- Criteria that are the same to a type contribute the same to it. -/
theorem evaluate_eq {criteria criteria' : List Criterion}
    (h : List.Forall₂ (SameFor p g t) criteria criteria') (families : List Family) :
    evaluate criteria' g families t = evaluate criteria p families t := by
  have hasked : List.Forall₂ (SameFor p g t)
      (criteria.filter fun c => families.contains c.role.family)
      (criteria'.filter fun c => families.contains c.role.family) := by
    refine List.rel_filter (fun c c' hc => ?_) h
    simp only [hc.role]
  rw [evaluate, evaluate, Evaluation.mk.injEq]
  constructor
  · exact filterMap_eq_of_forall₂ hasked fun c c' hc => hc.contribution?_eq
  · refine filterMap_eq_of_forall₂ hasked fun c c' hc => ?_
    rw [diagnostic?, diagnostic?, hc.judge, hc.name]

theorem sameFor_semanticDriving {facts facts' : PortFactsIndex}
    (hfacts : facts'.get? t.id = facts.get? t.id) :
    SameFor p g t (semanticDriving facts) (semanticDriving facts') := by
  refine ⟨rfl, rfl, rfl, ?_⟩
  unfold semanticDriving
  dsimp only
  rw [hfacts]

theorem sameFor_semanticDriven {facts facts' : PortFactsIndex}
    (hfacts : facts'.get? t.id = facts.get? t.id) (role : Role) :
    SameFor p g t (semanticDriven facts role) (semanticDriven facts' role) := by
  refine ⟨rfl, rfl, rfl, ?_⟩
  unfold semanticDriven
  dsimp only
  rw [hfacts]

end SameFor

/-! ## The criteria one by one -/

/-- The criteria on ports in front of the two that count the implementations of an interface. -/
def beforeCounting (facts : PortFactsIndex) : List Criterion :=
  portRoleMarkers.map (fun (marker, role) => explicitPort marker role)
    ++ [semanticDriving facts]
    ++ drivenRoles.map (semanticDriven facts)
    ++ portEndings.map (fun (ending, role) => namingPort ending role)
    ++ [commandPattern, queryPattern]

/-- The criteria on ports behind them, which read the package alone. -/
def onPackages : List Criterion :=
  [packageDirection "package-in" "in" .useCase, packageDirection "package-out" "out" .drivenPort]

theorem portCriteria_eq (facts : PortFactsIndex) (anchors : Anchors) :
    portCriteria facts anchors
      = beforeCounting facts ++ [injectedAsDependency anchors, signatureBasedDriven] ++ onPackages :=
  rfl

theorem sameFor_onPackages {p g : Graph} {t : TypeNode} :
    List.Forall₂ (SameFor p g t) onPackages onPackages :=
  .cons (sameFor_self rfl) (.cons (sameFor_self rfl) .nil)

section Base

variable {p g : Graph} (h : p.Base g) {t : TypeNode} (ht : t.id ∈ p.nodeIds)

include h ht

theorem portOperations_of_base : portOperations g t = portOperations p t := by
  rw [portOperations, portOperations, h.methodsOf_eq ht]

theorem sameFor_beforeCounting {facts facts' : PortFactsIndex}
    (hfacts : facts'.get? t.id = facts.get? t.id) :
    List.Forall₂ (SameFor p g t) (beforeCounting facts) (beforeCounting facts') := by
  have hcommand : commandPattern.judge g t = commandPattern.judge p t := by
    simp only [commandPattern, portOperations_of_base h ht]
  have hquery : queryPattern.judge g t = queryPattern.judge p t := by
    simp only [queryPattern, portOperations_of_base h ht]
  refine List.rel_append (List.rel_append (List.rel_append (List.rel_append ?_ ?_) ?_) ?_) ?_
  · exact sameFor_map portRoleMarkers fun _ => sameFor_self rfl
  · exact .cons (sameFor_semanticDriving hfacts) .nil
  · exact sameFor_map drivenRoles (sameFor_semanticDriven hfacts)
  · exact sameFor_map portEndings fun _ => sameFor_self rfl
  · exact .cons (sameFor_self hcommand) (.cons (sameFor_self hquery) .nil)

end Base

section Part

variable {p g : Graph} (h : p.Part g) {t : TypeNode} (ht : t.id ∈ p.nodeIds)

include h ht

theorem dominantType?_of_part : dominantType? g t = dominantType? p t := by
  have hcandidate : ∀ u ∈ p.signatureTypesOf t.id, g.hasIdentity u = p.hasIdentity u := fun u hu =>
    h.hasIdentity_eq (h.indexed.mem_nodeIds_of_mem_resolveTypes hu)
  have hcandidates : (p.signatureTypesOf t.id).filter (fun u => !u.isInterface && g.hasIdentity u)
      = (p.signatureTypesOf t.id).filter fun u => !u.isInterface && p.hasIdentity u :=
    List.filter_congr fun u hu => by rw [hcandidate u hu]
  rw [dominantType?, dominantType?, h.signatureTypesOf_eq ht, hcandidates]
  simp only [h.signatureProofs_eq ht]

theorem dominatedRepositories_of_part : dominatedRepositories g t = dominatedRepositories p t := by
  rw [dominatedRepositories, dominatedRepositories, h.interfacesUsing_eq ht]
  refine List.filter_congr fun i hi => ?_
  rw [dominantType?_of_part h (h.indexed.mem_nodeIds_of_mem_resolveTypes hi)]

theorem containersOf_of_part : containersOf g t = containersOf p t := by
  have howners : g.resolveTypes (distinct ((p.fieldsOfType t.id).map (·.owner)))
      = p.resolveTypes (distinct ((p.fieldsOfType t.id).map (·.owner))) :=
    List.filterMap_congr fun owner howner =>
      h.type?_owner_of_fieldsOfType (mem_distinct.1 howner)
  rw [containersOf, containersOf, h.fieldsOfType_eq ht]
  simp only [howners]
  refine List.filter_congr fun owner howner => ?_
  rw [h.hasIdentity_eq (h.indexed.mem_nodeIds_of_mem_resolveTypes howner)]

theorem sameFor_domainCriteria : List.Forall₂ (SameFor p g t) domainCriteria domainCriteria := by
  have hrepository : repositoryDominant.judge g t = repositoryDominant.judge p t := by
    simp only [repositoryDominant, h.identityField?_eq ht, dominatedRepositories_of_part h ht]
  have hrecord : recordSingleId.judge g t = recordSingleId.judge p t := by
    simp only [recordSingleId, h.instanceFieldsOf_eq ht]
  have hembedded : embeddedValueObject.judge g t = embeddedValueObject.judge p t := by
    simp only [embeddedValueObject, h.hasIdentity_eq ht, h.isImmutable_eq ht,
      containersOf_of_part h ht]
  have hevent : namingDomainEvent.judge g t = namingDomainEvent.judge p t := by
    simp only [namingDomainEvent, h.isImmutable_eq ht]
  have hentity : identityEntity.judge g t = identityEntity.judge p t := by
    simp only [identityEntity, h.identityField?_eq ht]
  refine List.rel_append (List.rel_append (List.rel_append (List.rel_append ?_ ?_) ?_) ?_) ?_
  · exact sameFor_map domainMarkers fun _ => sameFor_self rfl
  · exact sameFor_map domainInterfaces fun _ => sameFor_self rfl
  · exact .cons (sameFor_self hrepository) (.cons (sameFor_self hrecord) .nil)
  · refine sameFor_map inheritableRoles fun role => sameFor_self ?_
    simp only [inherited, h.supertypesOf_eq ht, h.interfacesOf_eq ht]
  · exact .cons (sameFor_self hembedded)
      (.cons (sameFor_self hevent) (.cons (sameFor_self hentity) .nil))

theorem sameFor_injectedAsDependency {anchors anchors' : Anchors}
    (hanchors : ∀ id ∈ p.nodeIds, anchors'.isDomain id = anchors.isDomain id) :
    SameFor p g t (injectedAsDependency anchors) (injectedAsDependency anchors') := by
  have hconsumers : (p.typesInjecting t.id).filter (anchors'.isDomain ·.id)
      = (p.typesInjecting t.id).filter (anchors.isDomain ·.id) :=
    List.filter_congr fun u hu => hanchors _ (h.indexed.mem_nodeIds_of_mem_resolveTypes hu)
  have hinDomain : (p.implementorsOf t.id).any (anchors'.isDomain ·.id)
      = (p.implementorsOf t.id).any (anchors.isDomain ·.id) :=
    any_eq_of_forall_mem fun u hu => hanchors _ (h.indexed.mem_nodeIds_of_mem_resolveTypes hu)
  refine ⟨rfl, rfl, rfl, ?_⟩
  simp only [injectedAsDependency, h.typesInjecting_eq ht, h.implementorsOf_eq ht, hconsumers,
    hinDomain]

theorem sameFor_portCriteria :
    List.Forall₂ (SameFor p g t) (portCriteria (.ofGraph p (.ofGraph p)) (.ofGraph p))
      (portCriteria (.ofGraph g (.ofGraph g)) (.ofGraph g)) := by
  have hmentioned : (p.signatureTypesOf t.id).filter g.hasIdentity
      = (p.signatureTypesOf t.id).filter p.hasIdentity :=
    List.filter_congr fun u hu => h.hasIdentity_eq (h.indexed.mem_nodeIds_of_mem_resolveTypes hu)
  have hsignature : signatureBasedDriven.judge g t = signatureBasedDriven.judge p t := by
    simp only [signatureBasedDriven, h.signatureTypesOf_eq ht, h.implementorsOf_eq ht, hmentioned]
  rw [portCriteria_eq, portCriteria_eq]
  refine List.rel_append (List.rel_append ?_ ?_) sameFor_onPackages
  · exact sameFor_beforeCounting h.toBase ht (h.facts_get?_eq ht)
  · exact .cons (sameFor_injectedAsDependency h ht fun _ => h.isDomain_eq)
      (.cons (sameFor_self hsignature) .nil)

/-- All built-in criteria are the same to a type of the part, each with the facts and anchors of its
own graph. -/
theorem sameFor_builtIn :
    List.Forall₂ (SameFor p g t) (builtIn (.ofGraph p (.ofGraph p)) (.ofGraph p))
      (builtIn (.ofGraph g (.ofGraph g)) (.ofGraph g)) := by
  have hdata : List.Forall₂ (SameFor p g t) dataCriteria dataCriteria := by
    refine List.forall₂_same.2 fun c hc => sameFor_self ?_
    simp only [dataCriteria, List.mem_cons, List.not_mem_nil, or_false] at hc
    rcases hc with rfl | rfl | rfl <;> simp only [namingData, h.interfacesUsing_eq ht]
  exact List.rel_append (List.rel_append (sameFor_domainCriteria h ht) (sameFor_portCriteria h ht))
    hdata

end Part

end Criterion

namespace Graph.Part

variable {p g : Graph} (h : p.Part g) {t : TypeNode} (ht : t.id ∈ p.nodeIds)

include h ht

theorem familiesOf_eq : g.familiesOf t = p.familiesOf t := by
  rw [familiesOf, familiesOf, h.interfacesUsing_eq ht]

theorem hasSignal_eq : g.hasSignal t = p.hasSignal t := by
  rw [hasSignal, hasSignal, h.interfacesUsing_eq ht, h.fieldsOfType_eq ht, h.implementorsOf_eq ht,
    h.typesInjecting_eq ht, h.supertypeOf?_eq ht, h.interfacesOf_eq ht]

end Graph.Part

/-- The criterion reads nothing but the type itself. -/
def Criterion.ReadsTypeOnly (c : Criterion) : Prop := ∀ g g' t, c.judge g t = c.judge g' t

/-- A type of a part has the result that it has in the whole graph. -/
theorem Classifier.result_eq_of_part {p g : Graph} (h : p.Part g) {c : Classifier}
    (hcustom : ∀ k ∈ c.custom, k.ReadsTypeOnly) {t : TypeNode} (ht : t.id ∈ p.nodeIds) :
    c.result (c.criteria g) g t = c.result (c.criteria p) p t := by
  have hcriteria : List.Forall₂ (Criterion.SameFor p g t) (c.criteria p) (c.criteria g) :=
    List.rel_append (Criterion.sameFor_builtIn h ht)
      (List.forall₂_same.2 fun k hk => Criterion.sameFor_self (hcustom k hk g p t))
  rw [result, result]
  cases c.explicit.get? t.name with
  | some role => rfl
  | none =>
    simp only [judgedResult, h.familiesOf_eq ht, h.hasSignal_eq ht,
      Criterion.evaluate_eq hcriteria]

end RoleAudit
