import RoleAudit.Model.Build
import RoleAudit.Proofs.PortFacts

/-!
# Facts that go together

The facts on an interface are answers to separate questions, and what follows from them is asked in
separate tests. Most combinations of answers come from no graph. A type has one anchor at most, and a
core class has that of the domain: so an implementor in the core rules out that there is none and that
all are infrastructure, and implementors that are all domain code are not all infrastructure. An
implementor that is an interface has no anchor, and that of an entry point is neither of the two;
then none of the three tests on the implementors holds.
-/

namespace RoleAudit

variable {g : Graph}

/-! ## Anchors -/

/-- A type has one anchor at most. -/
theorem Anchors.isInfrastructure_eq_false_of_isDomain {a : Anchors} {id : NodeId}
    (h : a.isDomain id = true) : a.isInfrastructure id = false := by
  rw [isDomain, decide_eq_true_eq] at h
  rw [isInfrastructure, h]
  rfl

/-- A core class has the anchor of the domain. -/
theorem Anchors.isDomain_of_isCore (h : g.Indexed) {id : NodeId}
    (hcore : (Anchors.ofGraph g).isCore id = true) : (Anchors.ofGraph g).isDomain id = true := by
  obtain ⟨t, htype, hclass, hanchor, -⟩ := (isCore_ofGraph_iff h).1 hcore
  rw [isDomain, get?_ofGraph h, htype, Option.bind_some, hclass, hanchor]
  rfl

theorem TypeNode.isPlatformType_eq_false_iff {t : TypeNode} :
    t.isPlatformType = false ↔ ∀ start ∈ platformStarts, ¬ start.toList <+: t.name.toList := by
  rw [isPlatformType, List.any_eq_false]
  simp only [Text.startsWith_iff]

namespace PortFacts

/-! ## What follows from any facts -/

section Reading

variable {f : PortFacts}

/-- What the core does not use is driven only by infrastructure, and not if the core implements it. -/
theorem isDriven_eq_false_of_isDrivingCandidate (h : f.isDrivingCandidate = true) :
    f.isDriven = false := by
  obtain ⟨hcore, hunused⟩ : f.implementedByCore = true ∧ f.usedByCore = false := by
    simpa [isDrivingCandidate] using h
  simp [isDriven, isDrivenCandidate, isDrivenWithoutSignal, isDrivenExternally,
    isDrivenByInfrastructure, hcore, hunused]

theorem isDrivenExternally_eq_false_of_isDrivenCandidate (h : f.isDrivenCandidate = true) :
    f.isDrivenExternally = false := by
  obtain ⟨⟨-, hinside⟩, -⟩ : (f.usedByCore = true ∧ (f.missing = true ∨ f.internalOnly = true)) ∧
      f.hasPortSignal = true := by
    simpa [isDrivenCandidate, isDrivenWithoutSignal] using h
  rcases hinside with hmissing | hinternal
  · simp [isDrivenExternally, hmissing]
  · simp [isDrivenExternally, hinternal]

theorem isUndecided_eq_not :
    f.isUndecided = !(f.isDrivingCandidate || f.isDriven || f.isInternal) := by
  simp only [isUndecided, isDriven, Bool.not_or, Bool.and_assoc]

end Reading

/-! ## What follows from facts that are gathered -/

section Gathered

variable {a : Anchors} {t : TypeNode}

theorem missing_ofInterface :
    (ofInterface g a t).missing = true ↔ (ofInterface g a t).implementations = 0 := by
  simp [ofInterface]

theorem missing_eq_false_of_infrastructureOnly (h : (ofInterface g a t).infrastructureOnly = true) :
    (ofInterface g a t).missing = false := by
  rw [ofInterface, Bool.and_eq_true, Bool.not_eq_true'] at h
  exact h.1

/-- One implementor that is domain code rules out that there is none and that all are infrastructure. -/
theorem not_infrastructureOnly_of_isDomain {u : TypeNode} (hu : u ∈ g.productionImplementors t.id)
    (hdomain : a.isDomain u.id = true) :
    (ofInterface g a t).missing = false ∧ (ofInterface g a t).infrastructureOnly = false := by
  have hmissing : (ofInterface g a t).missing = false :=
    List.isEmpty_eq_false_iff.2 (List.ne_nil_of_mem hu)
  have hother : (g.productionImplementors t.id).all (a.isInfrastructure ·.id) = false :=
    List.all_eq_false.2 ⟨u, hu, by simp [Anchors.isInfrastructure_eq_false_of_isDomain hdomain]⟩
  refine ⟨hmissing, ?_⟩
  show (_ && List.all _ _) = false
  rw [hother, Bool.and_false]

theorem not_infrastructureOnly_of_internalOnly (h : (ofInterface g a t).internalOnly = true) :
    (ofInterface g a t).missing = false ∧ (ofInterface g a t).infrastructureOnly = false := by
  obtain ⟨hsome, hall⟩ : g.productionImplementors t.id ≠ [] ∧
      ∀ u ∈ g.productionImplementors t.id, a.isDomain u.id = true := by
    simpa [ofInterface] using h
  obtain ⟨u, hu⟩ := List.exists_mem_of_ne_nil _ hsome
  exact not_infrastructureOnly_of_isDomain hu (hall u hu)

end Gathered

/-- The answers on one interface, as far as they bear on each other. -/
structure Coherent (f : PortFacts) : Prop where
  /-- It is missing an implementation exactly if it has none. -/
  missing : f.missing = true ↔ f.implementations = 0
  /-- No two of the tests on all implementors hold. -/
  implementors : [f.missing, f.internalOnly, f.infrastructureOnly].count true ≤ 1
  /-- An implementation in the core is one, and no infrastructure. -/
  core : f.implementedByCore = true → f.missing = false ∧ f.infrastructureOnly = false
  /-- It is a port in one direction at most. -/
  direction : ¬ (f.isDrivingCandidate = true ∧ f.isDriven = true)
  /-- The core uses it without an implementation outside, or with one. -/
  driven : ¬ (f.isDrivenCandidate = true ∧ f.isDrivenExternally = true)
  /-- Either the facts do not tell, or it is a port or a matter of the domain. -/
  verdict : Xor (f.isUndecided = true)
    (f.isDrivingCandidate = true ∨ f.isDriven = true ∨ f.isInternal = true)

theorem coherent_ofInterface (h : g.Indexed) (t : TypeNode) :
    (ofInterface g (.ofGraph g) t).Coherent where
  missing := missing_ofInterface
  implementors := by
    cases hinternal : (ofInterface g (.ofGraph g) t).internalOnly
    · cases hinfrastructure : (ofInterface g (.ofGraph g) t).infrastructureOnly
      · cases (ofInterface g (.ofGraph g) t).missing <;> decide
      · rw [missing_eq_false_of_infrastructureOnly hinfrastructure]
        decide
    · obtain ⟨hmissing, hinfrastructure⟩ := not_infrastructureOnly_of_internalOnly hinternal
      rw [hmissing, hinfrastructure]
      decide
  core hcore := by
    obtain ⟨u, hu, hucore⟩ := List.any_eq_true.1 hcore
    exact not_infrastructureOnly_of_isDomain hu (Anchors.isDomain_of_isCore h hucore)
  direction := by
    rintro ⟨hdriving, hdriven⟩
    rw [isDriven_eq_false_of_isDrivingCandidate hdriving] at hdriven
    exact nomatch hdriven
  driven := by
    rintro ⟨hcandidate, hexternal⟩
    rw [isDrivenExternally_eq_false_of_isDrivenCandidate hcandidate] at hexternal
    exact nomatch hexternal
  verdict := by
    rw [isUndecided_eq_not, xor_iff_iff_not]
    simp [and_assoc]

end PortFacts

namespace PortFactsIndex

theorem mem_toList_iff {ix : PortFactsIndex} {f : PortFacts} :
    f ∈ ix.toList ↔ ∃ id, ix.get? id = some f := by
  simp only [toList, get?, List.mem_map, Prod.exists, exists_eq_right,
    Std.TreeMap.mem_toList_iff_getElem?_eq_some, Std.TreeMap.get?_eq_getElem?]

variable (h : g.Indexed) {a : Anchors} {id : NodeId} {f : PortFacts}

include h

theorem interface_of_get? (hf : (ofGraph g a).get? id = some f) : f.interface = id := by
  obtain ⟨t, -, hid, -, -, rfl⟩ := (get?_ofGraph_eq_some h).1 hf
  exact hid

theorem get?_ofGraph_iff_mem : (ofGraph g a).get? id = some f ↔
    f ∈ (ofGraph g a).toList ∧ f.interface = id := by
  rw [mem_toList_iff]
  constructor
  · exact fun hf => ⟨⟨id, hf⟩, interface_of_get? h hf⟩
  · rintro ⟨⟨key, hf⟩, rfl⟩
    rwa [interface_of_get? h hf]

/-- No interface has two entries. -/
theorem nodup_toList : ((ofGraph g a).toList.map (·.interface)).Nodup := by
  have hkeys : (ofGraph g a).toList.map (·.interface) = (ofGraph g a).facts.keys := by
    rw [toList, ← Std.TreeMap.map_fst_toList_eq_keys, List.map_map]
    refine List.map_congr_left fun entry hentry => ?_
    have hget : (ofGraph g a).get? entry.1 = some entry.2 := by
      rwa [get?, Std.TreeMap.get?_eq_getElem?, ← Std.TreeMap.mem_toList_iff_getElem?_eq_some]
    exact interface_of_get? h hget
  rw [hkeys]
  exact Std.TreeMap.nodup_keys

theorem mem_interfaces_iff : id ∈ (ofGraph g a).toList.map (·.interface) ↔
    ∃ t ∈ g.types, t.id = id ∧ t.isInterface = true ∧ t.isPlatformType = false := by
  rw [List.mem_map]
  constructor
  · rintro ⟨f, hf, hid⟩
    obtain ⟨t, ht, htid, hform, hplatform, -⟩ :=
      (get?_ofGraph_eq_some h).1 ((get?_ofGraph_iff_mem h).2 ⟨hf, hid⟩)
    exact ⟨t, ht, htid, hform, hplatform⟩
  · rintro ⟨t, ht, hid, hform, hplatform⟩
    have hget : (ofGraph g a).get? id = some (.ofInterface g a t) :=
      (get?_ofGraph_eq_some h).2 ⟨t, ht, hid, hform, hplatform, rfl⟩
    exact ⟨_, (get?_ofGraph_iff_mem h).1 hget⟩

end PortFactsIndex

/-- Whatever nodes and edges a graph is given, its index of facts has one entry for each interface
whose name does not begin like that of a platform type, and no other entry. The entry holds the facts
on that interface, and they are coherent. -/
theorem PortFactsIndex.entries_coherent (metadata : Metadata) (calls : List Insertion) :
    let g := calls.foldl Graph.attempt (.withMetadata metadata)
    let ix := PortFactsIndex.ofGraph g (.ofGraph g)
    (∀ id f, ix.get? id = some f ↔ f ∈ ix.toList ∧ f.interface = id) ∧
    (ix.toList.map (·.interface)).Nodup ∧
    (∀ id, id ∈ ix.toList.map (·.interface) ↔ ∃ t ∈ g.types, t.id = id ∧ t.isInterface = true ∧
      ∀ start ∈ platformStarts, ¬ start.toList <+: t.name.toList) ∧
    ∀ f ∈ ix.toList, (∃ t ∈ g.types, f = .ofInterface g (.ofGraph g) t) ∧ f.Coherent := by
  intro g ix
  have h : g.Indexed := (Graph.Indexed.withMetadata metadata).foldl_attempt calls
  refine ⟨fun id f => get?_ofGraph_iff_mem h, nodup_toList h, fun id => ?_, fun f hf => ?_⟩
  · simp only [ix, mem_interfaces_iff h, TypeNode.isPlatformType_eq_false_iff]
  · obtain ⟨id, hid⟩ := mem_toList_iff.1 hf
    obtain ⟨t, ht, -, -, -, rfl⟩ := (get?_ofGraph_eq_some h).1 hid
    exact ⟨⟨t, ht, rfl⟩, PortFacts.coherent_ofInterface h t⟩

section Example

/-- Where a bank gets its rates: used by the quotes of the core, and implemented by an entry point and
by a narrower interface. -/
def rateCalls : List Insertion :=
  let rates : SourceType := { name := "bank.Rates", form := .interface }
  let live : SourceType :=
    { name := "bank.LiveRates", form := .interface, interfaces := [.plain "bank.Rates"] }
  let page : SourceType :=
    { name := "bank.RatesPage"
      form := .plainClass
      interfaces := [.plain "bank.Rates"]
      annotations := [.ofName "org.springframework.stereotype.Controller"] }
  let quote : SourceType :=
    { name := "bank.Quote"
      form := .plainClass
      fields := [.privateFinal "rates" (.plain "bank.Rates")] }
  Model.rawInsertions { types := [rates, live, page, quote] }

/-- Of the two implementors one has no anchor and one is an entry point, so the tests on all of them
fail, and the rates are a port that the core calls and others implement. -/
theorem rates_coherent :
    let g := rateCalls.foldl Graph.attempt (.withMetadata .empty)
    ∃ f ∈ (PortFactsIndex.ofGraph g (.ofGraph g)).toList, f.interface = .ofType "bank.Rates" ∧
      f.implementations = 2 ∧ [f.missing, f.internalOnly, f.infrastructureOnly].count true = 0 ∧
      f.isDrivenExternally = true ∧ f.isDrivingCandidate = false ∧ f.isUndecided = false := by
  intro g
  have hfacts : ((PortFactsIndex.ofGraph g (.ofGraph g)).get? (.ofType "bank.Rates")).map
      (fun f => (f.implementations, f.missing, f.internalOnly, f.infrastructureOnly,
        f.isDrivenExternally)) = some (2, false, false, false, true) := by
    decide +kernel
  obtain ⟨f, hf, hanswers⟩ := Option.map_eq_some_iff.1 hfacts
  simp only [Prod.mk.injEq] at hanswers
  obtain ⟨hcount, hmissing, hinternal, hinfrastructure, hexternal⟩ := hanswers
  obtain ⟨hget, -, -, hcoherent⟩ := PortFactsIndex.entries_coherent .empty rateCalls
  obtain ⟨hmem, hid⟩ := (hget _ f).1 hf
  have hf' := (hcoherent f hmem).2
  have hdriven : f.isDriven = true := by
    rw [PortFacts.isDriven, hexternal, Bool.or_true, Bool.true_or]
  refine ⟨f, hmem, hid, hcount, by rw [hmissing, hinternal, hinfrastructure]; rfl, hexternal, ?_, ?_⟩
  · exact Bool.eq_false_iff.2 fun hdriving => hf'.direction ⟨hdriving, hdriven⟩
  · exact Bool.eq_false_iff.2 fun hundecided => (xor_iff_iff_not.1 hf'.verdict).1 hundecided
      (.inr (.inl hdriven))

end Example

end RoleAudit
