import RoleAudit.Proofs.Classification.Conflicts
import RoleAudit.Proofs.Graph.Part

/-!
# What evidence speaks of

Evidence can name other nodes: the repositories that keep a type, the parent it inherits a role from,
the types it is embedded in or injected into, the ports it goes through. Every one of these names
comes from a look-up that gives nodes of the graph, so no evidence speaks of a node that is not there.
This is shown for each built-in criterion and then for the results that are made of their matches.
-/

namespace RoleAudit

/-- The evidence names nodes of the graph only. -/
def Evidence.Within (g : Graph) (e : Evidence) : Prop := e.relatedNodes ⊆ g.nodeIds

/-- If it is a match, all its evidence names nodes of the graph only. -/
def Verdict.Within (g : Graph) : Verdict → Prop
  | .matched m => ∀ e ∈ m.evidence, e.Within g
  | _ => True

namespace Graph

variable {g : Graph}

theorem map_id_subset {ts : List TypeNode} (h : ∀ t ∈ ts, t.id ∈ g.nodeIds) :
    ts.map (·.id) ⊆ g.nodeIds := by
  intro id hid
  obtain ⟨t, ht, rfl⟩ := List.mem_map.1 hid
  exact h t ht

theorem Indexed.mem_nodeIds_of_mem_supertypeChain (h : g.Indexed) {fuel : Nat}
    {seen : List NodeId} {id : NodeId} {t : TypeNode} (ht : t ∈ g.supertypeChain fuel seen id) :
    t.id ∈ g.nodeIds := by
  induction fuel generalizing seen id with
  | zero => exact absurd ht List.not_mem_nil
  | succ fuel ih =>
    rw [supertypeChain] at ht
    split at ht
    · exact absurd ht List.not_mem_nil
    · rename_i s hs
      split at ht
      · exact absurd ht List.not_mem_nil
      · rcases List.mem_cons.1 ht with rfl | ht
        · exact h.mem_nodeIds_of_supertypeOf? hs
        · exact ih ht

end Graph

namespace Evidence

variable {g : Graph}

/-- Evidence that names no node. -/
theorem within_bare (kind : EvidenceKind) (description : String) :
    Within g { kind, description } :=
  List.nil_subset _

/-- Evidence that names types by their ids. -/
theorem within_ofTypes {ts : List TypeNode} (h : ∀ t ∈ ts, t.id ∈ g.nodeIds) (description : String) :
    (ofRelationship description (ts.map (·.id))).Within g :=
  Graph.map_id_subset h

end Evidence

namespace Verdict

variable {g : Graph} {m : Match}

theorem within_ite {p : Prop} [Decidable p] {v w : Verdict} (hv : v.Within g) (hw : w.Within g) :
    (if p then v else w).Within g := by
  split
  · exact hv
  · exact hw

theorem within_one {e : Evidence} (he : e.Within g) (hm : m.evidence = [e]) :
    (matched m).Within g := by
  intro e' he'
  rw [hm, List.mem_singleton] at he'
  rw [he']
  exact he

theorem within_two {e e' : Evidence} (he : e.Within g) (he' : e'.Within g)
    (hm : m.evidence = [e, e']) : (matched m).Within g := by
  intro e'' he''
  rw [hm] at he''
  rcases List.mem_pair.1 he'' with rfl | rfl
  · exact he
  · exact he'

/-- A match with one piece of evidence, which names no node. -/
theorem within_oneBare {kind : EvidenceKind} {description : String}
    (hm : m.evidence = [{ kind, description }]) : (matched m).Within g :=
  within_one (Evidence.within_bare _ _) hm

end Verdict

namespace Criterion

open Evidence (within_bare within_ofTypes)
open Verdict (within_ite within_one within_two within_oneBare)

/-- Whatever the criterion says of a type, its evidence names nodes of the graph only. -/
def Grounded (g : Graph) (c : Criterion) : Prop := ∀ t, (c.judge g t).Within g

theorem eq_of_sourceOfRole? {role : Role} {t parent : TypeNode} {source : String}
    (h : sourceOfRole? role t = some (parent, source)) : t = parent := by
  unfold sourceOfRole? at h
  split at h
  · rw [Option.ite_none_right_eq_some, Option.some.injEq, Prod.mk.injEq] at h
    exact h.2.1
  · exact nomatch h

section Grounded

variable {g : Graph} (h : g.Indexed)

include h

/-- The repositories that keep a type are interfaces of the graph. -/
theorem grounded_repositoryDominant : Grounded g repositoryDominant := by
  intro t
  dsimp only [repositoryDominant]
  split
  · rename_i r rs _ _ hrepositories
    refine within_two (within_ofTypes (fun i hi => ?_) _) (within_bare _ _) rfl
    rw [← hrepositories] at hi
    exact h.mem_nodeIds_of_mem_resolveTypes (List.mem_filter.1 hi).1
  · trivial

/-- The parent that states a role is a superclass or an interface in the graph. -/
theorem grounded_inherited (role : Role) : Grounded g (inherited role) := by
  intro t
  dsimp only [inherited]
  refine within_ite trivial ?_
  split
  · rename_i parent source hparent
    obtain ⟨s, hs, hsource⟩ := List.exists_of_findSome?_eq_some hparent
    obtain rfl := eq_of_sourceOfRole? hsource
    have hid : s.id ∈ g.nodeIds := by
      rcases List.mem_append.1 hs with hs | hs
      · exact h.mem_nodeIds_of_mem_supertypeChain hs
      · exact h.mem_nodeIds_of_mem_resolveTypes hs
    exact within_one (within_ofTypes (List.forall_mem_singleton.2 hid) _) rfl
  · trivial

/-- What a value object is embedded in is a type of the graph. -/
theorem grounded_embeddedValueObject : Grounded g embeddedValueObject := by
  intro t
  dsimp only [embeddedValueObject]
  split
  · rename_i c cs _ hcontainers
    refine within_two (within_ofTypes (fun owner howner => ?_) _) (within_bare _ _) rfl
    rw [← hcontainers] at howner
    exact h.mem_nodeIds_of_mem_resolveTypes (List.mem_filter.1 howner).1
  · trivial

theorem grounded_domainCriteria : ∀ c ∈ domainCriteria, Grounded g c := by
  have hrecord : Grounded g recordSingleId := by
    intro t
    dsimp only [recordSingleId]
    split
    · exact within_two (within_bare _ _) (within_bare _ _) rfl
    · trivial
  have hevent : Grounded g namingDomainEvent := fun _ => within_ite (within_oneBare rfl) trivial
  have hentity : Grounded g identityEntity := by
    intro t
    dsimp only [identityEntity]
    split
    · exact within_oneBare rfl
    · trivial
  simp only [domainCriteria, List.forall_mem_append, List.forall_mem_map, List.forall_mem_cons]
  refine ⟨⟨⟨⟨fun _ _ _ => ?_, fun _ _ _ => ?_⟩, ?_⟩, fun role _ => grounded_inherited h role⟩, ?_⟩
  · exact within_ite (within_oneBare rfl) trivial
  · exact within_ite (within_oneBare rfl) trivial
  · exact ⟨grounded_repositoryDominant h, hrecord, List.forall_mem_nil _⟩
  · exact ⟨grounded_embeddedValueObject h, hevent, hentity, List.forall_mem_nil _⟩

/-- The consumers of a driven port are types of the graph. -/
theorem grounded_injectedAsDependency (anchors : Anchors) :
    Grounded g (injectedAsDependency anchors) := by
  intro t
  refine within_ite (within_one (within_ofTypes (fun consumer hconsumer => ?_) _) rfl) trivial
  exact h.mem_nodeIds_of_mem_resolveTypes (List.mem_filter.1 hconsumer).1

/-- The types that signatures mention are types of the graph. -/
theorem grounded_signatureBasedDriven : Grounded g signatureBasedDriven := by
  intro t
  refine within_ite (within_one (within_ofTypes (fun u hu => ?_) _) rfl) trivial
  exact h.mem_nodeIds_of_mem_resolveTypes (List.mem_filter.1 hu).1

theorem grounded_portCriteria (facts : PortFactsIndex) (anchors : Anchors) :
    ∀ c ∈ portCriteria facts anchors, Grounded g c := by
  have hdriving : Grounded g (semanticDriving facts) := by
    intro t
    dsimp only [semanticDriving]
    split
    · exact within_ite (within_oneBare rfl) trivial
    · trivial
  have hdriven : ∀ role, Grounded g (semanticDriven facts role) := by
    intro role t
    dsimp only [semanticDriven]
    split
    · exact within_ite (within_oneBare rfl) trivial
    · trivial
  have hcommand : Grounded g commandPattern := fun _ =>
    within_ite trivial (within_ite (within_oneBare rfl) (within_ite (within_oneBare rfl) trivial))
  have hquery : Grounded g queryPattern := fun _ => within_ite (within_oneBare rfl) trivial
  have hpackage : ∀ name segment role, Grounded g (packageDirection name segment role) :=
    fun _ _ _ _ => within_ite (within_oneBare rfl) trivial
  simp only [portCriteria, List.forall_mem_append, List.forall_mem_map, List.forall_mem_cons]
  refine ⟨⟨⟨⟨fun _ _ _ => ?_, hdriving, List.forall_mem_nil _⟩, fun role _ => hdriven role⟩,
    fun _ _ _ => ?_⟩, ?_⟩
  · exact within_ite (within_oneBare rfl) trivial
  · exact within_ite (within_oneBare rfl) trivial
  · exact ⟨hcommand, hquery, grounded_injectedAsDependency h anchors,
      grounded_signatureBasedDriven h, hpackage _ _ _, hpackage _ _ _, List.forall_mem_nil _⟩

/-- The ports that data goes through are interfaces of the graph. -/
theorem grounded_namingData (name : String) (endings : List String) (role : Role) (priority : Nat)
    (confidence : Confidence) :
    Grounded g (namingData name endings role priority confidence) := by
  intro t
  dsimp only [namingData]
  split
  · refine List.forall_mem_cons.2 ⟨within_bare _ _, ?_⟩
    split
    · exact List.forall_mem_nil _
    · refine List.forall_mem_singleton.2 (within_ofTypes (fun port hport => ?_) _)
      exact h.mem_nodeIds_of_mem_resolveTypes hport
  · trivial

/-- The evidence of every built-in criterion names nodes of the graph only. -/
theorem grounded_builtIn (facts : PortFactsIndex) (anchors : Anchors) :
    ∀ c ∈ builtIn facts anchors, Grounded g c := by
  have hdata : ∀ c ∈ dataCriteria, Grounded g c := by
    simp only [dataCriteria, List.forall_mem_cons]
    exact ⟨grounded_namingData h _ _ _ _ _, grounded_namingData h _ _ _ _ _,
      grounded_namingData h _ _ _ _ _, List.forall_mem_nil _⟩
  rw [builtIn, List.forall_mem_append, List.forall_mem_append]
  exact ⟨⟨grounded_domainCriteria h, grounded_portCriteria h facts anchors⟩, hdata⟩

end Grounded

/-! ## Results -/

theorem within_contributions {g : Graph} {criteria : List Criterion}
    (hcriteria : ∀ c ∈ criteria, Grounded g c) {families : List Family} {t : TypeNode}
    {x : Contribution} (hx : x ∈ (evaluate criteria g families t).contributions) :
    ∀ e ∈ x.evidence, e.Within g := by
  obtain ⟨c, hc, hcontribution⟩ := List.mem_filterMap.1 hx
  obtain ⟨m, hm, rfl⟩ := contribution?_eq_some.1 hcontribution
  have hgrounded := hcriteria c (List.mem_filter.1 hc).1 t
  rw [hm] at hgrounded
  exact hgrounded

theorem within_diagnostics {g : Graph} {criteria : List Criterion} {families : List Family}
    {t : TypeNode} {e : Evidence} (he : e ∈ (evaluate criteria g families t).diagnostics) :
    e.Within g := by
  obtain ⟨c, -, hdiagnostic⟩ := List.mem_filterMap.1 he
  obtain ⟨message, -, rfl⟩ := Option.map_eq_some_iff.1 hdiagnostic
  exact within_bare _ _

end Criterion

/-- The evidence of a result is that of contributions, with remarks between them. -/
theorem ClassificationResult.within_ofDecision {g : Graph} {id : NodeId} {target : Family}
    {hasSignal : Bool} {d : Decision} (h : ∀ x ∈ d.contributions, ∀ e ∈ x.evidence, e.Within g) :
    ∀ e ∈ (ofDecision id target hasSignal d).evidence, e.Within g := by
  intro e he
  cases d with
  | empty => exact absurd he List.not_mem_nil
  | winner first others => exact h first List.mem_cons_self e he
  | conflict tied others =>
    obtain ⟨x, hx, he⟩ := List.mem_flatMap.1 he
    rcases List.mem_cons.1 he with rfl | he
    · exact Evidence.within_bare _ _
    · exact h x (List.mem_append_left _ hx) e he

namespace Classifier

variable {g : Graph} (h : g.Indexed) {c : Classifier} (hcustom : c.custom = [])

include h hcustom

theorem within_judgedResult (t : TypeNode) :
    ∀ e ∈ (judgedResult (c.criteria g) g t).evidence ++ (judgedResult (c.criteria g) g t).diagnostics,
      e.Within g := by
  have hcriteria : ∀ k ∈ c.criteria g, k.Grounded g := by
    rw [criteria, hcustom, List.append_nil]
    exact Criterion.grounded_builtIn h _ _
  refine List.forall_mem_append.2 ⟨?_, fun e he => Criterion.within_diagnostics he⟩
  refine ClassificationResult.within_ofDecision fun x hx => ?_
  exact Criterion.within_contributions hcriteria ((Decision.contributions_decide_perm _).mem_iff.1 hx)

/-- A result is that of a type of the graph, and all its evidence names nodes of the graph. -/
theorem within_results {r : ClassificationResult} (hr : r ∈ (c.classify g).results) :
    r.nodeId ∈ g.nodeIds ∧ ∀ e ∈ r.evidence ++ r.diagnostics, e.Within g := by
  obtain ⟨t, ht, rfl⟩ := List.mem_map.1 hr
  have hid : t.id ∈ g.nodeIds := h.mem_nodeIds_of_mem_types (List.mem_filter.1 ht).1
  refine ⟨(nodeId_result c _ t).symm ▸ hid, ?_⟩
  unfold result
  split
  · exact List.forall_mem_singleton.2 (Evidence.within_bare _ _)
  · exact within_judgedResult h hcustom t

end Classifier

end RoleAudit
