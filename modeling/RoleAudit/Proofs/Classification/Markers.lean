import RoleAudit.Proofs.Classification.Decided

/-!
# Markers decide alone

A declaration can state its role: an interface by a marker of a port, any other type by a marker or a
marker interface of the domain. The criteria that look for these markers read nothing but the
declaration, match with the highest confidence and have the highest priority of all built-in criteria.
So with the built-in criteria alone a type that states its role is decided by its declaration, in
whatever graph it stands.
-/

namespace RoleAudit

open Contribution

namespace TypeNode

/-- The declaration states a role that a type of its form can have. -/
def isMarked (t : TypeNode) : Bool :=
  if t.isInterface then Criterion.portRoleMarkers.any (t.isAnnotatedWith ·.1)
  else Criterion.domainMarkers.any (t.isAnnotatedWith ·.1)
    || Criterion.domainInterfaces.any (t.listsInterface ·.1)

/-- Two declarations of one type that carry the same markers. All else may differ. -/
structure SameMarkers (t t' : TypeNode) : Prop where
  id : t'.id = t.id
  form : t'.form = t.form
  annotations : t'.annotations = t.annotations
  interfaces : t'.interfaces = t.interfaces

namespace SameMarkers

variable {t t' : TypeNode} (h : t.SameMarkers t')

include h

theorem isInterface_eq : t'.isInterface = t.isInterface := by
  rw [isInterface, isInterface, h.form]

theorem isAnnotatedWith_eq (name : String) : t'.isAnnotatedWith name = t.isAnnotatedWith name := by
  rw [isAnnotatedWith, isAnnotatedWith, h.annotations]

theorem listsInterface_eq (name : String) : t'.listsInterface name = t.listsInterface name := by
  rw [listsInterface, listsInterface, h.interfaces]

end SameMarkers

end TypeNode

namespace Criterion

/-! ## Criteria on markers -/

/-- The criterion tests the markers of a declaration, and matches with the highest standing. -/
structure TestsMarkers (k : Criterion) (test : TypeNode → Bool) : Prop where
  priority : k.priority = Priority.explicit
  same : ∀ t t', t.SameMarkers t' → test t' = test t
  judge : ∃ m : Match, m.confidence = .high ∧
    ∀ g t, k.judge g t = if test t then .matched m else .silent

theorem testsMarkers_explicitDomain (marker : String) (role : Role) :
    (explicitDomain marker role).TestsMarkers (·.isAnnotatedWith marker) where
  priority := rfl
  same _ _ h := h.isAnnotatedWith_eq marker
  judge := ⟨_, rfl, fun _ _ => rfl⟩

theorem testsMarkers_implementsDomain (interface : String) (role : Role) :
    (implementsDomain interface role).TestsMarkers
      fun t => !t.isInterface && t.listsInterface interface where
  priority := rfl
  same _ _ h := by rw [h.isInterface_eq, h.listsInterface_eq]
  judge := ⟨_, rfl, fun _ _ => rfl⟩

theorem testsMarkers_explicitPort (marker : String) (role : Role) :
    (explicitPort marker role).TestsMarkers
      fun t => t.isInterface && t.isAnnotatedWith marker where
  priority := rfl
  same _ _ h := by rw [h.isInterface_eq, h.isAnnotatedWith_eq]
  judge := ⟨_, rfl, fun _ _ => rfl⟩

section TestsMarkers

variable {k : Criterion} {test : TypeNode → Bool} (h : k.TestsMarkers test) {g g' : Graph}
  {t t' : TypeNode}

include h

theorem TestsMarkers.exists_contribution (htest : test t = true) :
    ∃ x, k.contribution? g t = some x := by
  obtain ⟨m, -, hjudge⟩ := h.judge
  refine ⟨k.contribution m, contribution?_eq_some.2 ⟨m, ?_, rfl⟩⟩
  rw [hjudge, htest]
  rfl

theorem TestsMarkers.standing_eq {x : Contribution} (hx : k.contribution? g t = some x) :
    x.standing = toLex (100, 2) := by
  obtain ⟨m, hconfidence, hjudge⟩ := h.judge
  obtain ⟨m', hm', rfl⟩ := contribution?_eq_some.1 hx
  rw [hjudge] at hm'
  split at hm'
  · obtain rfl : m = m' := Verdict.matched.inj hm'
    rw [standing, contribution, h.priority, hconfidence]
    rfl
  · cases hm'

theorem TestsMarkers.contribution?_eq (hsame : t.SameMarkers t') :
    k.contribution? g' t' = k.contribution? g t := by
  obtain ⟨m, -, hjudge⟩ := h.judge
  rw [contribution?, contribution?, hjudge, hjudge, h.same t t' hsame]

end TestsMarkers

/-- The criteria on markers that are asked about an interface, or about any other type. -/
def onMarkers (isInterface : Bool) : List Criterion :=
  if isInterface then portRoleMarkers.map fun (marker, role) => explicitPort marker role
  else domainMarkers.map (fun (marker, role) => explicitDomain marker role)
    ++ domainInterfaces.map fun (interface, role) => implementsDomain interface role

theorem testsMarkers_of_mem {isInterface : Bool} {k : Criterion} (hk : k ∈ onMarkers isInterface) :
    ∃ test, k.TestsMarkers test := by
  cases isInterface with
  | true =>
    obtain ⟨⟨marker, role⟩, -, rfl⟩ := List.mem_map.1 hk
    exact ⟨_, testsMarkers_explicitPort marker role⟩
  | false =>
    rcases List.mem_append.1 hk with hk | hk
    · obtain ⟨⟨marker, role⟩, -, rfl⟩ := List.mem_map.1 hk
      exact ⟨_, testsMarkers_explicitDomain marker role⟩
    · obtain ⟨⟨interface, role⟩, -, rfl⟩ := List.mem_map.1 hk
      exact ⟨_, testsMarkers_implementsDomain interface role⟩

/-- A marker is found. -/
theorem exists_contribution_of_isMarked {t : TypeNode} (ht : t.isMarked = true) (g : Graph) :
    ∃ k ∈ onMarkers t.isInterface, ∃ x, k.contribution? g t = some x := by
  unfold TypeNode.isMarked at ht
  cases hform : t.isInterface with
  | true =>
    rw [hform, if_pos rfl, List.any_eq_true] at ht
    obtain ⟨⟨marker, role⟩, hentry, hmarker⟩ := ht
    refine ⟨explicitPort marker role, List.mem_map.2 ⟨_, hentry, rfl⟩, ?_⟩
    refine (testsMarkers_explicitPort marker role).exists_contribution ?_
    rw [hform, hmarker]
    rfl
  | false =>
    rw [hform, if_neg Bool.false_ne_true, Bool.or_eq_true, List.any_eq_true, List.any_eq_true] at ht
    rcases ht with ⟨⟨marker, role⟩, hentry, hmarker⟩ | ⟨⟨interface, role⟩, hentry, hlists⟩
    · refine ⟨explicitDomain marker role,
        List.mem_append_left _ (List.mem_map.2 ⟨_, hentry, rfl⟩), ?_⟩
      exact (testsMarkers_explicitDomain marker role).exists_contribution hmarker
    · refine ⟨implementsDomain interface role,
        List.mem_append_right _ (List.mem_map.2 ⟨_, hentry, rfl⟩), ?_⟩
      refine (testsMarkers_implementsDomain interface role).exists_contribution ?_
      rw [hform, hlists]
      rfl

end Criterion

namespace Classifier

variable {c c' : Classifier} {g g' : Graph} {t t' : TypeNode}

/-- The type is one of the graph, and the settings neither leave it out nor give it a role, so that it
is put to the criteria. -/
structure Asks (c : Classifier) (g : Graph) (t : TypeNode) : Prop where
  mem : t ∈ g.types
  kept : c.excludes t = false
  unset : c.explicit.get? t.name = none

/-- The criteria that a type is put to count no more than those on markers, and those that count as
much are those on markers. -/
theorem exists_asked (hcustom : c.custom = []) (g : Graph) (t : TypeNode) :
    ∃ asked : List Criterion, c.proposals g t = asked.filterMap (·.contribution? g t) ∧
      asked.filter (·.priority = Priority.explicit) = Criterion.onMarkers t.isInterface ∧
      asked.all (·.priority ≤ Priority.explicit) = true := by
  simp only [proposals, Criterion.evaluate, criteria, hcustom, List.append_nil, Graph.familiesOf]
  refine ⟨_, rfl, ?_⟩
  cases t.isInterface with
  | true =>
    rw [if_pos rfl, Criterion.asked_interface]
    exact ⟨rfl, rfl⟩
  | false =>
    rw [if_neg Bool.false_ne_true]
    split
    · rw [Criterion.asked_domain]
      exact ⟨rfl, rfl⟩
    · rw [Criterion.asked_inner]
      exact ⟨rfl, rfl⟩

/-- The criteria on markers make the contributions of the greatest standing there can be. -/
theorem ofStanding_proposals (hcustom : c.custom = []) (g : Graph) (t : TypeNode) :
    ofStanding (toLex (100, 2)) (c.proposals g t)
      = (Criterion.onMarkers t.isInterface).filterMap (·.contribution? g t) := by
  obtain ⟨asked, hproposals, hmarkers, -⟩ := exists_asked hcustom g t
  rw [hproposals, Criterion.ofStanding_filterMap]
  show ofStanding _ ((asked.filter (·.priority = Priority.explicit)).filterMap _) = _
  rw [hmarkers]
  refine List.filter_eq_self.2 fun x hx => ?_
  obtain ⟨k, hk, hcontribution⟩ := List.mem_filterMap.1 hx
  obtain ⟨test, htest⟩ := Criterion.testsMarkers_of_mem hk
  exact decide_eq_true (htest.standing_eq hcontribution)

theorem isTop_proposals (hcustom : c.custom = []) (g : Graph) (ht : t.isMarked = true) :
    IsTop (c.proposals g t) (toLex (100, 2)) := by
  obtain ⟨asked, hproposals, -, hpriorities⟩ := exists_asked hcustom g t
  constructor
  · obtain ⟨k, hk, x, hx⟩ := Criterion.exists_contribution_of_isMarked ht g
    have hmem : x ∈ ofStanding (toLex (100, 2)) (c.proposals g t) := by
      rw [ofStanding_proposals hcustom]
      exact List.mem_filterMap.2 ⟨k, hk, hx⟩
    exact ⟨x, mem_ofStanding.1 hmem⟩
  · rintro S ⟨x, hx, rfl⟩
    rw [hproposals] at hx
    obtain ⟨k, hk, hcontribution⟩ := List.mem_filterMap.1 hx
    have hle : k.priority ≤ 100 := of_decide_eq_true (List.all_eq_true.1 hpriorities k hk)
    rw [← Criterion.priority_of_contribution? hcontribution] at hle
    have hstrength : x.confidence.strength ≤ 2 := by cases x.confidence <;> decide
    rw [standing, Prod.Lex.toLex_le_toLex]
    omega

/-- A type that is put to the built-in criteria alone and states its role is decided with the priority
of markers. -/
theorem decidedAt_of_isMarked (hcustom : c.custom = []) (g : Graph) (ht : t.isMarked = true) :
    (judgedResult (c.criteria g) g t).DecidedAt 100 :=
  ClassificationResult.decidedAt_of_isTop (isTop_proposals hcustom g ht)

/-- Markers decide alone. Take a type in two graphs whose look-ups are scans, as they are in every graph
that insertions make. In both it has one id, form, annotations and listed interfaces, and it states a
role by them. Two classifiers have no criteria but the built-in ones, and neither leaves the type out or
has a role for it. Then the two results have one status, target, role, confidence, priority, criterion,
justification, direction and evidence, and it is the markers that decide. -/
theorem markers_decide_alone {c c' : Classifier} (hcustom : c.custom = []) (hcustom' : c'.custom = [])
    {g g' : Graph} (h : g.Indexed) (h' : g'.Indexed) {t t' : TypeNode} (hsame : t.SameMarkers t')
    (hmarked : t.isMarked = true) (hasks : c.Asks g t) (hasks' : c'.Asks g' t') :
    ∃ r r', (c.classify g).get? t.id = some r ∧ (c'.classify g').get? t.id = some r' ∧
      r'.decided = r.decided ∧ r.DecidedAt 100 := by
  have hform := hsame.isInterface_eq
  have hmarked' : t'.isMarked = true := by
    simpa only [TypeNode.isMarked, hform, hsame.isAnnotatedWith_eq, hsame.listsInterface_eq]
      using hmarked
  have htied : ofStanding (toLex (100, 2)) (c'.proposals g' t')
      = ofStanding (toLex (100, 2)) (c.proposals g t) := by
    rw [ofStanding_proposals hcustom, ofStanding_proposals hcustom', hform]
    refine List.filterMap_congr fun k hk => ?_
    obtain ⟨test, htest⟩ := Criterion.testsMarkers_of_mem hk
    exact htest.contribution?_eq hsame
  have hfamily : t'.primaryFamily = t.primaryFamily := by
    rw [TypeNode.primaryFamily, TypeNode.primaryFamily, hform]
  have hdecided : (judgedResult (c'.criteria g') g' t').decided
      = (judgedResult (c.criteria g) g t).decided := by
    show (ClassificationResult.ofDecision t'.id t'.primaryFamily _ _).decided = _
    rw [hsame.id, hfamily]
    exact ClassificationResult.decided_eq_of_tied (isTop_proposals hcustom g hmarked)
      (isTop_proposals hcustom' g' hmarked') htied
  refine ⟨_, _, get?_of_open h hasks.mem hasks.kept hasks.unset, ?_, hdecided,
    decidedAt_of_isMarked hcustom g hmarked⟩
  rw [← hsame.id]
  exact get?_of_open h' hasks'.mem hasks'.kept hasks'.unset

section Example

/-- A parcel that is said to be an entity and a value object. -/
def parcel : SourceType where
  name := "post.Parcel"
  form := .plainClass
  annotations := [.ofName "org.jmolecules.ddd.annotation.Entity",
    .ofName "org.jmolecules.ddd.annotation.ValueObject"]

/-- The parcel with an identity and a superclass. -/
def trackedParcel : SourceType :=
  { parcel.extending "post.Freight" with fields := [.privateFinal "id" (.plain "long")] }

/-- A repository that keeps parcels. -/
def parcelRepository : SourceType where
  name := "post.ParcelRepository"
  form := .interface
  methods := [{ name := "find", returnType := .plain "post.Parcel" }]

/-- Freight, which is said to be an aggregate root. -/
def freight : SourceType where
  name := "post.Freight"
  form := .plainClass
  annotations := [.ofName "org.jmolecules.ddd.annotation.AggregateRoot"]

/-- The parcel on its own. -/
def parcelGraph : Graph := (Model.build { types := [parcel] }).toOption.getD .empty

/-- The post, where parcels are freight and are kept in a repository. -/
def postGraph : Graph :=
  (Model.build { types := [freight, trackedParcel, parcelRepository] }).toOption.getD .empty

/-- The repository makes the parcel an aggregate root and so does the superclass, but its own markers
contradict each other, and so it is in the same conflict as on its own. -/
theorem parcel_in_conflict_everywhere :
    parcel.toNode.SameMarkers trackedParcel.toNode ∧ parcel.toNode.isMarked = true ∧
      ∃ r r', (unconfigured.classify parcelGraph).get? parcel.id = some r ∧
        (unconfigured.classify postGraph).get? parcel.id = some r' ∧
        r.status = .conflict ∧ r'.decided = r.decided := by
  have hparcel : Model.Builds { types := [parcel] } true parcelGraph :=
    Model.builds_build (by decide)
  have hpost : Model.Builds { types := [freight, trackedParcel, parcelRepository] } true postGraph :=
    Model.builds_build (by decide)
  have hsame : parcel.toNode.SameMarkers trackedParcel.toNode := ⟨rfl, rfl, rfl, rfl⟩
  have hmarked : parcel.toNode.isMarked = true := by decide
  have hasks : unconfigured.Asks parcelGraph parcel.toNode :=
    ⟨hparcel.mem_types (by simp), rfl, rfl⟩
  have hasks' : unconfigured.Asks postGraph trackedParcel.toNode :=
    ⟨hpost.mem_types (by simp), rfl, rfl⟩
  obtain ⟨r, r', hr, hr', hdecided, -⟩ :=
    markers_decide_alone rfl rfl hparcel.indexed hpost.indexed hsame hmarked hasks hasks'
  obtain rfl := Option.some.inj
    (hr.symm.trans (get?_of_open hparcel.indexed hasks.mem hasks.kept hasks.unset))
  have hcontra : Contradictory
      (ofStanding (toLex (100, 2)) (unconfigured.proposals parcelGraph parcel.toNode)) :=
    Decision.hasContradiction_iff.1 (by decide +kernel)
  have hstatus := (status_judgedResult_iff (isTop_proposals rfl parcelGraph hmarked)).2 hcontra
  exact ⟨hsame, hmarked, _, r', hr, hr', hstatus, hdecided⟩

end Example

end Classifier

end RoleAudit
