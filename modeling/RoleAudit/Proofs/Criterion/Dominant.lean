import RoleAudit.Proofs.Classification.Signal
import RoleAudit.Proofs.Model.SignaturePlaces

/-!
# The dominant type of a repository

Which type a repository keeps is asked from the side of the type: it looks for the interfaces whose
signatures mention it, and then for the dominant type of each. The dominant type is found from the side
of the interface. Both look-ups come from the same edges, so a repository is cited for one type at most:
the earliest of those with an identity that its signatures mention most often.

What is counted are the places of the signatures, and not the methods. A type that one method takes and
gives back has two places, as many as a type that two methods give back.
-/

namespace RoleAudit

/-- The first of the greatest items that pass a test, in the order of the whole list. -/
theorem argmax_filter_eq_some_iff {β : Type} [DecidableEq β] {f : β → Nat} {p : β → Bool}
    {items : List β} {b : β} :
    (items.filter p).argmax f = some b ↔
      p b = true ∧ (∀ c ∈ items, p c = true → f c ≤ f b) ∧
      ∃ before after, items = before ++ b :: after ∧ ∀ c ∈ before, p c = true → f c < f b := by
  rw [List.argmax_eq_some_iff]
  constructor
  · rintro ⟨hb, hmost, hfirst⟩
    obtain ⟨hb, hpb⟩ := List.mem_filter.1 hb
    refine ⟨hpb, fun c hc hpc => hmost c (List.mem_filter.2 ⟨hc, hpc⟩), ?_⟩
    obtain ⟨before, after, rfl, hbefore⟩ := List.eq_append_cons_of_mem hb
    refine ⟨before, after, rfl, fun c hc hpc => ?_⟩
    -- otherwise `c` would be as great, and stand before `b` among those that pass
    by_contra hle
    have hc' : c ∈ before.filter p := List.mem_filter.2 ⟨hc, hpc⟩
    have hidx := hfirst c (List.mem_filter.2 ⟨List.mem_append_left _ hc, hpc⟩) (Nat.not_lt.1 hle)
    rw [List.filter_append, List.idxOf_append_of_mem hc',
      List.idxOf_append_of_notMem fun hin => hbefore (List.mem_filter.1 hin).1] at hidx
    have hlt := List.idxOf_lt_length_of_mem hc'
    omega
  · rintro ⟨hpb, hmost, before, after, rfl, hbefore⟩
    have hb : b ∈ (before ++ b :: after).filter p :=
      List.mem_filter.2 ⟨List.mem_append_right _ List.mem_cons_self, hpb⟩
    refine ⟨hb, fun c hc => hmost c (List.mem_filter.1 hc).1 (List.mem_filter.1 hc).2, ?_⟩
    intro c hc hle
    have hpc := (List.mem_filter.1 hc).2
    have hnot : ∀ {d}, p d = true → f b ≤ f d → d ∉ before.filter p := fun hpd hle hin =>
      Nat.not_lt.2 hle (hbefore _ (List.mem_filter.1 hin).1 hpd)
    rw [List.filter_append, List.idxOf_append_of_notMem (hnot hpb (Nat.le_refl _)),
      List.idxOf_append_of_notMem (hnot hpc hle), List.filter_cons_of_pos hpb, List.idxOf_cons_self]
    omega

namespace Criterion

/-- The criterion matches a type, and its evidence cites a node. -/
def Cites (c : Criterion) (g : Graph) (t : TypeNode) (id : NodeId) : Prop :=
  ∃ m, c.judge g t = .matched m ∧ ∃ e ∈ m.evidence, id ∈ e.relatedNodes

/-- In how many places the signatures of a repository mention a type. -/
def placesOf (g : Graph) (repository t : TypeNode) : Nat :=
  (g.signatureProofs repository.id t.id).length

/-- Of the types with an identity that the signatures of a repository mention, interfaces apart, the one
that is mentioned in the most places, and of several such types the earliest. -/
structure IsDominant (g : Graph) (repository t : TypeNode) : Prop where
  /-- It is no interface. -/
  inner : t.isInterface = false
  /-- It has an identity. -/
  identity : g.hasIdentity t = true
  /-- No other is mentioned in more places. -/
  most : ∀ u ∈ g.signatureTypesOf repository.id, u.isInterface = false → g.hasIdentity u = true →
    placesOf g repository u ≤ placesOf g repository t
  /-- Those before it are mentioned in fewer places. -/
  earliest : ∃ before after, g.signatureTypesOf repository.id = before ++ t :: after ∧
    ∀ u ∈ before, u.isInterface = false → g.hasIdentity u = true →
      placesOf g repository u < placesOf g repository t

variable {g : Graph} {r t : TypeNode}

theorem IsDominant.mem (h : IsDominant g r t) : t ∈ g.signatureTypesOf r.id := by
  obtain ⟨before, after, htypes, -⟩ := h.earliest
  rw [htypes]
  exact List.mem_append_right _ List.mem_cons_self

/-- Keeping the one that is used more is keeping the first of the greatest. -/
theorem foldl_moreUsed (uses : TypeNode → Nat) (ts : List TypeNode) (best : Option TypeNode) :
    (ts.map fun t => (t, uses t)).foldl moreUsed (best.map fun t => (t, uses t))
      = (ts.foldl (List.argAux fun b c => uses c < uses b) best).map fun t => (t, uses t) := by
  induction ts generalizing best with
  | nil => rfl
  | cons t rest ih =>
    have hstep : moreUsed (best.map fun t => (t, uses t)) (t, uses t)
        = (List.argAux (fun b c => uses c < uses b) best t).map fun t => (t, uses t) := by
      cases best with
      | none => rfl
      | some b =>
        simp only [Option.map_some, moreUsed, List.argAux]
        split
        · rename_i hle
          rw [if_neg (Nat.not_lt.2 hle), Option.map_some]
        · rename_i hlt
          rw [if_pos (Nat.not_le.1 hlt), Option.map_some]
    rw [List.map_cons, List.foldl_cons, List.foldl_cons, hstep, ih]

theorem dominantType?_eq_some_iff : dominantType? g r = some t ↔ IsDominant g r t := by
  have hargmax : dominantType? g r
      = ((g.signatureTypesOf r.id).filter fun t => !t.isInterface && g.hasIdentity t).argmax
          (placesOf g r) := by
    rw [dominantType?]
    have hfold := foldl_moreUsed (placesOf g r)
      ((g.signatureTypesOf r.id).filter fun t => !t.isInterface && g.hasIdentity t) none
    rw [Option.map_none] at hfold
    show Option.map _ (List.foldl moreUsed none (List.map (fun t => (t, placesOf g r t)) _)) = _
    rw [hfold, Option.map_map]
    exact Option.map_id'
  rw [hargmax, argmax_filter_eq_some_iff]
  simp only [Bool.and_eq_true, Bool.not_eq_true', and_imp]
  constructor
  · rintro ⟨⟨hinner, hidentity⟩, hmost, hearliest⟩
    exact ⟨hinner, hidentity, hmost, hearliest⟩
  · intro h
    exact ⟨⟨h.inner, h.identity⟩, h.most, h.earliest⟩

/-- The criterion cites the repositories whose dominant type it was asked about. -/
theorem cites_repositoryDominant_iff {id : NodeId} :
    repositoryDominant.Cites g t id ↔
      t.isClassOrRecord = true ∧ g.hasIdentity t = true ∧
        ∃ r ∈ dominatedRepositories g t, r.id = id := by
  unfold Cites repositoryDominant Graph.hasIdentity
  dsimp only
  split
  · rename_i field r rs hclass hfield hrepositories
    simp only [hclass, hfield, hrepositories, Option.isSome_some, true_and, ← List.mem_map]
    constructor
    · rintro ⟨m, hm, e, he, hid⟩
      obtain rfl := Verdict.matched.inj hm
      simp only [List.mem_cons, List.not_mem_nil, or_false] at he
      rcases he with rfl | rfl
      · exact hid
      · exact absurd hid List.not_mem_nil
    · intro hid
      exact ⟨_, rfl, _, List.mem_cons_self, hid⟩
  · rename_i hnone
    constructor
    · rintro ⟨m, hm, -⟩
      exact nomatch hm
    · rintro ⟨hclass, hidentity, r, hr, -⟩
      obtain ⟨field, hfield⟩ := Option.isSome_iff_exists.1 hidentity
      obtain ⟨r', rs, hrs⟩ := List.exists_cons_of_ne_nil (List.ne_nil_of_mem hr)
      exact absurd hrs (hnone field r' rs hclass hfield)

end Criterion

/-! ## Both look-ups agree -/

namespace Graph

variable {g : Graph} (h : g.Indexed) {r t : TypeNode}

include h

theorem Indexed.mem_resolveTypes_iff (ht : t ∈ g.types) {ids : List NodeId} :
    t ∈ g.resolveTypes ids ↔ t.id ∈ ids :=
  ⟨fun hmem => (h.type?_of_mem_resolveTypes hmem).1,
    fun hid => List.mem_filterMap.2 ⟨t.id, hid, h.type?_of_mem_types ht⟩⟩

/-- An interface is found from a type that its signatures mention, and the type from the interface. -/
theorem Indexed.mem_interfacesUsing_iff (hr : r ∈ g.types) (ht : t ∈ g.types) :
    r ∈ g.interfacesUsing t.id ↔ t ∈ g.signatureTypesOf r.id := by
  rw [interfacesUsing, signatureTypesOf, h.mem_resolveTypes_iff hr, h.mem_resolveTypes_iff ht,
    h.signatureUsers, h.signatureTypes, mem_distinct, mem_distinct, mem_targetsOf_iff]

theorem Indexed.mem_types_of_mem_resolveTypes {ids : List NodeId} (ht : t ∈ g.resolveTypes ids) :
    t ∈ g.types := by
  rw [h.types_eq]
  exact (h.type?_eq_some.1 (h.type?_of_mem_resolveTypes ht).2).1

/-- What some proof says that the signatures of an interface mention is among what they mention. -/
theorem Indexed.mem_signatureTypesOf (ht : t ∈ g.types) {interface : NodeId} {proof : EdgeProof}
    (hproof : proof ∈ g.signatureProofs interface t.id) : t ∈ g.signatureTypesOf interface := by
  rw [h.signatureProofs, mem_distinct] at hproof
  obtain ⟨e, he, -⟩ := List.mem_filterMap.1 hproof
  obtain ⟨he, hends⟩ := List.mem_filter.1 he
  obtain ⟨hkind, hsource, htarget⟩ := of_decide_eq_true hends
  rw [signatureTypesOf, h.mem_resolveTypes_iff ht, h.signatureTypes, mem_distinct, targetsOf]
  exact List.mem_map.2 ⟨e, List.mem_filter.2 ⟨he, decide_eq_true ⟨hkind, hsource⟩⟩, htarget⟩

theorem Indexed.eq_of_id_eq (hr : r ∈ g.types) (ht : t ∈ g.types) (hid : r.id = t.id) : r = t := by
  have hr' := h.type?_of_mem_types hr
  rw [hid, h.type?_of_mem_types ht] at hr'
  exact (Option.some.inj hr').symm

end Graph

namespace Criterion

variable {g : Graph} {r t : TypeNode}

/-- A repository is cited for a class or record that is its dominant type, and for nothing else. -/
theorem cites_iff_isDominant (h : g.Indexed) (hr : r ∈ g.types) (ht : t ∈ g.types) :
    repositoryDominant.Cites g t r.id ↔
      Text.endsWith "Repository" r.simpleName = true ∧ t.isClassOrRecord = true ∧
        IsDominant g r t := by
  rw [cites_repositoryDominant_iff]
  simp only [dominatedRepositories, List.mem_filter, Bool.and_eq_true, Option.any_eq_true]
  constructor
  · rintro ⟨hclass, -, r', ⟨hr', hname, u, hu, hid⟩, hrid⟩
    obtain rfl := h.eq_of_id_eq (h.mem_types_of_mem_resolveTypes hr') hr hrid
    have hdominant := dominantType?_eq_some_iff.1 hu
    obtain rfl := h.eq_of_id_eq (h.mem_types_of_mem_resolveTypes hdominant.mem) ht
      (of_decide_eq_true hid)
    exact ⟨hname, hclass, hdominant⟩
  · rintro ⟨hname, hclass, hdominant⟩
    refine ⟨hclass, hdominant.identity, r, ⟨?_, hname, t, ?_, decide_eq_true rfl⟩, rfl⟩
    · exact (h.mem_interfacesUsing_iff hr ht).2 hdominant.mem
    · exact dominantType?_eq_some_iff.2 hdominant

/-- One type dominates a repository. Take a graph whose look-ups are scans, as they are in every graph
that insertions make, and a type of it whose name ends in `Repository`. The criterion on repositories
cites it for one type at most. This is a class or record with an identity, and of the types with an
identity that the signatures of the repository mention, interfaces apart, it is the earliest of those
that are mentioned in the most places. For such a type the repository is cited. -/
theorem one_type_dominates_repository {g : Graph} (h : g.Indexed) {r : TypeNode} (hr : r ∈ g.types)
    (hname : Text.endsWith "Repository" r.simpleName = true) :
    (∀ t ∈ g.types, ∀ t' ∈ g.types, repositoryDominant.Cites g t r.id →
      repositoryDominant.Cites g t' r.id → t = t') ∧
    ∀ t ∈ g.types, repositoryDominant.Cites g t r.id ↔
      t.isClassOrRecord = true ∧ IsDominant g r t := by
  refine ⟨fun t ht t' ht' hcites hcites' => ?_, fun t ht => ?_⟩
  · have hdominant := ((cites_iff_isDominant h hr ht).1 hcites).2.2
    have hdominant' := ((cites_iff_isDominant h hr ht').1 hcites').2.2
    exact Option.some.inj
      ((dominantType?_eq_some_iff.2 hdominant).symm.trans (dominantType?_eq_some_iff.2 hdominant'))
  · rw [cites_iff_isDominant h hr ht, and_iff_right hname]

section Example

/-- A class that has an identity. -/
def exhibit (name : String) : SourceType where
  name := name
  form := .plainClass
  fields := [.privateFinal "id" (.plain "long")]

def painting : SourceType := exhibit "art.Painting"

def collector : SourceType := exhibit "art.Collector"

/-- Two places for paintings, in one signature, and two for collectors, in two signatures. -/
def paintingRepository : SourceType where
  name := "art.PaintingRepository"
  form := .interface
  methods := [
    { name := "trade", returnType := .plain painting.name,
      parameters := [{ name := "offered", type := .plain painting.name }] },
    { name := "owner", returnType := .plain collector.name },
    { name := "buyer", returnType := .plain collector.name }]

/-- Two places for collectors and one for paintings, each in a signature of its own. -/
def loanRepository : SourceType where
  name := "art.LoanRepository"
  form := .interface
  methods := [
    { name := "lender", returnType := .plain collector.name },
    { name := "borrower", returnType := .plain collector.name },
    { name := "lent", returnType := .plain painting.name }]

def gallery : Model := { types := [collector, painting, paintingRepository, loanRepository] }

def galleryGraph : Graph := gallery.build.toOption.getD .empty

theorem gallery_build : gallery.build = .ok galleryGraph := Model.build_eq_ok (by decide)

theorem builds_gallery : gallery.Builds true galleryGraph := Model.builds_of_buildWith gallery_build

theorem hasIdentity_exhibit {name : String} (hin : exhibit name ∈ gallery.types) :
    galleryGraph.hasIdentity (exhibit name).toNode = true := by
  have hlower : Text.toLowerAscii "id" = "id" := by decide
  have hfields : galleryGraph.fieldsOf (exhibit name).toNode.id = _ := builds_gallery.fieldsOf_eq hin
  rw [Graph.hasIdentity, Graph.identityField?, Graph.instanceFieldsOf, hfields]
  simp [exhibit, SourceField.privateFinal, SourceType.fieldNode, FieldNode.isStatic, hlower]

/-- A repository of the gallery that mentions two exhibits is cited for the first, if this has as many
places. -/
theorem gallery_cites {r : SourceType} (first second : String) (hr : r ∈ gallery.types)
    (hname : Text.endsWith "Repository" r.simpleName = true) (hform : r.form = .interface)
    (hfirst : exhibit first ∈ gallery.types) (hsecond : exhibit second ∈ gallery.types)
    (htypes : distinct ((r.signatureEdges gallery.declares).map (·.target))
      = [(exhibit first).id, (exhibit second).id])
    (hplaces : r.placeCount second ≤ r.placeCount first) :
    repositoryDominant.Cites galleryGraph (exhibit first).toNode r.id := by
  have hother : ∀ {name}, exhibit name ≠ r := fun heq => TypeForm.noConfusion (heq ▸ hform)
  have hcount : ∀ {name}, exhibit name ∈ gallery.types →
      placesOf galleryGraph r.toNode (exhibit name).toNode = r.placeCount name := fun hin =>
    builds_gallery.length_signatureProofs hr hform hin hother
  have hmentioned : galleryGraph.signatureTypesOf r.id
      = [(exhibit first).toNode, (exhibit second).toNode] := by
    rw [builds_gallery.signatureTypesOf_eq hr, htypes]
    simp [Graph.resolveTypes, builds_gallery.type?_id hfirst, builds_gallery.type?_id hsecond]
  have hdominant : IsDominant galleryGraph r.toNode (exhibit first).toNode := by
    refine ⟨rfl, hasIdentity_exhibit hfirst, fun u hu _ _ => ?_, [], _, hmentioned, by simp⟩
    rw [hcount hfirst]
    rcases List.mem_pair.1 (hmentioned ▸ hu) with rfl | rfl
    · exact (hcount hfirst).le
    · exact (hcount hsecond).trans_le hplaces
  exact (cites_iff_isDominant builds_gallery.indexed (builds_gallery.mem_types hr)
    (builds_gallery.mem_types hfirst)).2 ⟨hname, rfl, hdominant⟩

theorem paintingRepository_cited :
    repositoryDominant.Cites galleryGraph painting.toNode paintingRepository.id :=
  gallery_cites painting.name collector.name (by simp [gallery]) (by decide +kernel) rfl
    (by simp [gallery, painting, exhibit]) (by simp [gallery, collector, exhibit])
    (by decide +kernel) (by decide)

theorem loanRepository_cited :
    repositoryDominant.Cites galleryGraph collector.toNode loanRepository.id :=
  gallery_cites collector.name painting.name (by simp [gallery]) (by decide +kernel) rfl
    (by simp [gallery, collector, exhibit]) (by simp [gallery, painting, exhibit])
    (by decide +kernel) (by decide)

/-- The repository of paintings is cited for them and for nothing else: they are mentioned in as many
places as collectors are, and before them. -/
theorem paintings_dominate_repository :
    repositoryDominant.Cites galleryGraph painting.toNode paintingRepository.id ∧
    (∀ t ∈ galleryGraph.types, repositoryDominant.Cites galleryGraph t paintingRepository.id →
      t = painting.toNode) ∧
    IsDominant galleryGraph paintingRepository.toNode painting.toNode := by
  have hpainting := builds_gallery.mem_types (t := painting) (by simp [gallery])
  have hrepository := builds_gallery.mem_types (t := paintingRepository) (by simp [gallery])
  obtain ⟨hone, hdominant⟩ :=
    one_type_dominates_repository builds_gallery.indexed hrepository (by decide +kernel)
  exact ⟨paintingRepository_cited,
    fun t ht hcited => hone t ht _ hpainting hcited paintingRepository_cited,
    ((hdominant _ hpainting).1 paintingRepository_cited).2⟩

end Example

/-! ## Places are counted, not methods -/

/-- A dominant type is mentioned in the most places of all types, mentioned or not. -/
theorem IsDominant.placesOf_le {g : Graph} {r t u : TypeNode} (hdominant : IsDominant g r t)
    (h : g.Indexed) (hu : u ∈ g.types) (hinner : u.isInterface = false)
    (hidentity : g.hasIdentity u = true) : placesOf g r u ≤ placesOf g r t := by
  cases hproofs : g.signatureProofs r.id u.id with
  | nil =>
    rw [placesOf, hproofs]
    exact Nat.zero_le _
  | cons proof rest =>
    exact hdominant.most u (h.mem_signatureTypesOf hu (hproofs ▸ List.mem_cons_self)) hinner hidentity

/-- What a repository is cited for is mentioned in the most places of its signatures. Take a model and
two types of it, and let the criterion on repositories cite the one for the other. Then no type of the
model that has an identity and is no interface is mentioned in more places: results and parameters of
methods. A method that mentions a type in several of them counts for each, so the number of methods is
another matter; but where no method mentions the cited type twice, none of these types is mentioned by
more methods. -/
theorem dominant_type_in_most_places {m : Model} {g : Graph} (hbuild : m.build = .ok g)
    {r t : SourceType} (hr : r ∈ m.types) (ht : t ∈ m.types)
    (hcites : repositoryDominant.Cites g t.toNode r.id) :
    (∀ u ∈ m.types, u.form ≠ .interface → g.hasIdentity u.toNode = true →
      r.placeCount u.name ≤ r.placeCount t.name) ∧
    ((∀ k ∈ r.methods, (k.placesOf t.name).length ≤ 1) →
      ∀ u ∈ m.types, u.form ≠ .interface → g.hasIdentity u.toNode = true →
        (r.methodsMentioning u.name).length ≤ (r.methodsMentioning t.name).length) := by
  have h := Model.builds_of_buildWith hbuild
  obtain ⟨-, -, hdominant⟩ :=
    (cites_iff_isDominant h.indexed (h.mem_types hr) (h.mem_types ht)).1 hcites
  have hform : r.form = .interface := by
    obtain ⟨i, hi, hnode, hform, -⟩ := (h.mem_interfacesUsing_iff ht).1
      ((h.indexed.mem_interfacesUsing_iff (h.mem_types hr) (h.mem_types ht)).2 hdominant.mem)
    exact h.eq_of_toNode_eq hi hr hnode ▸ hform
  -- the proofs of edges, which the criterion counts, are the places of the declaration
  have hcount : ∀ u ∈ m.types, u.form ≠ .interface →
      placesOf g r.toNode u.toNode = r.placeCount u.name := fun u hu hinner =>
    h.length_signatureProofs hr hform hu fun heq => hinner (heq ▸ hform)
  have hmost : ∀ u ∈ m.types, u.form ≠ .interface → g.hasIdentity u.toNode = true →
      r.placeCount u.name ≤ r.placeCount t.name := by
    intro u hu hinner hidentity
    rw [← hcount u hu hinner, ← hcount t ht (of_decide_eq_false hdominant.inner)]
    exact hdominant.placesOf_le h.indexed (h.mem_types hu) (decide_eq_false hinner) hidentity
  refine ⟨hmost, fun hsingle u hu hinner hidentity => ?_⟩
  calc (r.methodsMentioning u.name).length
      ≤ r.placeCount u.name := r.length_methodsMentioning_le u.name
    _ ≤ r.placeCount t.name := hmost u hu hinner hidentity
    _ = (r.methodsMentioning t.name).length :=
      (SourceType.length_methodsMentioning_eq hsingle).symm

/-- The repository of loans is cited for collectors, and no more of its methods mention paintings. -/
theorem collectors_in_most_loans :
    repositoryDominant.Cites galleryGraph collector.toNode loanRepository.id ∧
    loanRepository.placeCount painting.name ≤ loanRepository.placeCount collector.name ∧
    (loanRepository.methodsMentioning painting.name).length
      ≤ (loanRepository.methodsMentioning collector.name).length := by
  have hpainting : painting ∈ gallery.types := by simp [gallery]
  obtain ⟨hplaces, hmethods⟩ := dominant_type_in_most_places gallery_build (by simp [gallery])
    (by simp [gallery]) loanRepository_cited
  exact ⟨loanRepository_cited,
    hplaces painting hpainting (by decide) (hasIdentity_exhibit hpainting),
    hmethods (by decide) painting hpainting (by decide) (hasIdentity_exhibit hpainting)⟩

/-- The repository of paintings is cited for paintings, which one of its methods mentions, though two of
them mention collectors. -/
theorem collectors_in_more_methods :
    ∃ g, gallery.build = .ok g ∧ Text.endsWith "Repository" paintingRepository.simpleName = true ∧
      repositoryDominant.Cites g painting.toNode paintingRepository.id ∧
      collector ∈ gallery.types ∧ collector.form ≠ .interface ∧
      g.hasIdentity collector.toNode = true ∧
      (paintingRepository.methodsMentioning painting.name).length
        < (paintingRepository.methodsMentioning collector.name).length := by
  have hcollector : collector ∈ gallery.types := by simp [gallery]
  exact ⟨galleryGraph, gallery_build, by decide +kernel, paintingRepository_cited, hcollector,
    by decide, hasIdentity_exhibit hcollector, by decide⟩

end Criterion

end RoleAudit
