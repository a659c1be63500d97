import RoleAudit.Proofs.Classification.Results
import RoleAudit.Proofs.Criterion.Part
import RoleAudit.Proofs.Model.Excerpt
import RoleAudit.Regex.Standard

/-!
# Classifying two models at once

If no reference of one model names a type of another, each of them is an excerpt of the two together.
Then the results of the two together are the results of the first followed by those of the second.
-/

namespace RoleAudit

/-- In a part of a graph, the results are those that its types have in the whole graph. -/
theorem Classifier.results_of_part {p g : Graph} (h : p.Part g) {c : Classifier}
    (hcustom : ∀ k ∈ c.custom, k.ReadsTypeOnly) :
    (c.classify p).results
      = (p.types.filter (!c.excludes ·)).map (c.result (c.criteria g) g) := by
  refine List.map_congr_left fun t ht => ?_
  have hid : t.id ∈ p.nodeIds := h.indexed.mem_nodeIds_of_mem_types (List.mem_filter.1 ht).1
  exact (result_eq_of_part h hcustom hid).symm

namespace Model

variable {m m₁ m₂ : Model}

/-- A reference of the model names something, alone or as an argument at any depth. -/
def Names (m : Model) (name : String) : Prop := ∃ t ∈ m.types, ∃ r ∈ t.refs, r.Mentions name

instance (name : String) : Decidable (m.Names name) :=
  decidable_of_iff (∃ t ∈ m.types, ∃ r ∈ t.refs, name ∈ r.names)
    (by simp only [Names, TypeRef.mem_names_iff])

/-- No reference of either model names a type of the other. -/
structure Separate (m₁ m₂ : Model) : Prop where
  left : ∀ name, m₁.Names name → m₂.declares name = false
  right : ∀ name, m₂.Names name → m₁.declares name = false

theorem separate_iff : m₁.Separate m₂ ↔
    (∀ t ∈ m₁.types, ∀ r ∈ t.refs, ∀ name ∈ r.names, m₂.declares name = false) ∧
      ∀ t ∈ m₂.types, ∀ r ∈ t.refs, ∀ name ∈ r.names, m₁.declares name = false := by
  simp only [TypeRef.mem_names_iff]
  constructor
  · rintro ⟨hleft, hright⟩
    exact ⟨fun t ht r hr name hname => hleft name ⟨t, ht, r, hr, hname⟩,
      fun t ht r hr name hname => hright name ⟨t, ht, r, hr, hname⟩⟩
  · rintro ⟨hleft, hright⟩
    exact ⟨fun name ⟨t, ht, r, hr, hname⟩ => hleft t ht r hr name hname,
      fun name ⟨t, ht, r, hr, hname⟩ => hright t ht r hr name hname⟩

instance : Decidable (m₁.Separate m₂) := decidable_of_iff _ separate_iff.symm

theorem Separate.symm (h : m₁.Separate m₂) : m₂.Separate m₁ := ⟨h.right, h.left⟩

/-- No name is declared by both of two models that have a graph together. -/
theorem Builds.declares_disjoint {derived : Bool} {g : Graph} (h : m.Builds derived g)
    (htypes : m.types = m₁.types ++ m₂.types) {name : String} (h₁ : m₁.declares name = true) :
    m₂.declares name = false := by
  by_contra h₂
  rw [Bool.not_eq_false] at h₂
  obtain ⟨t, ht, rfl⟩ := m₁.declares_iff.1 h₁
  obtain ⟨u, hu, hname⟩ := m₂.declares_iff.1 h₂
  have hnodup := h.types_nodup
  rw [htypes] at hnodup
  have hut : u = t := by
    refine h.eq_of_mem_nodeIds (htypes ▸ List.mem_append_right _ hu)
      (htypes ▸ List.mem_append_left _ ht) t.id ?_ List.mem_cons_self
    rw [show t.id = u.id from congrArg NodeId.ofType hname.symm]
    exact List.mem_cons_self
  exact (List.nodup_append.1 hnodup).2.2 t ht u hu hut.symm

/-- A model whose references do not name the types of another one is a base of the two together, in
whatever order they come. -/
theorem base_of_unnamed (h : ∀ name, m₁.Names name → m₂.declares name = false)
    (htypes : ∀ t ∈ m.types, t ∈ m₁.types ∨ t ∈ m₂.types)
    (hfilter : m.types.filter (fun t => m₁.declares t.name) = m₁.types) : m₁.Base m where
  types := hfilter
  inside t ht r hr name hname hdeclared := by
    -- the name is declared, and not by the second model
    have hother := h name ⟨t, ht, r, hr, TypeRef.mem_names_iff.1 hname⟩
    obtain ⟨u, hu, rfl⟩ := m.declares_iff.1 hdeclared
    rcases htypes u hu with hu | hu
    · exact declares_of_mem hu
    · rw [declares_of_mem hu] at hother
      exact absurd hother (by simp)

/-- Each of two separate models is an excerpt of the two together, in whatever order they come. -/
theorem Separate.excerpt (h : m₁.Separate m₂)
    (htypes : ∀ t ∈ m.types, t ∈ m₁.types ∨ t ∈ m₂.types)
    (hfilter : m.types.filter (fun t => m₁.declares t.name) = m₁.types) : m₁.Excerpt m where
  toBase := base_of_unnamed h.left htypes hfilter
  outside t ht hout r hr name hname _ := by
    rcases htypes t ht with ht | ht
    · rw [declares_of_mem ht] at hout
      exact absurd hout (by simp)
    · exact h.right name ⟨t, ht, r, hr, TypeRef.mem_names_iff.1 hname⟩

section Joined

variable {derived : Bool} {g : Graph} (hg : m.Builds derived g)
  (htypes : m.types = m₁.types ++ m₂.types)

include hg htypes

theorem filter_left : m.types.filter (fun t => m₁.declares t.name) = m₁.types := by
  have hdisjoint : ∀ t ∈ m₂.types, m₁.declares t.name = false := by
    intro t ht
    by_contra h₁
    rw [Bool.not_eq_false] at h₁
    have h₂ := hg.declares_disjoint htypes h₁
    rw [declares_of_mem ht] at h₂
    exact absurd h₂ (by simp)
  rw [htypes, List.filter_append, List.filter_eq_self.2 fun t ht => declares_of_mem ht,
    List.filter_eq_nil_iff.2 fun t ht => by simp [hdisjoint t ht], List.append_nil]

/-- A model is a base of every model that adds types to which it does not refer. -/
theorem base_left (h : ∀ name, m₁.Names name → m₂.declares name = false) : m₁.Base m := by
  refine base_of_unnamed h (fun t ht => ?_) (filter_left hg htypes)
  rw [htypes] at ht
  exact List.mem_append.1 ht

variable (hsep : m₁.Separate m₂)

include hsep

theorem excerpt_left : m₁.Excerpt m := by
  refine hsep.excerpt (fun t ht => ?_) (filter_left hg htypes)
  rw [htypes] at ht
  exact List.mem_append.1 ht

theorem excerpt_right : m₂.Excerpt m := by
  have hdisjoint : ∀ name, m₁.declares name = true → m₂.declares name = false :=
    fun name h₁ => hg.declares_disjoint htypes h₁
  refine hsep.symm.excerpt (fun t ht => ?_) ?_
  · rw [htypes] at ht
    exact (List.mem_append.1 ht).symm
  · rw [htypes, List.filter_append, List.filter_eq_self.2 fun t ht => declares_of_mem ht,
      List.filter_eq_nil_iff.2 fun t ht => by simp [hdisjoint t.name (declares_of_mem ht)],
      List.nil_append]

end Joined

/-- Classification is compositional. Take two models such that no reference of either one names a type
of the other, a model that has the types of the first followed by those of the second, any settings that
make a classifier, and any criteria after the built-in ones that read only the type itself. If the
joined model has a graph, so has each of the two, and its results are those of the first followed by
those of the second. -/
theorem results_of_separate_models {m₁ m₂ : Model} (hsep : m₁.Separate m₂) {m : Model}
    (htypes : m.types = m₁.types ++ m₂.types) (derived : Bool) {g : Graph}
    (hg : m.buildWith derived = .ok g) {regexes : RegexLibrary} (settings : ClassificationSettings)
    {custom : List Criterion} (hcustom : ∀ k ∈ custom, k.ReadsTypeOnly) {c : Classifier}
    (hc : Classifier.ofSettings regexes settings custom = .ok c) :
    ∃ g₁ g₂, m₁.buildWith derived = .ok g₁ ∧ m₂.buildWith derived = .ok g₂ ∧
      (c.classify g).results = (c.classify g₁).results ++ (c.classify g₂).results := by
  have hbuilds := builds_of_buildWith hg
  have hleft := excerpt_left hbuilds htypes hsep
  have hright := excerpt_right hbuilds htypes hsep
  obtain ⟨g₁, hg₁⟩ := Error.exists_of_isOk (hleft.isOk_buildWith hbuilds)
  obtain ⟨g₂, hg₂⟩ := Error.exists_of_isOk (hright.isOk_buildWith hbuilds)
  have hbuilds₁ := builds_of_buildWith hg₁
  have hbuilds₂ := builds_of_buildWith hg₂
  rw [← Classifier.custom_of_ofSettings hc] at hcustom
  refine ⟨g₁, g₂, hg₁, hg₂, ?_⟩
  rw [Classifier.results_of_part (hleft.part hbuilds₁ hbuilds) hcustom,
    Classifier.results_of_part (hright.part hbuilds₂ hbuilds) hcustom, ← List.map_append,
    ← List.filter_append, hbuilds₁.types_eq, hbuilds₂.types_eq, ← List.map_append, ← htypes,
    ← hbuilds.types_eq]
  rfl

section Example

/-- Guests of an inn, and a repository that lists them. -/
def inn : Model where
  types := [
    { name := "inn.Guest", form := .plainClass,
      fields := [.privateFinal "id" (.plain "long")] },
    { name := "inn.GuestRepository", form := .interface,
      methods := [{ name := "all", returnType := ⟨"java.util.List", [.plain "inn.Guest"]⟩ }] }]

/-- A stable that feeds horses. -/
def stable : Model where
  types := [
    { name := "stable.Feeding", form := .interface },
    { name := "stable.Groom", form := .plainClass, interfaces := [.plain "stable.Feeding"] }]

/-- Grooms are told by their name. -/
def groomCriterion : Criterion where
  name := "naming-groom"
  priority := Priority.weak
  role := .domainService
  judge _ t :=
    if Text.endsWith "Groom" t.simpleName then
      .matched { confidence := .low, justification := "Named as a groom", evidence := [] }
    else .silent

/-- Both models refer to their own types and to the library only, so the inn with its stable is
classified as the inn and then the stable. -/
theorem results_of_inn_with_stable :
    ∃ (c : Classifier) (g g₁ g₂ : Graph),
      Classifier.ofSettings .standard {} [groomCriterion] = .ok c ∧
      Model.buildWith { inn with types := inn.types ++ stable.types } true = .ok g ∧
      inn.buildWith true = .ok g₁ ∧ stable.buildWith true = .ok g₂ ∧
      (c.classify g).results = (c.classify g₁).results ++ (c.classify g₂).results := by
  obtain ⟨g, hg⟩ := Error.exists_of_isOk
    ((isOk_buildWith_iff { inn with types := inn.types ++ stable.types } true).2 (by decide))
  have hc : Classifier.ofSettings .standard {} [groomCriterion]
      = .ok { exclusions := {}, explicit := .ofList [], custom := [groomCriterion] } := rfl
  have hcustom : ∀ k ∈ [groomCriterion], k.ReadsTypeOnly := by
    intro k hk
    rw [List.mem_singleton.1 hk]
    exact fun _ _ _ => rfl
  have hsep : inn.Separate stable := by decide +kernel
  obtain ⟨g₁, g₂, hg₁, hg₂, hresults⟩ := results_of_separate_models hsep rfl true hg {} hcustom hc
  exact ⟨_, g, g₁, g₂, hc, hg, hg₁, hg₂, hresults⟩

end Example

end Model

end RoleAudit
