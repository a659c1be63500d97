import RoleAudit.Classification.Classifier
import RoleAudit.Proofs.Error
import RoleAudit.Proofs.Graph.Scan

/-!
# One result for every type

A classification has one result for every type that is not left out, and the result names the type.
So a type has the role that any result with its id says.
-/

namespace RoleAudit

namespace ClassificationResult

theorem nodeId_ofDecision (id : NodeId) (target : Family) (hasSignal : Bool) (d : Decision) :
    (ofDecision id target hasSignal d).nodeId = id := by
  cases d <;> rfl

end ClassificationResult

/-- Settings give a classifier where every role in them has meaning and their patterns compile. -/
theorem Classifier.ofSettings_eq_ok_iff {regexes : RegexLibrary} {s : ClassificationSettings}
    {custom : List Criterion} {c : Classifier} :
    Classifier.ofSettings regexes s custom = .ok c ↔
      ∃ entries exclusions, s.explicit.entries.mapM explicitRole = .ok entries ∧
        s.exclusionMatcher regexes = .ok exclusions ∧
        c = { exclusions, explicit := .ofList entries, custom } := by
  simp only [Classifier.ofSettings, Error.bind_eq_ok_iff]
  constructor
  · rintro ⟨entries, hentries, exclusions, hexclusions, hc⟩
    cases hc
    exact ⟨entries, exclusions, hentries, hexclusions, rfl⟩
  · rintro ⟨entries, exclusions, hentries, hexclusions, rfl⟩
    exact ⟨entries, hentries, exclusions, hexclusions, rfl⟩

/-- The criteria that come after the built-in ones are those that were given. -/
theorem Classifier.custom_of_ofSettings {regexes : RegexLibrary} {s : ClassificationSettings}
    {custom : List Criterion} {c : Classifier} (h : Classifier.ofSettings regexes s custom = .ok c) :
    c.custom = custom := by
  obtain ⟨entries, exclusions, -, -, rfl⟩ := ofSettings_eq_ok_iff.1 h
  rfl

/-- What a classifier leaves out is what its settings leave out. -/
theorem Classifier.exclusionMatcher_of_ofSettings {regexes : RegexLibrary}
    {s : ClassificationSettings} {custom : List Criterion} {c : Classifier}
    (h : Classifier.ofSettings regexes s custom = .ok c) :
    s.exclusionMatcher regexes = .ok c.exclusions := by
  obtain ⟨entries, exclusions, -, hexclusions, rfl⟩ := ofSettings_eq_ok_iff.1 h
  exact hexclusions

namespace Classifier

theorem explicitRole_eq_ok_iff {name text : String} {entry : String × Role} :
    explicitRole (name, text) = .ok entry ↔
      ∃ role, Role.ofText text = .ok role ∧ entry = (name, role) := by
  unfold explicitRole
  cases Role.ofText text with
  | error e => exact ⟨nofun, fun ⟨_, hrole, _⟩ => nomatch hrole⟩
  | ok role =>
    constructor
    · intro h
      exact ⟨role, rfl, (Except.ok.inj h).symm⟩
    · rintro ⟨_, hrole, rfl⟩
      cases hrole
      rfl

theorem mapM_explicitRole_cons_iff {entry : String × String} {rest : List (String × String)}
    {roles : List (String × Role)} :
    (entry :: rest).mapM explicitRole = .ok roles ↔
      ∃ role others, explicitRole entry = .ok role ∧ rest.mapM explicitRole = .ok others ∧
        roles = role :: others := by
  rw [List.mapM_cons]
  simp only [Error.bind_eq_ok_iff]
  constructor
  · rintro ⟨role, hrole, others, hothers, hroles⟩
    cases hroles
    exact ⟨role, others, hrole, hothers, rfl⟩
  · rintro ⟨role, others, hrole, hothers, rfl⟩
    exact ⟨role, hrole, others, hothers, rfl⟩

/-- The roles of the settings stand under the names that they are given for. -/
theorem keys_mapM_explicitRole {entries : List (String × String)} {roles : List (String × Role)}
    (h : entries.mapM explicitRole = .ok roles) : roles.map Prod.fst = entries.map Prod.fst := by
  induction entries generalizing roles with
  | nil =>
    cases h
    rfl
  | cons entry rest ih =>
    obtain ⟨_, others, hentry, hrest, rfl⟩ := mapM_explicitRole_cons_iff.1 h
    obtain ⟨role, -, rfl⟩ := explicitRole_eq_ok_iff.1 hentry
    rw [List.map_cons, List.map_cons, ih hrest]

/-- The roles of the settings ascend by name, as their entries do. -/
theorem ascending_mapM_explicitRole {s : ClassificationSettings} {roles : List (String × Role)}
    (h : s.explicit.entries.mapM explicitRole = .ok roles) :
    roles.Pairwise fun a b => a.1 < b.1 := by
  have hs := List.pairwise_map.2 s.explicit.ascending
  rw [← keys_mapM_explicitRole h] at hs
  exact List.pairwise_map.1 hs

/-- A classifier has a role for a name exactly if its settings have one. -/
theorem explicit_eq_none_iff {regexes : RegexLibrary} {s : ClassificationSettings}
    {custom : List Criterion} {c : Classifier} (h : Classifier.ofSettings regexes s custom = .ok c)
    {name : String} : c.explicit.get? name = none ↔ s.explicit.get? name = none := by
  obtain ⟨roles, -, hroles, -, rfl⟩ := ofSettings_eq_ok_iff.1 h
  rw [Dictionary.get?_eq_none_iff, Dictionary.get?_eq_none_iff,
    Dictionary.entries_ofList (ascending_mapM_explicitRole hroles), keys_mapM_explicitRole hroles]

variable (c : Classifier) (criteria : List Criterion) {g : Graph}

theorem nodeId_result (t : TypeNode) : (c.result criteria g t).nodeId = t.id := by
  unfold result
  split
  · rfl
  · exact ClassificationResult.nodeId_ofDecision _ _ _ _

theorem map_nodeId_results (h : g.Indexed) :
    (c.classify g).results.map (·.nodeId) = (g.typeNodes.filter (!c.excludes ·)).map (·.id) := by
  rw [classify, List.map_map, h.types_eq]
  exact List.map_congr_left fun t _ => c.nodeId_result _ t

theorem nodup_results (h : g.Indexed) : ((c.classify g).results.map (·.nodeId)).Nodup := by
  rw [c.map_nodeId_results h]
  exact (List.filter_sublist.map _).nodup h.typeNodes_nodup

/-- The result of an id is the one that has it. -/
theorem get?_eq_some (h : g.Indexed) {id : NodeId} {r : ClassificationResult} :
    (c.classify g).get? id = some r ↔ r ∈ (c.classify g).results ∧ r.nodeId = id := by
  rw [Classification.get?]
  constructor
  · intro hfind
    exact ⟨List.mem_of_find?_eq_some hfind, by simpa using List.find?_some hfind⟩
  · rintro ⟨hr, rfl⟩
    obtain ⟨s, hs⟩ := Option.isSome_iff_exists.1
      (List.find?_isSome (p := fun s => s.nodeId = r.nodeId).2 ⟨r, hr, by simp⟩)
    have hid : s.nodeId = r.nodeId := by simpa using List.find?_some hs
    rw [hs, List.inj_on_of_nodup_map (c.nodup_results h) (List.mem_of_find?_eq_some hs) hr hid]

/-- The types of a role are those whose role it is. -/
theorem mem_ofRole_iff (h : g.Indexed) {id : NodeId} {role : Role} :
    id ∈ ((c.classify g).ofRole role).map (·.nodeId) ↔ (c.classify g).roleOf? id = some role := by
  rw [Classification.roleOf?, Option.bind_eq_some_iff, List.mem_map]
  constructor
  · rintro ⟨r, hr, hid⟩
    obtain ⟨hr, hrole⟩ := List.mem_filter.1 hr
    exact ⟨r, (c.get?_eq_some h).2 ⟨hr, hid⟩, by simpa using hrole⟩
  · rintro ⟨r, hget, hrole⟩
    obtain ⟨hr, hid⟩ := (c.get?_eq_some h).1 hget
    exact ⟨r, List.mem_filter.2 ⟨hr, by simpa using hrole⟩, hid⟩

theorem mem_ofFamily_iff (h : g.Indexed) {id : NodeId} {r : ClassificationResult}
    (hr : (c.classify g).get? id = some r) {family : Family} :
    r ∈ (c.classify g).ofFamily family ↔ r.isClassified = true ∧ r.target = some family := by
  have hmem : r ∈ (c.classify g).results := ((c.get?_eq_some h).1 hr).1
  rw [Classification.ofFamily, List.mem_filter, and_iff_right hmem, Bool.and_eq_true,
    decide_eq_true_eq]

/-- A role of the settings decides alone. -/
theorem get?_of_explicit (h : g.Indexed) {t : TypeNode} {role : Role} (ht : t ∈ g.typeNodes)
    (hkept : c.excludes t = false) (hrole : c.explicit.get? t.name = some role) :
    (c.classify g).get? t.id = some (explicitResult t role) := by
  have hresult : c.result (c.criteria g) g t = explicitResult t role := by
    rw [result, hrole]
  have hmem : c.result (c.criteria g) g t ∈ (c.classify g).results :=
    List.mem_map_of_mem (List.mem_filter.2 ⟨h.types_eq ▸ ht, by simp [hkept]⟩)
  rw [← hresult]
  exact (c.get?_eq_some h).2 ⟨hmem, c.nodeId_result _ t⟩

/-- A role of the settings is the role of its type. -/
theorem roleOf?_of_explicit (h : g.Indexed) {t : TypeNode} {role : Role} (ht : t ∈ g.typeNodes)
    (hkept : c.excludes t = false) (hrole : c.explicit.get? t.name = some role) :
    (c.classify g).roleOf? t.id = some role := by
  rw [Classification.roleOf?, c.get?_of_explicit h ht hkept hrole]
  rfl

end Classifier

end RoleAudit
