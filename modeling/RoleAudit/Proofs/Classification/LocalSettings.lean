import RoleAudit.Proofs.Classification.AddedCriterion
import RoleAudit.Proofs.Classification.Consistent
import RoleAudit.Proofs.Settings.ExclusionMatcher

/-!
# Settings act on the types that they name

A type that is left out, or whose role is set by hand, is still a type of the graph: other types implement
it, inject it and mention it, and the facts on interfaces and all criteria see it as before. So settings
never act on a type through another one. Leaving out more types takes their results away and no more;
setting the role of a name by hand changes the results of the types with that name and no more.
-/

namespace RoleAudit

/-- The name of the type with an id. -/
def Graph.typeName? (g : Graph) (id : NodeId) : Option String := (g.type? id).map (·.name)

/-- A result that gives a type the role set by hand, without a word on anything else. -/
structure ClassificationResult.SetTo (role : Role) (r : ClassificationResult) : Prop where
  status : r.status = .classified
  role : r.role = some role
  priority : r.priority = some 100
  confidence : r.confidence = some .high
  conflicts : r.conflicts = []
  diagnostics : r.diagnostics = []

section MorePatterns

variable {regexes : RegexLibrary} {patterns globs more : List String}
  (hmore : ∀ p, p ∈ patterns ↔ p ∈ globs ∨ p ∈ more)

include hmore

theorem ExclusionMatcher.isExcluded_of_mem_iff {m x y : ExclusionMatcher}
    (hm : ofGlobs regexes globs = .ok m) (hx : ofGlobs regexes more = .ok x)
    (hy : ofGlobs regexes patterns = .ok y) (name : String) :
    y.isExcluded name = (m.isExcluded name || x.isExcluded name) := by
  rw [Bool.eq_iff_iff, Bool.or_eq_true, isExcluded_iff hm, isExcluded_iff hx, isExcluded_iff hy]
  simp only [hmore, or_and_right, exists_or]

/-- With patterns that compile, more patterns compile if the new ones do. -/
theorem ExclusionMatcher.exists_ofGlobs_of_mem_iff {m : ExclusionMatcher}
    (hm : ofGlobs regexes globs = .ok m) :
    (∃ y, ofGlobs regexes patterns = .ok y) ↔ ∃ x, ofGlobs regexes more = .ok x := by
  have hglobs := exists_ofGlobs_iff.1 ⟨m, hm⟩
  rw [exists_ofGlobs_iff, exists_ofGlobs_iff]
  constructor
  · intro h p hp
    exact h p ((hmore p).2 (.inr hp))
  · intro h p hp
    exact ((hmore p).1 hp).elim (hglobs p) (h p)

end MorePatterns

namespace Classifier

variable {g : Graph} {regexes : RegexLibrary} {s : ClassificationSettings} {custom : List Criterion}
  {k : Classifier} {t : TypeNode}

theorem setTo_explicitResult (t : TypeNode) (role : Role) : (explicitResult t role).SetTo role :=
  ⟨rfl, rfl, rfl, rfl, rfl, rfl⟩

theorem typeName?_result (h : g.Indexed) (ht : t ∈ g.types) (criteria : List Criterion) :
    g.typeName? (k.result criteria g t).nodeId = some t.name := by
  rw [k.nodeId_result, Graph.typeName?, h.type?_of_mem_types ht, Option.map_some]

/-! ## Leaving out more types -/

/-- Other patterns change nothing but what is left out, if they compile. -/
theorem ofSettings_excludePatterns (h : ofSettings regexes s custom = .ok k) {patterns : List String}
    {k' : Classifier} :
    ofSettings regexes { s with excludePatterns := patterns } custom = .ok k' ↔
      ∃ y, ExclusionMatcher.ofGlobs regexes patterns = .ok y ∧ k' = { k with exclusions := y } := by
  obtain ⟨roles, exclusions, hroles, -, rfl⟩ := ofSettings_eq_ok_iff.1 h
  rw [ofSettings_eq_ok_iff]
  constructor
  · rintro ⟨roles', y, hroles', hy, rfl⟩
    obtain rfl : roles = roles' := Except.ok.inj (hroles.symm.trans hroles')
    exact ⟨y, hy, rfl⟩
  · rintro ⟨y, hy, rfl⟩
    exact ⟨roles, y, hroles, hy, rfl⟩

/-- Where more is left out, the results of the types that are now left out are gone. -/
theorem results_exclusions (h : g.Indexed) (k : Classifier) {x y : ExclusionMatcher}
    (hy : ∀ name, y.isExcluded name = (k.exclusions.isExcluded name || x.isExcluded name)) :
    (classify { k with exclusions := y } g).results
      = (k.classify g).results.filter fun r => !(g.typeName? r.nodeId).any x.isExcluded := by
  have hkept : g.types.filter (fun t => !excludes { k with exclusions := y } t)
      = (g.types.filter (!k.excludes ·)).filter fun t => !x.isExcluded t.name := by
    rw [List.filter_filter]
    refine List.filter_congr fun t _ => ?_
    rw [excludes, excludes, hy, Bool.not_or, Bool.and_comm]
  rw [classify, classify, hkept, List.filter_map]
  -- the criteria do not depend on what is left out, so each type that remains has the same result
  refine congrArg (List.map _) (List.filter_congr fun t ht => ?_)
  rw [Function.comp_apply, typeName?_result h (List.mem_filter.1 ht).1, Option.any_some]

/-! ## Setting a role by hand -/

/-- One more entry with a role becomes one more role under its name. -/
theorem mapM_insertEntry {name text : String} {role : Role} (hrole : Role.ofText text = .ok role)
    {entries : List (String × String)} {roles : List (String × Role)}
    (hroles : entries.mapM explicitRole = .ok roles) :
    (Dictionary.insertEntry name text entries).mapM explicitRole
      = .ok (Dictionary.insertEntry name role roles) := by
  have hentry : explicitRole (name, text) = .ok (name, role) :=
    explicitRole_eq_ok_iff.2 ⟨role, hrole, rfl⟩
  induction entries generalizing roles with
  | nil =>
    cases hroles
    exact mapM_explicitRole_cons_iff.2 ⟨_, [], hentry, rfl, rfl⟩
  | cons head rest ih =>
    obtain ⟨_, others, hhead, hrest, rfl⟩ := mapM_explicitRole_cons_iff.1 hroles
    obtain ⟨earlier, -, rfl⟩ := explicitRole_eq_ok_iff.1 hhead
    -- both lists are searched by name, and the names are the same
    simp only [Dictionary.insertEntry]
    split
    · exact mapM_explicitRole_cons_iff.2 ⟨_, _, hentry, hroles, rfl⟩
    · split
      · exact mapM_explicitRole_cons_iff.2 ⟨_, _, hentry, hrest, rfl⟩
      · exact mapM_explicitRole_cons_iff.2 ⟨_, _, hhead, ih hrest, rfl⟩

theorem ofSettings_insert (h : ofSettings regexes s custom = .ok k) (name : String) {text : String}
    {role : Role} (hrole : Role.ofText text = .ok role) :
    ofSettings regexes { s with explicit := s.explicit.insert name text } custom
      = .ok { k with explicit := k.explicit.insert name role } := by
  obtain ⟨roles, exclusions, hroles, hexclusions, rfl⟩ := ofSettings_eq_ok_iff.1 h
  refine ofSettings_eq_ok_iff.2 ⟨_, exclusions, mapM_insertEntry hrole hroles, hexclusions, ?_⟩
  rw [Dictionary.ofList_insertEntry name role (ascending_mapM_explicitRole hroles)]

theorem result_insert_of_name (k : Classifier) (criteria : List Criterion) (g : Graph) (t : TypeNode)
    (role : Role) :
    result { k with explicit := k.explicit.insert t.name role } criteria g t
      = explicitResult t role := by
  rw [result, Dictionary.get?_insert, if_pos rfl]

theorem result_insert_of_ne (k : Classifier) (criteria : List Criterion) (g : Graph) {name : String}
    (role : Role) (hname : t.name ≠ name) :
    result { k with explicit := k.explicit.insert name role } criteria g t
      = k.result criteria g t := by
  rw [result, result, Dictionary.get?_insert, if_neg hname]

/-- With a role set by hand for a name, the results of the types with that name say so, and all others
are as they were. -/
theorem forall₂_results_insert (h : g.Indexed) (k : Classifier) (name : String) (role : Role) :
    List.Forall₂ (fun r r' => r'.nodeId = r.nodeId ∧
        if g.typeName? r.nodeId = some name then r'.SetTo role else r' = r)
      (k.classify g).results
      (classify { k with explicit := k.explicit.insert name role } g).results := by
  rw [classify, classify, List.forall₂_map_left_iff, List.forall₂_map_right_iff]
  refine List.forall₂_same.2 fun t ht => ?_
  rw [typeName?_result h (List.mem_filter.1 ht).1, nodeId_result, nodeId_result]
  refine ⟨rfl, ?_⟩
  by_cases hname : t.name = name
  · subst hname
    rw [if_pos rfl, result_insert_of_name]
    exact setTo_explicitResult t role
  · rw [if_neg fun heq => hname (Option.some.inj heq)]
    exact result_insert_of_ne k _ g role hname

/-- Settings are local. Take a graph whose look-ups are scans, as they are in every graph that insertions
make, settings, and criteria after the built-in ones. With more patterns, wherever they stand among the
others, there is still a classifier exactly if the new patterns compile, and its results are those from
before without the types that the new patterns match, in the same order. With an entry that sets the role
of a name by hand, which may replace one, there is still a classifier; its results are of the same types in
the same order, and are the same except for the types with that name. Each of these that is not left out
has a result with the role, the priority 100 and high confidence, without conflicts and remarks. -/
theorem settings_act_locally {g : Graph} (h : g.Indexed) {regexes : RegexLibrary}
    {s : ClassificationSettings} {custom : List Criterion} {k : Classifier}
    (hk : Classifier.ofSettings regexes s custom = .ok k) :
    (∀ patterns more : List String, (∀ p, p ∈ patterns ↔ p ∈ s.excludePatterns ∨ p ∈ more) →
      ((∃ k', Classifier.ofSettings regexes { s with excludePatterns := patterns } custom = .ok k') ↔
        ∃ x, ExclusionMatcher.ofGlobs regexes more = .ok x) ∧
      ∀ x, ExclusionMatcher.ofGlobs regexes more = .ok x →
        ∃ k', Classifier.ofSettings regexes { s with excludePatterns := patterns } custom = .ok k' ∧
          (k'.classify g).results = (k.classify g).results.filter fun r =>
            !(g.typeName? r.nodeId).any x.isExcluded) ∧
    ∀ (name text : String) (role : Role), Role.ofText text = .ok role →
      ∃ k', Classifier.ofSettings regexes { s with explicit := s.explicit.insert name text } custom
          = .ok k' ∧
        List.Forall₂ (fun r r' => r'.nodeId = r.nodeId ∧
            if g.typeName? r.nodeId = some name then r'.SetTo role else r' = r)
          (k.classify g).results (k'.classify g).results ∧
        ∀ t ∈ g.types, t.name = name → k.excludes t = false →
          ∃ r', (k'.classify g).get? t.id = some r' ∧ r'.SetTo role := by
  constructor
  · intro patterns more hmore
    have hm : ExclusionMatcher.ofGlobs regexes s.excludePatterns = .ok k.exclusions :=
      exclusionMatcher_of_ofSettings hk
    have hexists := ExclusionMatcher.exists_ofGlobs_of_mem_iff hmore hm
    refine ⟨?_, fun x hx => ?_⟩
    · rw [← hexists]
      simp only [ofSettings_excludePatterns hk, exists_and_left, exists_eq, and_true, exists_comm]
    · obtain ⟨y, hy⟩ := hexists.2 ⟨x, hx⟩
      refine ⟨_, (ofSettings_excludePatterns hk).2 ⟨y, hy, rfl⟩, ?_⟩
      exact results_exclusions h k (ExclusionMatcher.isExcluded_of_mem_iff hmore hm hx hy)
  · intro name text role hrole
    refine ⟨_, ofSettings_insert hk name hrole, forall₂_results_insert h k name role, ?_⟩
    rintro t ht rfl hkept
    refine ⟨_, get?_of_kept (k := { k with explicit := k.explicit.insert t.name role }) h ht hkept, ?_⟩
    rw [result_insert_of_name]
    exact setTo_explicitResult t role

/-- At the desk the orders carry data because the signature of an interface mentions them. They do so
also when the interface is left out, and when it is called a gateway by hand. -/
theorem desk_without_its_interface :
    (∃ k', Classifier.ofSettings .standard { deskSettings with
          excludePatterns := ["desk.Order?esk", "desk.draft.*"] } [broken] = .ok k' ∧
      (k'.classify deskGraph).results.map (fun r => (r.nodeId, r.target))
        = [(orderDto.id, some .model), (clerk.id, some .domain)]) ∧
    ∃ k' r', Classifier.ofSettings .standard { deskSettings with
          explicit := deskSettings.explicit.insert "desk.OrderDesk" "gateway" } [broken] = .ok k' ∧
      (k'.classify deskGraph).get? orderDesk.id = some r' ∧ r'.SetTo .gateway ∧
      List.Forall₂ (fun r r' => r'.nodeId = r.nodeId ∧
          if deskGraph.typeName? r.nodeId = some "desk.OrderDesk" then r'.SetTo .gateway else r' = r)
        (deskClassifier.classify deskGraph).results (k'.classify deskGraph).results := by
  have hbuilds : desk.Builds true deskGraph := Model.builds_build (by decide)
  have hk : Classifier.ofSettings .standard deskSettings [broken] = .ok deskClassifier := rfl
  obtain ⟨hexclude, hset⟩ := settings_act_locally hbuilds.indexed hk
  constructor
  · obtain ⟨-, hresults⟩ := hexclude ["desk.Order?esk", "desk.draft.*"] ["desk.Order?esk"]
      (by simp [deskSettings, or_comm])
    obtain ⟨k', hk', hresults⟩ := hresults _ rfl
    refine ⟨k', hk', ?_⟩
    rw [hresults]
    decide +kernel
  · obtain ⟨k', hk', hothers, hnamed⟩ := hset "desk.OrderDesk" "gateway" .gateway (by decide)
    obtain ⟨r', hr', hsetTo⟩ := hnamed orderDesk.toNode (hbuilds.mem_types (by simp [desk])) rfl
      (by decide +kernel)
    exact ⟨k', r', hk', hr', hsetTo, hothers⟩

end Classifier

end RoleAudit
