import RoleAudit.Proofs.Classification.Reorder
import RoleAudit.Proofs.Classification.Results
import RoleAudit.Proofs.Model.Reorder
import RoleAudit.Regex.Standard

/-!
# Classifications of reordered models

A model lists its types in some order, and the graph, the anchors, the facts on interfaces and the
results come in that order too. What a result says does not depend on it. With the built-in criteria
alone, a type has the same role for the same reasons in every order of the types; only a reason that
names several types names them in another order.
-/

namespace RoleAudit

namespace Classifier

/-- The result of an id is that of its type, unless the type is left out. -/
theorem get?_classify (c : Classifier) {g : Graph} (h : g.Indexed) (id : NodeId) :
    (c.classify g).get? id
      = ((g.type? id).filter (!c.excludes ·)).map (c.result (c.criteria g) g) := by
  refine Option.ext fun r => ?_
  rw [c.get?_eq_some h, Option.map_eq_some_iff]
  constructor
  · rintro ⟨hr, hid⟩
    obtain ⟨t, ht, rfl⟩ := List.mem_map.1 hr
    rw [c.nodeId_result] at hid
    obtain ⟨htype, hkept⟩ := (mem_filter_types_iff h).1 ⟨ht, hid⟩
    exact ⟨t, Option.filter_eq_some_iff.2 ⟨htype, hkept⟩, rfl⟩
  · rintro ⟨t, ht, rfl⟩
    obtain ⟨htype, hkept⟩ := Option.filter_eq_some_iff.1 ht
    obtain ⟨hin, hid⟩ := (mem_filter_types_iff (p := fun t => !c.excludes t) h).2 ⟨htype, hkept⟩
    exact ⟨List.mem_map_of_mem hin, (c.nodeId_result _ t).trans hid⟩

/-- Without criteria of its own, a classifier gives an id no result in both graphs, or results that
differ in their reasons alone. -/
theorem reworded_get? {c : Classifier} (hcustom : c.custom = []) {g g' : Graph}
    (h : g.Reordered g') (id : NodeId) :
    Option.Rel ClassificationResult.Reworded ((c.classify g).get? id)
      ((c.classify g').get? id) := by
  rw [c.get?_classify h.indexed, c.get?_classify h.indexed', h.type?_eq]
  cases (g.type? id).filter (!c.excludes ·) with
  | none => exact .none
  | some t => exact .some (reworded_result h hcustom t)

end Classifier

namespace Model

/-- Classification does not depend on the order in which a model lists its types. If a model has a
graph, it has one in any other order. With settings that make a classifier and no criteria but the
built-in ones, the results are then of the same types, each as often, and the two results of a type
say the same but for the order in which their reasons name types. -/
theorem classification_order_free (m : Model) (derived : Bool) {regexes : RegexLibrary}
    (settings : ClassificationSettings) (types : List SourceType) (hperm : types.Perm m.types)
    {g : Graph} (hg : m.buildWith derived = .ok g) {c : Classifier}
    (hc : Classifier.ofSettings regexes settings [] = .ok c) :
    ∃ g', Model.buildWith { m with types } derived = .ok g' ∧
      ((c.classify g').results.map (·.nodeId)).Perm ((c.classify g).results.map (·.nodeId)) ∧
      ∀ id, Option.Rel ClassificationResult.Reworded ((c.classify g).get? id)
        ((c.classify g').get? id) := by
  have hperm' : ({ m with types } : Model).types.Perm m.types := hperm
  have hok : (Model.buildWith { m with types } derived).isOk = true := by
    rw [isOk_buildWith_of_perm hperm', hg]
    rfl
  obtain ⟨g', hg'⟩ := Error.exists_of_isOk hok
  have hreordered : g.Reordered g' :=
    Builds.reordered hperm' (builds_of_buildWith hg) (builds_of_buildWith hg')
  have hcustom := Classifier.custom_of_ofSettings hc
  refine ⟨g', hg', ?_, Classifier.reworded_get? hcustom hreordered⟩
  have houtlines := (Classifier.outlines_perm hreordered hcustom).map (·.nodeId)
  rwa [List.map_map, List.map_map] at houtlines

section Example

/-- A book has an identity. -/
def book : SourceType where
  name := "library.Book"
  form := .plainClass
  fields := [.privateFinal "id" (.plain "long")]

/-- A repository of books. -/
def bookRepository (name : String) : SourceType where
  name := name
  form := .interface
  methods := [{ name := "find", returnType := .plain "library.Book" }]

/-- Books in two repositories, which the reasons for the role of a book name in the order of the
model. -/
def library : Model where
  types := [book, bookRepository "library.OpenRepository", bookRepository "library.StackRepository"]

/-- A book has a result in the library, and with the types in the opposite order a result that says
the same. -/
theorem book_result_with_repositories_swapped :
    ∃ (c : Classifier) (g g' : Graph) (r r' : ClassificationResult),
      Classifier.ofSettings .standard {} [] = .ok c ∧ library.buildWith true = .ok g ∧
      Model.buildWith { library with types := library.types.reverse } true = .ok g' ∧
      (c.classify g).get? book.id = some r ∧ (c.classify g').get? book.id = some r' ∧
      r.Reworded r' := by
  obtain ⟨g, hg⟩ := Error.exists_of_isOk ((library.isOk_buildWith_iff true).2 (by decide))
  have hc : Classifier.ofSettings .standard {} []
      = .ok { exclusions := {}, explicit := .ofList [] } := rfl
  obtain ⟨g', hg', -, hsame⟩ := classification_order_free library true {} library.types.reverse
    (List.reverse_perm _) hg hc
  have hbuilds := builds_of_buildWith hg
  have hbook : g.type? book.id = some book.toNode :=
    hbuilds.type?_eq_some.2 ⟨book, List.mem_cons_self, rfl, rfl⟩
  have hget := Classifier.get?_classify { exclusions := {}, explicit := .ofList [] }
    hbuilds.indexed book.id
  rw [hbook, Option.filter_some_pos rfl, Option.map_some] at hget
  have hrel := hsame book.id
  rw [hget] at hrel
  generalize hget' : Classification.get? _ _ = result' at hrel
  cases hrel with
  | some hwords => exact ⟨_, g, g', _, _, hc, hg, hg', hget, hget', hwords⟩

end Example

end Model

end RoleAudit
