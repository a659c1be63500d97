import RoleAudit.Proofs.Classification.Conflicts
import RoleAudit.Proofs.Model.Queries

/-!
# Types without a role

A type on which no criterion matches is unclassified if something ties it to the types around it, and
not analyzed if nothing does. `Model.Signals` says what such a tie is, read off the declarations.

The look-ups for fields and for injections do not ask who declares the field or the constructor. So a
type that holds itself, as a cell of a linked list holds the next cell, is unclassified too, though no
other type knows it and it knows no other type.
-/

namespace RoleAudit

/-- The type mentions itself in a field or, if it is an interface, in a constructor parameter. -/
def SourceType.HoldsItself (t : SourceType) : Prop :=
  (∃ f ∈ t.fields, f.type.Mentions t.name) ∨ t.form = .interface ∧ t.Injects t.name

/-- What ties a type of a model to the types around it. -/
inductive Model.Signals (m : Model) (t : SourceType) : Prop
  /-- It carries an annotation. -/
  | annotated (h : t.annotations ≠ [])
  /-- Another type is an interface and mentions it in a signature. -/
  | inSignature {i : SourceType} {k : SourceMethod} {position : SignaturePosition}
    (hi : i ∈ m.types) (hform : i.form = .interface) (hother : i ≠ t) (hk : k ∈ i.methods)
    (hmentions : k.MentionsAt position t.name)
  /-- Another type mentions it in a field. -/
  | inField {u : SourceType} {f : SourceField} (hu : u ∈ m.types) (hother : u ≠ t)
    (hf : f ∈ u.fields) (hmentions : f.type.Mentions t.name)
  /-- It is an interface and a type lists it. -/
  | implemented {u : SourceType} (hform : t.form = .interface) (hu : u ∈ m.types)
    (hlists : u.Lists t.name)
  /-- It is an interface and another type injects it. -/
  | injected {u : SourceType} (hform : t.form = .interface) (hu : u ∈ m.types) (hother : u ≠ t)
    (hinjects : u.Injects t.name)
  /-- It extends a type of the model. -/
  | extending {u : SourceType} (hu : u ∈ m.types) (hextends : t.Extends u.name)
  /-- It lists a type of the model. -/
  | implementing {u : SourceType} (hu : u ∈ m.types) (hlists : t.Lists u.name)

namespace Model

variable {m : Model}

section Built

variable {derived : Bool} {g : Graph}

/-- What the look-ups take for a signal. -/
theorem Builds.hasSignal_iff (h : m.Builds true g) {t : SourceType} (ht : t ∈ m.types) :
    g.hasSignal t.toNode = true ↔ m.Signals t ∨ t.HoldsItself := by
  have hid : t.toNode.id = t.id := rfl
  have hannotations : t.toNode.annotations = t.annotations := rfl
  have hform : t.toNode.isInterface = true ↔ t.form = .interface := decide_eq_true_iff
  simp only [Graph.hasSignal, Bool.or_eq_true, Bool.and_eq_true, Bool.not_eq_true', hform, hid,
    hannotations, List.isEmpty_eq_false_iff_exists_mem, h.mem_interfacesUsing_iff ht,
    h.mem_fieldsOfType_iff ht, h.mem_implementorsOf_iff ht, h.mem_typesInjecting_iff ht,
    h.isSome_supertypeOf? ht, h.mem_interfacesOf_iff ht]
  constructor
  · rintro (((((⟨a, ha⟩ | ⟨_, i, hi, -, hinterface, hother, k, hk, position, hmentions⟩) |
      ⟨_, u, hu, f, hf, -, hmentions⟩) |
      ⟨hinterface, ⟨_, u, hu, -, hlists⟩ | ⟨_, u, hu, -, hinjects⟩⟩) |
      ⟨u, hu, hextends⟩) | ⟨_, u, hu, -, hlists⟩)
    · exact .inl (.annotated (List.ne_nil_of_mem ha))
    · exact .inl (.inSignature hi hinterface hother hk hmentions)
    · -- the look-up does not tell the fields of the type itself from those of others
      by_cases hself : u = t
      · exact .inr (.inl ⟨f, hself ▸ hf, hmentions⟩)
      · exact .inl (.inField hu hself hf hmentions)
    · exact .inl (.implemented hinterface hu hlists)
    · by_cases hself : u = t
      · exact .inr (.inr ⟨hinterface, hself ▸ hinjects⟩)
      · exact .inl (.injected hinterface hu hself hinjects)
    · exact .inl (.extending hu hextends)
    · exact .inl (.implementing hu hlists)
  · rintro (hsignals | ⟨f, hf, hmentions⟩ | ⟨hinterface, hinjects⟩)
    · cases hsignals with
      | annotated ha =>
        exact .inl (.inl (.inl (.inl (.inl (List.exists_mem_of_ne_nil _ ha)))))
      | inSignature hi hinterface hother hk hmentions =>
        exact .inl (.inl (.inl (.inl (.inr ⟨_, _, hi, rfl, hinterface, hother, _, hk, _, hmentions⟩))))
      | inField hu _ hf hmentions =>
        exact .inl (.inl (.inl (.inr ⟨_, _, hu, _, hf, rfl, hmentions⟩)))
      | implemented hinterface hu hlists =>
        exact .inl (.inl (.inr ⟨hinterface, .inl ⟨_, _, hu, rfl, hlists⟩⟩))
      | injected hinterface hu _ hinjects =>
        exact .inl (.inl (.inr ⟨hinterface, .inr ⟨_, _, hu, rfl, hinjects⟩⟩))
      | extending hu hextends => exact .inl (.inr ⟨_, hu, hextends⟩)
      | implementing hu hlists => exact .inr ⟨_, _, hu, rfl, hlists⟩
    · exact .inl (.inl (.inl (.inr ⟨_, t, ht, f, hf, rfl, hmentions⟩)))
    · exact .inl (.inl (.inr ⟨hinterface, .inr ⟨_, t, ht, rfl, hinjects⟩⟩))

end Built

end Model

namespace Classifier

/-- No criterion of a family that applies to the type matches it. -/
def Unmatched (c : Classifier) (g : Graph) (t : TypeNode) : Prop :=
  ∀ d ∈ c.criteria g, d.role.family ∈ g.familiesOf t → (d.judge g t).match? = none

instance (c : Classifier) (g : Graph) (t : TypeNode) : Decidable (c.Unmatched g t) :=
  inferInstanceAs (Decidable (∀ d ∈ c.criteria g, _))

theorem Unmatched.proposals_eq_nil {c : Classifier} {g : Graph} {t : TypeNode}
    (h : c.Unmatched g t) : c.proposals g t = [] := by
  refine List.filterMap_eq_nil_iff.2 fun d hd => ?_
  obtain ⟨hd, hfamily⟩ := List.mem_filter.1 hd
  rw [Criterion.contribution?, h d hd (List.contains_iff_mem.1 hfamily), Option.map_none]

/-- Take a type of a model that is not left out, has no role in the settings and is not matched by any
criterion that applies to it. It is unclassified exactly if something ties it to the types around it or
it holds itself, and not analyzed otherwise. -/
theorem unmatched_type_unclassified_iff {m : Model} {g : Graph} (hbuild : m.build = .ok g)
    (c : Classifier) {t : SourceType} (ht : t ∈ m.types) (hkept : c.excludes t.toNode = false)
    (hopen : c.explicit.get? t.name = none) (hunmatched : c.Unmatched g t.toNode) :
    ∃ r, (c.classify g).get? t.id = some r ∧
      (r.status = .unclassified ↔ m.Signals t ∨ t.HoldsItself) ∧
      (r.status = .notAnalyzed ↔ ¬ (m.Signals t ∨ t.HoldsItself)) := by
  have h := Model.builds_of_buildWith hbuild
  have hstatus : (judgedResult (c.criteria g) g t.toNode).status
      = if g.hasSignal t.toNode then .unclassified else .notAnalyzed := by
    rw [judgedResult_eq, hunmatched.proposals_eq_nil, Decision.decide_nil]
    rfl
  refine ⟨_, get?_of_open h.indexed (h.mem_types ht) hkept hopen, ?_, ?_⟩
  · rw [hstatus, ← h.hasSignal_iff ht]
    cases g.hasSignal t.toNode <;> simp
  · rw [hstatus, ← h.hasSignal_iff ht]
    cases g.hasSignal t.toNode <;> simp

section Example

/-- A cell of a list, which holds the next one. -/
def cell : SourceType where
  name := "list.Cell"
  form := .plainClass
  fields := [{ name := "next", type := .plain "list.Cell" }]

/-- A stack, which holds cells among the values of a map. -/
def stack : SourceType where
  name := "list.Stack"
  form := .plainClass
  fields := [{ name := "cells", type := ⟨"java.util.Map", [.plain "long", .plain "list.Cell"]⟩ }]

/-- The cell alone. -/
def loneCell : Model := { types := [cell] }

def loneCellGraph : Graph := loneCell.build.toOption.getD .empty

/-- The cell and the stack. -/
def stackOfCells : Model := { types := [cell, stack] }

def stackGraph : Graph := stackOfCells.build.toOption.getD .empty

/-- Another type holds cells, so the cell is unclassified. Nothing holds the stack, and what the stack
holds does not count for it. -/
theorem stack_not_analyzed :
    (∃ r, (unconfigured.classify stackGraph).get? cell.id = some r ∧ r.status = .unclassified) ∧
      ∃ r, (unconfigured.classify stackGraph).get? stack.id = some r ∧ r.status = .notAnalyzed := by
  have hbuild : stackOfCells.build = .ok stackGraph := Model.build_eq_ok (by decide)
  have hcell : cell ∈ stackOfCells.types := List.mem_cons_self
  have hstack : stack ∈ stackOfCells.types := List.mem_cons_of_mem _ List.mem_cons_self
  have hunmatched : unconfigured.Unmatched stackGraph cell.toNode ∧
      unconfigured.Unmatched stackGraph stack.toNode := by decide +kernel
  constructor
  · obtain ⟨r, hr, hstatus, -⟩ :=
      unmatched_type_unclassified_iff hbuild unconfigured hcell rfl rfl hunmatched.1
    refine ⟨r, hr, hstatus.2 (.inl (.inField hstack (by decide) List.mem_cons_self ?_))⟩
    exact .argument (List.mem_cons_of_mem _ List.mem_cons_self) (.own _ _)
  · obtain ⟨r, hr, -, hstatus⟩ :=
      unmatched_type_unclassified_iff hbuild unconfigured hstack rfl rfl hunmatched.2
    have hnone : stackGraph.hasSignal stack.toNode = false := by decide +kernel
    rw [← (Model.builds_of_buildWith hbuild).hasSignal_iff hstack, hnone] at hstatus
    exact ⟨r, hr, hstatus.2 (by simp)⟩

/-- Nothing ties the lone cell to another type, for there is none. Yet it is unclassified. -/
theorem lone_cell_unclassified :
    ∃ g r, loneCell.build = .ok g ∧ unconfigured.excludes cell.toNode = false ∧
      unconfigured.explicit.get? cell.name = none ∧ unconfigured.Unmatched g cell.toNode ∧
      ¬ loneCell.Signals cell ∧
      (unconfigured.classify g).get? cell.id = some r ∧ r.status = .unclassified := by
  have hbuild : loneCell.build = .ok loneCellGraph := Model.build_eq_ok (by decide)
  have h := Model.builds_of_buildWith hbuild
  have hunmatched : unconfigured.Unmatched loneCellGraph cell.toNode := by decide +kernel
  have hstatus : (judgedResult (unconfigured.criteria loneCellGraph) loneCellGraph
      cell.toNode).status = .unclassified := by decide +kernel
  have halone : ∀ u ∈ loneCell.types, u = cell := by simp [loneCell]
  refine ⟨_, _, hbuild, rfl, rfl, hunmatched, ?_,
    get?_of_open h.indexed (h.mem_types List.mem_cons_self) rfl rfl, hstatus⟩
  intro hsignals
  cases hsignals with
  | annotated ha => exact ha rfl
  | inSignature hi _ hother => exact hother (halone _ hi)
  | inField hu hother => exact hother (halone _ hu)
  | implemented hform => exact TypeForm.noConfusion hform
  | injected hform => exact TypeForm.noConfusion hform
  | extending _ hextends =>
    obtain ⟨s, hs, -⟩ := hextends
    exact nomatch hs
  | implementing _ hlists =>
    obtain ⟨r, hr, -⟩ := hlists
    exact absurd hr List.not_mem_nil

end Example

end Classifier

end RoleAudit
