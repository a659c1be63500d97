import RoleAudit.Element.Id

/-!
# Progress of an analysis

What an analysis is doing: the phase it is in and the node it looks at. Each change leaves a mark
behind that keeps what was true before it. Taking the mark back brings that state back, whatever other
changes there were since and in whatever order other marks were taken back.
-/

namespace RoleAudit

/-- A stage of an analysis. -/
inductive Phase where
  /-- The graph is built. -/
  | graphBuilding
  /-- Types are anchored. -/
  | anchorDetection
  /-- Facts on interfaces are collected. -/
  | portFacts
  /-- Types get their roles. -/
  | classification
  /-- Cycles are searched. -/
  | cycleDetection
  /-- Constraints are checked. -/
  | validation
  deriving DecidableEq, Repr

namespace Phase

/-- The name of a phase in messages. -/
def label : Phase → String
  | graphBuilding => "graph_building"
  | anchorDetection => "anchor_detection"
  | portFacts => "interface_facts"
  | classification => "classification"
  | cycleDetection => "cycle_detection"
  | validation => "validation"

/-- Every phase, in the order of an audit. -/
def all : List Phase :=
  [graphBuilding, anchorDetection, portFacts, classification, cycleDetection, validation]

/-- The phase with a name. -/
def ofLabel? (text : String) : Option Phase := all.find? (·.label = text)

end Phase

/-- What an analysis is doing. -/
structure Progress where
  /-- The phase it is in. -/
  phase : Option Phase := none
  /-- The node it looks at. -/
  node : Option NodeId := none
  deriving DecidableEq, Repr

/-- The progress in words. -/
def Progress.text : Progress → String
  | ⟨some phase, some node⟩ => phase.label ++ " @ " ++ node.text
  | ⟨some phase, none⟩ => phase.label
  | ⟨none, some node⟩ => node.text
  | ⟨none, none⟩ => "idle"

/-- The progress of an analysis with the marks of its changes. -/
structure ProgressTracker where
  /-- What the analysis is doing now. -/
  current : Progress := {}
  /-- What it was doing before each change, `none` where the mark was taken back. -/
  marks : List (Option Progress) := []
  deriving DecidableEq, Repr

namespace ProgressTracker

/-- Changes what the analysis is doing. The new mark has the next number. -/
def advance (change : Progress → Progress) (t : ProgressTracker) : ProgressTracker where
  current := change t.current
  marks := t.marks ++ [some t.current]

/-- Enters a phase. -/
def enterPhase (phase : Phase) : ProgressTracker → ProgressTracker :=
  advance fun p => { p with phase := some phase }

/-- Turns to a node. -/
def enterNode (node : NodeId) : ProgressTracker → ProgressTracker :=
  advance fun p => { p with node := some node }

/-- Takes a mark back. Nothing happens where there is none or it was taken back before. -/
def leave (mark : Nat) (t : ProgressTracker) : ProgressTracker :=
  match t.marks[mark]? with
  | some (some before) => { current := before, marks := t.marks.set mark none }
  | _ => t

/-- What an analysis does with its tracker. -/
inductive Step where
  /-- It changes what it is doing. -/
  | advance (change : Progress → Progress)
  /-- It takes a mark back. -/
  | leave (mark : Nat)

/-- One step. -/
def step (t : ProgressTracker) : Step → ProgressTracker
  | .advance change => t.advance change
  | .leave mark => t.leave mark

/-- Steps one after the other. -/
def run (t : ProgressTracker) (steps : List Step) : ProgressTracker := steps.foldl step t

variable {t : ProgressTracker} {mark : Nat} {before : Progress}

/-- What a mark keeps is changed by no step but the one that takes it back. -/
theorem mark_step (hmark : t.marks[mark]? = some (some before)) {s : Step} (hs : s ≠ .leave mark) :
    (t.step s).marks[mark]? = some (some before) := by
  cases s with
  | advance change =>
    obtain ⟨hlt, -⟩ := List.getElem?_eq_some_iff.1 hmark
    simp only [step, advance]
    rw [List.getElem?_append_left hlt, hmark]
  | leave other =>
    have hne : other ≠ mark := fun h => hs (h ▸ rfl)
    simp only [step, leave]
    split
    · rw [List.getElem?_set_ne hne, hmark]
    · exact hmark

theorem mark_run (hmark : t.marks[mark]? = some (some before)) {steps : List Step}
    (hsteps : .leave mark ∉ steps) : (t.run steps).marks[mark]? = some (some before) := by
  induction steps generalizing t with
  | nil => exact hmark
  | cons s steps ih =>
    rw [List.mem_cons, not_or] at hsteps
    exact ih (mark_step hmark fun h => hsteps.1 h.symm) hsteps.2

/-- Taking a mark back brings back what the analysis was doing before its change, whatever it did since. -/
theorem current_leave_run (t : ProgressTracker) (change : Progress → Progress) {steps : List Step}
    (hsteps : .leave t.marks.length ∉ steps) :
    (((t.advance change).run steps).leave t.marks.length).current = t.current := by
  have hmark : (t.advance change).marks[t.marks.length]? = some (some t.current) := by
    simp [advance]
  rw [leave, mark_run hmark hsteps]

end ProgressTracker

end RoleAudit
