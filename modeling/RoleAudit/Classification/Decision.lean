import RoleAudit.Classification.Evidence

/-!
# Deciding between roles

Every match contributes a role with a priority and a confidence. Contributions rank by priority and,
within one priority, by confidence. Those of the highest rank are tied. If two of them contradict
each other there is no decision; otherwise the first of them wins, because contributions come in
the order in which their criteria are registered.
-/

namespace RoleAudit

/-- A role that a criterion proposes for a type. -/
structure Contribution where
  /-- The criterion. -/
  criterion : String
  /-- The role. -/
  role : Role
  /-- How much the criterion counts. -/
  priority : Nat
  /-- How sure the match is. -/
  confidence : Confidence
  /-- The reason in one line. -/
  justification : String
  /-- The reasons one by one. -/
  evidence : List Evidence
  deriving DecidableEq, Repr

namespace Contribution

/-- The rank: priority first, then confidence, in one number. -/
def rank (c : Contribution) : Nat := 3 * c.priority + c.confidence.strength

/-- The contributions from the highest rank to the lowest; those of one rank keep their order. -/
def ranked (cs : List Contribution) : List Contribution :=
  cs.mergeSort fun a b => b.rank ≤ a.rank

end Contribution

/-- What the contributions for a type come to. -/
inductive Decision where
  /-- There are none. -/
  | empty
  /-- One wins; the others follow by rank. -/
  | winner (winner : Contribution) (others : List Contribution)
  /-- Those of the highest rank contradict each other; the others follow by rank. -/
  | conflict (tied others : List Contribution)
  deriving DecidableEq, Repr

namespace Decision

/-- Whether two roles of the list contradict each other. -/
def hasContradiction : List Contribution → Bool
  | [] => false
  | c :: rest => rest.any (fun d => !c.role.isCompatibleWith d.role) || hasContradiction rest

/-- The decision between ranked contributions. -/
def ofRanked (cs : List Contribution) : Decision :=
  match cs with
  | [] => .empty
  | top :: rest =>
    let tied := cs.takeWhile (·.rank = top.rank)
    let others := cs.dropWhile (·.rank = top.rank)
    if hasContradiction tied then .conflict tied others else .winner top rest

/-- The decision between contributions. -/
def decide (cs : List Contribution) : Decision := ofRanked (Contribution.ranked cs)

end Decision

end RoleAudit
