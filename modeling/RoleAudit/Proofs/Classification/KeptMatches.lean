import RoleAudit.Proofs.Classification.Decided

/-!
# The matches that a result keeps

A result keeps the matches that did not decide, each with its severity. How severe it is comes from a
comparison of two roles alone, and yet an error tells of the ranks. Beside a role, an error has a
lower rank than the match that won: of the same rank it would have been tied with the winner, and two
tied matches that contradict each other leave no winner. In a conflict the errors are the tied
matches, so they have one rank.
-/

namespace RoleAudit

open Contribution

/-- Priority first, then confidence. -/
def Conflict.standing (e : Conflict) : Nat ×ₗ Nat := toLex (e.priority, e.confidence.strength)

theorem Conflict.standing_ofContribution (severity : ConflictSeverity) (c : Contribution) :
    (ofContribution severity c).standing = c.standing := rfl

namespace Decision

variable {cs : List Contribution} {winner : Contribution} {others : List Contribution}

/-- What contradicts the winner ranks below it. -/
theorem standing_lt_of_winner (h : decide cs = .winner winner others) {c : Contribution} (hc : c ∈ cs)
    (hcontra : c.role.isCompatibleWith winner.role = false) : c.standing < winner.standing := by
  have hR := isTop_of_winner h
  obtain ⟨hagree, hhead, -⟩ := (decide_eq_winner_iff hR).1 h
  refine lt_of_le_of_ne (hR.2 ⟨c, hc, rfl⟩) fun htied => hagree ?_
  exact ⟨c, mem_ofStanding.2 ⟨hc, htied⟩, winner, List.mem_of_head? hhead, hcontra⟩

/-- Those of another role than the winner, by rank. -/
theorem stableSort_differing (h : decide cs = .winner winner others) :
    StableSort (cs.filter (·.role ≠ winner.role)) (others.filter (·.role ≠ winner.role)) := by
  have hsort := ((decide_eq_winner_iff (isTop_of_winner h)).1 h).2.2
  simpa using hsort.filter (·.role ≠ winner.role)

end Decision

namespace ClassificationResult

variable {id : NodeId} {target : Family} {hasSignal : Bool} {cs : List Contribution}

theorem exists_winner_of_classified {d : Decision}
    (h : (ofDecision id target hasSignal d).status = .classified) :
    ∃ winner others, d = .winner winner others := by
  cases d with
  | empty => cases hasSignal <;> exact nomatch h
  | winner winner others => exact ⟨winner, others, rfl⟩
  | conflict tied others => exact nomatch h

/-- The errors beside a role are the matches that contradict it. -/
theorem mem_errors_classified {winner : Contribution} {others : List Contribution} {e : Conflict}
    (he : e ∈ (classified id winner others).errors) :
    ∃ c ∈ others, c.role.isCompatibleWith winner.role = false ∧ e = .ofContribution .error c := by
  obtain ⟨hmem, hseverity⟩ := List.mem_filter.1 he
  obtain ⟨c, hc, rfl⟩ := List.mem_map.1 hmem
  refine ⟨c, (List.mem_filter.1 hc).1, ?_⟩
  cases hcontra : c.role.isCompatibleWith winner.role
  · exact ⟨rfl, rfl⟩
  · simp [hcontra, Conflict.ofContribution] at hseverity

/-- What is kept of the matches beside the winner comes by rank. -/
theorem exists_kept_of_winner {winner : Contribution} {others : List Contribution}
    (h : Decision.decide cs = .winner winner others) :
    ∃ kept, StableSort (cs.filter (·.role ≠ winner.role)) kept ∧
      (classified id winner others).conflicts = kept.map fun c =>
        .ofContribution (if c.role.isCompatibleWith winner.role then .warning else .error) c :=
  ⟨_, Decision.stableSort_differing h, rfl⟩

theorem standing_lt_of_mem_errors {winner : Contribution} {others : List Contribution}
    (h : Decision.decide cs = .winner winner others) {e : Conflict}
    (he : e ∈ (classified id winner others).errors) : e.standing < winner.standing := by
  obtain ⟨c, hc, hcontra, rfl⟩ := mem_errors_classified he
  have hperm := Decision.contributions_decide_perm cs
  rw [h, Decision.contributions] at hperm
  rw [Conflict.standing_ofContribution]
  exact Decision.standing_lt_of_winner h (hperm.mem_iff.1 (List.mem_cons_of_mem _ hc)) hcontra

/-- The errors of a conflict have the roles of the tied matches. -/
theorem contradictory_errors {R : Nat ×ₗ Nat} (h : Contradictory (ofStanding R cs)) :
    let errors := (ofStanding R cs).map (Conflict.ofContribution .error)
    ∃ a ∈ errors, ∃ b ∈ errors, a.role.isCompatibleWith b.role = false := by
  obtain ⟨a, ha, b, hb, hcontra⟩ := h
  exact ⟨_, List.mem_map_of_mem ha, _, List.mem_map_of_mem hb, hcontra⟩

theorem description_proposalSummary (c : Contribution) :
    ∃ reason, (proposalSummary c).description
      = c.criterion ++ " proposed " ++ c.role.label ++ reason := by
  simp only [proposalSummary, Evidence.ofDiagnostic, String.append_assoc]
  exact ⟨_, rfl⟩

/-- What a result keeps of the matches that did not decide. Beside a role it has an entry for each
match with another role, by rank and those of one rank in order, and the entries that are errors have
a lower rank than the winner. In a conflict it has an entry for each match: first those of the
greatest rank, in order and as errors, two of which have roles that contradict each other, then the
others by rank and as warnings; and its evidence has, for each of the tied matches in order, a line
that names the criterion and the role, and then all that the match rests on. -/
theorem conflicts_of_decision (id : NodeId) (target : Family) (hasSignal : Bool)
    (cs : List Contribution) :
    let r := ofDecision id target hasSignal (.decide cs)
    (r.status = .classified → ∃ winner, IsTop cs winner.standing ∧
      (ofStanding winner.standing cs).head? = some winner ∧
      r.role = some winner.role ∧ r.priority = some winner.priority ∧
      r.confidence = some winner.confidence ∧
      (∃ kept, StableSort (cs.filter (·.role ≠ winner.role)) kept ∧
        r.conflicts = kept.map fun c =>
          .ofContribution (if c.role.isCompatibleWith winner.role then .warning else .error) c) ∧
      ∀ e ∈ r.errors, e.standing < winner.standing) ∧
    (r.status = .conflict → ∃ R others, IsTop cs R ∧ StableSort (notOfStanding R cs) others ∧
      r.conflicts = (ofStanding R cs).map (.ofContribution .error)
        ++ others.map (.ofContribution .warning) ∧
      (∃ a ∈ r.errors, ∃ b ∈ r.errors, a.role.isCompatibleWith b.role = false) ∧
      (∀ e ∈ r.errors, e.standing = R) ∧
      r.evidence = (ofStanding R cs).flatMap (fun c => proposalSummary c :: c.evidence) ∧
      ∀ c ∈ ofStanding R cs, ∃ reason, (proposalSummary c).description
        = c.criterion ++ " proposed " ++ c.role.label ++ reason) := by
  intro r
  constructor
  · intro hstatus
    obtain ⟨winner, others, hdecide⟩ := exists_winner_of_classified hstatus
    have hr : r = classified id winner others := by rw [← ofDecision, ← hdecide]
    have hR := Decision.isTop_of_winner hdecide
    have hhead := ((Decision.decide_eq_winner_iff hR).1 hdecide).2.1
    rw [hr]
    exact ⟨winner, hR, hhead, rfl, rfl, rfl, exists_kept_of_winner hdecide,
      fun e he => standing_lt_of_mem_errors hdecide he⟩
  · intro hstatus
    obtain ⟨R, hR⟩ := exists_isTop_of_conflict hstatus
    have hcontra : Contradictory (ofStanding R cs) := (status_ofDecision_iff hR).1 hstatus
    have herrors : r.errors = (ofStanding R cs).map (.ofContribution .error) :=
      errors_ofDecision hR hcontra
    obtain ⟨others, hothers, hr⟩ : ∃ others, StableSort (notOfStanding R cs) others ∧
        r = contradicted id target (ofStanding R cs) others := exists_contradicted hR hcontra
    refine ⟨R, others, hR, hothers, by rw [hr]; rfl, ?_, ?_, by rw [hr]; rfl,
      fun c _ => description_proposalSummary c⟩
    · rw [herrors]
      exact contradictory_errors hcontra
    · intro e he
      rw [herrors] at he
      obtain ⟨c, hc, rfl⟩ := List.mem_map.1 he
      exact (mem_ofStanding.1 hc).2

section Example

open Decision

/-- A gateway that is less certain than the repository, which is proposed twice. -/
def settledProposals : List Contribution :=
  [proposal .drivenPort 75 .medium, proposal .gateway 80 .medium, proposal .repository 80 .high,
    proposal .repository 75 .high]

/-- The repository wins and keeps the gateway as an error, with less confidence. Of the same confidence
the two are errors of one rank, and the first line of the evidence is on the repository. -/
theorem gateway_kept_as_error :
    (let r := ofDecision (.ofType "bank.Rates") .port true (.decide settledProposals);
      r.status = .classified ∧ r.role = some .repository ∧
        ∃ e ∈ r.errors, e.role = .gateway ∧ e.standing < toLex (80, 2)) ∧
    (let r := ofDecision (.ofType "bank.Rates") .port true (.decide drivenProposals);
      r.status = .conflict ∧ r.conflicts.length = 5 ∧ (∀ e ∈ r.errors, e.standing = toLex (80, 2)) ∧
        r.evidence.head? = some (proposalSummary (proposal .repository 80 .high))) := by
  constructor
  · intro r
    have htop : IsTop settledProposals (toLex (80, 2)) := by
      refine ⟨⟨proposal .repository 80 .high, by simp [settledProposals], rfl⟩, ?_⟩
      rintro S ⟨c, hc, rfl⟩
      fin_cases hc <;> decide
    have hagree : ¬ Contradictory (ofStanding (toLex (80, 2)) settledProposals) := by
      rw [← hasContradiction_iff]
      decide
    have hstatus : r.status = .classified := by
      obtain ⟨winner, others, hdecide⟩ := (exists_winner_iff htop).2 hagree
      simp only [r, hdecide]
      rfl
    obtain ⟨winner, hR, hhead, hrole, -, -, ⟨kept, hkept, hconflicts⟩, hbelow⟩ :=
      (conflicts_of_decision _ _ _ _).1 hstatus
    rw [hR.unique htop] at hhead hbelow
    obtain rfl : proposal .repository 80 .high = winner := Option.some.inj hhead
    have hgateway : proposal .gateway 80 .medium ∈ kept := hkept.perm.mem_iff.2 (by decide)
    have herror : Conflict.ofContribution .error (proposal .gateway 80 .medium) ∈ r.errors := by
      refine List.mem_filter.2 ⟨?_, rfl⟩
      rw [hconflicts]
      exact List.mem_map_of_mem hgateway
    exact ⟨hstatus, hrole, _, herror, rfl, hbelow _ herror⟩
  · intro r
    have htop : IsTop drivenProposals (toLex (80, 2)) := by
      refine ⟨⟨proposal .gateway 80 .high, by simp [drivenProposals], rfl⟩, ?_⟩
      rintro S ⟨c, hc, rfl⟩
      fin_cases hc <;> decide
    have hstatus : r.status = .conflict := (status_ofDecision_iff htop).2
      ⟨proposal .repository 80 .high, by decide, proposal .gateway 80 .high, by decide, by decide⟩
    obtain ⟨R, others, hR, hothers, hconflicts, -, hone, hevidence, -⟩ :=
      (conflicts_of_decision _ _ _ _).2 hstatus
    obtain rfl := hR.unique htop
    have hlength : others.length = 2 := hothers.perm.length_eq
    refine ⟨hstatus, ?_, hone, ?_⟩
    · rw [hconflicts, List.length_append, List.length_map, List.length_map, hlength]
      rfl
    · rw [hevidence]
      rfl

end Example

end ClassificationResult

end RoleAudit
