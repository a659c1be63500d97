import RoleAudit.Proofs.Classification.Conflicts

/-!
# What decides a result

A result says how a type was decided. Beside that it keeps the matches that did not decide and the
remarks on criteria that failed. This module is about the first part alone: it is fixed by the
contributions of the greatest standing, whatever else is contributed, and a winner still wins when
other contributions are taken away.
-/

namespace RoleAudit

open Contribution

namespace Decision

variable {cs : List Contribution} {winner : Contribution} {others : List Contribution}

theorem isTop_of_winner (h : decide cs = .winner winner others) : IsTop cs winner.standing := by
  have hcs : cs ≠ [] := by
    intro hnil
    rw [decide_eq_empty_iff.2 hnil] at h
    exact nomatch h
  obtain ⟨R, hR⟩ := exists_isTop hcs
  have hhead := ((decide_eq_winner_iff hR).1 h).2.1
  rw [(mem_ofStanding.1 (List.mem_of_head? hhead)).2]
  exact hR

theorem winner_mem (h : decide cs = .winner winner others) : winner ∈ cs := by
  have hhead := ((decide_eq_winner_iff (isTop_of_winner h)).1 h).2.1
  exact (mem_ofStanding.1 (List.mem_of_head? hhead)).1

/-- Of two with the greatest standing the earlier one wins. -/
theorem winner_mem_left {early late : List Contribution}
    (h : decide (early ++ late) = .winner winner others) {y : Contribution} (hy : y ∈ early)
    (hle : winner.standing ≤ y.standing) : winner ∈ early := by
  have hR := isTop_of_winner h
  have hge : y.standing ≤ winner.standing := hR.2 ⟨y, List.mem_append_left _ hy, rfl⟩
  have htied : y ∈ ofStanding winner.standing early :=
    mem_ofStanding.2 ⟨hy, le_antisymm hge hle⟩
  have hhead := ((decide_eq_winner_iff hR).1 h).2.1
  rw [ofStanding, List.filter_append, ← ofStanding,
    List.head?_append_of_ne_nil _ (List.ne_nil_of_mem htied)] at hhead
  exact (mem_ofStanding.1 (List.mem_of_head? hhead)).1

/-- If all have one standing, none but the first can win. -/
theorem head?_of_winner (h : decide cs = .winner winner others)
    (hall : ∀ c ∈ cs, c.standing = winner.standing) : cs.head? = some winner := by
  have hhead := ((decide_eq_winner_iff (isTop_of_winner h)).1 h).2.1
  rwa [ofStanding, List.filter_eq_self.2 fun c hc => decide_eq_true (hall c hc)] at hhead

theorem decide_singleton (c : Contribution) : decide [c] = .winner c [] := by
  simp [decide, ranked, ofRanked, hasContradiction]

/-- The winner still wins when others are taken away. -/
theorem exists_winner_filter (h : decide cs = .winner winner others) (keep : Contribution → Bool)
    (hkeep : keep winner = true) :
    ∃ others', decide (cs.filter keep) = .winner winner others' := by
  have hR := isTop_of_winner h
  obtain ⟨hagree, hhead, -⟩ := (decide_eq_winner_iff hR).1 h
  have hmem : winner ∈ cs := winner_mem h
  have htied : ofStanding winner.standing (cs.filter keep)
      = (ofStanding winner.standing cs).filter keep := List.filter_comm ..
  have hR' : IsTop (cs.filter keep) winner.standing := by
    refine ⟨⟨winner, List.mem_filter.2 ⟨hmem, hkeep⟩, rfl⟩, ?_⟩
    rintro S ⟨x, hx, rfl⟩
    exact hR.2 ⟨x, (List.mem_filter.1 hx).1, rfl⟩
  have hagree' : ¬ Contradictory (ofStanding winner.standing (cs.filter keep)) := by
    rw [htied]
    rintro ⟨a, ha, b, hb, hab⟩
    exact hagree ⟨a, (List.mem_filter.1 ha).1, b, (List.mem_filter.1 hb).1, hab⟩
  have hhead' : (ofStanding winner.standing (cs.filter keep)).head? = some winner := by
    obtain ⟨tail, htail⟩ := List.head?_eq_some_iff.1 hhead
    rw [htied, htail, List.filter_cons_of_pos hkeep, List.head?_cons]
  obtain ⟨first, others', hdecide⟩ := (exists_winner_iff hR').2 hagree'
  have hfirst := ((decide_eq_winner_iff hR').1 hdecide).2.1
  obtain rfl : winner = first := Option.some.inj (hhead'.symm.trans hfirst)
  exact ⟨others', hdecide⟩

end Decision

namespace ClassificationResult

/-- The result without the matches that did not decide and without the remarks on failures. What is
left is the status, the target, the role with its direction, the confidence, the priority, the
criterion, the justification and the evidence. -/
def decided (r : ClassificationResult) : ClassificationResult :=
  { r with conflicts := [], diagnostics := [] }

/-- The type was decided with a priority: that of the winner, or that of the tied matches where they
contradict each other. -/
def DecidedAt (r : ClassificationResult) (p : Nat) : Prop :=
  (r.status = .classified ∧ r.priority = some p) ∨
    (r.status = .conflict ∧ ∃ e ∈ r.errors, e.priority = p)

variable {id : NodeId} {target : Family} {hasSignal hasSignal' : Bool} {cs cs' : List Contribution}
  {R : Nat ×ₗ Nat}

/-- Only those of the greatest standing decide. -/
theorem decided_eq_of_tied (hR : IsTop cs R) (hR' : IsTop cs' R)
    (htied : ofStanding R cs' = ofStanding R cs) :
    (ofDecision id target hasSignal' (.decide cs')).decided
      = (ofDecision id target hasSignal (.decide cs)).decided := by
  obtain ⟨top, rest, -, hhead, hdecide⟩ := Decision.exists_decide_eq hR
  obtain ⟨top', rest', -, hhead', hdecide'⟩ := Decision.exists_decide_eq hR'
  rw [htied, hhead] at hhead'
  obtain rfl : top = top' := Option.some.inj hhead'
  rw [hdecide, hdecide', htied]
  -- both are in conflict over one tied list, or both have one winner
  split <;> rfl

theorem decidedAt_of_isTop (hR : IsTop cs R) :
    (ofDecision id target hasSignal (.decide cs)).DecidedAt (ofLex R).1 := by
  by_cases hcontra : Contradictory (ofStanding R cs)
  · have ⟨a, ha, _⟩ := hcontra
    refine .inr ⟨(status_ofDecision_iff hR).2 hcontra, .ofContribution .error a, ?_, ?_⟩
    · rw [errors_ofDecision hR hcontra]
      exact List.mem_map_of_mem ha
    · rw [← (mem_ofStanding.1 ha).2]
      rfl
  · obtain ⟨winner, others, hdecide⟩ := (Decision.exists_winner_iff hR).2 hcontra
    rw [hdecide, hR.unique (Decision.isTop_of_winner hdecide)]
    exact .inl ⟨rfl, rfl⟩

/-- The priority with which a type was decided is that of the greatest standing. -/
theorem exists_isTop_of_decidedAt {p : Nat}
    (h : (ofDecision id target hasSignal (.decide cs)).DecidedAt p) :
    ∃ R, IsTop cs R ∧ (ofLex R).1 = p := by
  rcases h with ⟨hstatus, hpriority⟩ | ⟨hstatus, e, he, rfl⟩
  · cases hdecide : Decision.decide cs with
    | winner winner others =>
      rw [hdecide] at hpriority
      exact ⟨_, Decision.isTop_of_winner hdecide, Option.some.inj hpriority⟩
    | conflict tied others =>
      rw [hdecide] at hpriority
      exact nomatch hpriority
    | empty =>
      rw [hdecide] at hpriority
      exact nomatch hpriority
  · obtain ⟨R, hR⟩ := exists_isTop_of_conflict hstatus
    rw [errors_ofDecision hR ((status_ofDecision_iff hR).1 hstatus)] at he
    obtain ⟨x, hx, rfl⟩ := List.mem_map.1 he
    refine ⟨R, hR, ?_⟩
    rw [← (mem_ofStanding.1 hx).2]
    rfl

end ClassificationResult

end RoleAudit
