import Mathlib
import RoleAudit.Classification.Decision

/-!
# How contributions are decided

A decision sorts the contributions and cuts the sorted list at the end of the first rank. This module
says what comes out without the sorting: the standing of a contribution is its priority and then its
confidence, those of the greatest standing are tied, two of them whose roles contradict each other
make a conflict, and otherwise the first of them in the order of the input wins. What is left over
comes by standing, those of one standing in the order of the input.
-/

namespace RoleAudit

namespace Role

theorem isCompatibleWith_self (a : Role) : a.isCompatibleWith a = true := by
  simp [isCompatibleWith]

theorem isCompatibleWith_comm (a b : Role) : a.isCompatibleWith b = b.isCompatibleWith a := by
  cases a <;> cases b <;> rfl

end Role

namespace Contribution

/-- Priority first, then confidence. -/
def standing (c : Contribution) : Nat ×ₗ Nat := toLex (c.priority, c.confidence.strength)

theorem rank_le_iff {a b : Contribution} : a.rank ≤ b.rank ↔ a.standing ≤ b.standing := by
  have hstrength : ∀ k : Confidence, k.strength < 3 := by
    intro k
    cases k <;> decide
  have ha := hstrength a.confidence
  have hb := hstrength b.confidence
  simp only [rank, standing, Prod.Lex.toLex_le_toLex]
  omega

theorem rank_eq_iff {a b : Contribution} : a.rank = b.rank ↔ a.standing = b.standing := by
  rw [le_antisymm_iff, le_antisymm_iff, rank_le_iff, rank_le_iff]

/-- The contributions of one standing, in order. -/
def ofStanding (R : Nat ×ₗ Nat) (cs : List Contribution) : List Contribution :=
  cs.filter (·.standing = R)

/-- The contributions of all other standings, in order. -/
def notOfStanding (R : Nat ×ₗ Nat) (cs : List Contribution) : List Contribution :=
  cs.filter (·.standing ≠ R)

/-- The greatest standing among the contributions. -/
def IsTop (cs : List Contribution) (R : Nat ×ₗ Nat) : Prop :=
  IsGreatest {S | ∃ c ∈ cs, c.standing = S} R

/-- Two of the contributions have roles that are not compatible with each other. -/
def Contradictory (cs : List Contribution) : Prop :=
  ∃ a ∈ cs, ∃ b ∈ cs, a.role.isCompatibleWith b.role = false

/-- The same contributions from the greatest standing to the least, those of one standing in the order
in which they were given. -/
structure StableSort (cs sorted : List Contribution) : Prop where
  perm : sorted.Perm cs
  descending : sorted.Pairwise fun a b => b.standing ≤ a.standing
  stable : ∀ R, ofStanding R sorted = ofStanding R cs

variable {cs cs' : List Contribution} {R : Nat ×ₗ Nat}

theorem mem_ofStanding {c : Contribution} : c ∈ ofStanding R cs ↔ c ∈ cs ∧ c.standing = R := by
  simp [ofStanding]

theorem ofStanding_append_perm (R : Nat ×ₗ Nat) (cs : List Contribution) :
    (ofStanding R cs ++ notOfStanding R cs).Perm cs := by
  have h := List.filter_append_perm (fun c : Contribution => c.standing = R) cs
  simpa [ofStanding, notOfStanding] using h

theorem Contradictory.perm (h : Contradictory cs) (hperm : cs'.Perm cs) : Contradictory cs' := by
  obtain ⟨a, ha, b, hb, hab⟩ := h
  exact ⟨a, hperm.mem_iff.2 ha, b, hperm.mem_iff.2 hb, hab⟩

/-! ## The stable sort -/

theorem before_trans (a b c : Contribution) (hab : decide (b.rank ≤ a.rank) = true)
    (hbc : decide (c.rank ≤ b.rank) = true) : decide (c.rank ≤ a.rank) = true := by
  rw [decide_eq_true_eq] at hab hbc ⊢
  omega

theorem before_total (a b : Contribution) :
    (decide (b.rank ≤ a.rank) || decide (a.rank ≤ b.rank)) = true := by
  rw [Bool.or_eq_true, decide_eq_true_eq, decide_eq_true_eq]
  omega

theorem ranked_descending (cs : List Contribution) :
    (ranked cs).Pairwise fun a b => b.standing ≤ a.standing := by
  have hsorted := List.pairwise_mergeSort before_trans before_total cs
  refine hsorted.imp fun {a b} hab => ?_
  exact rank_le_iff.1 (of_decide_eq_true hab)

theorem ofStanding_ranked (R : Nat ×ₗ Nat) (cs : List Contribution) :
    ofStanding R (ranked cs) = ofStanding R cs := by
  -- those of one standing are sorted as they are, so the sort keeps them as a sublist
  have htied : (ofStanding R cs).Pairwise fun a b => decide (b.rank ≤ a.rank) = true := by
    refine List.pairwise_of_forall_mem_list ?_
    intro a ha b hb
    rw [decide_eq_true_eq, rank_le_iff, (mem_ofStanding.1 ha).2, (mem_ofStanding.1 hb).2]
  have hsub : (ofStanding R cs).Sublist (ranked cs) :=
    List.sublist_mergeSort before_trans before_total htied List.filter_sublist
  have hfiltered : (ofStanding R cs).Sublist (ofStanding R (ranked cs)) := by
    have h := hsub.filter fun c => decide (c.standing = R)
    simpa [ofStanding] using h
  have hlength : (ofStanding R (ranked cs)).length = (ofStanding R cs).length :=
    ((List.mergeSort_perm cs _).filter _).length_eq
  exact (hfiltered.eq_of_length hlength.symm).symm

theorem stableSort_ranked (cs : List Contribution) : StableSort cs (ranked cs) where
  perm := List.mergeSort_perm _ _
  descending := ranked_descending cs
  stable R := ofStanding_ranked R cs

theorem mem_iff_of_ofStanding_eq {s s' : List Contribution}
    (h : ∀ R, ofStanding R s = ofStanding R s') (c : Contribution) : c ∈ s ↔ c ∈ s' := by
  have hc : c ∈ ofStanding c.standing s ↔ c ∈ ofStanding c.standing s' := by rw [h]
  simpa [mem_ofStanding] using hc

/-- Two descending lists that agree on every standing are equal. -/
theorem eq_of_descending {s s' : List Contribution}
    (hs : s.Pairwise fun a b => b.standing ≤ a.standing)
    (hs' : s'.Pairwise fun a b => b.standing ≤ a.standing)
    (h : ∀ R, ofStanding R s = ofStanding R s') : s = s' := by
  have hmem := mem_iff_of_ofStanding_eq h
  induction s generalizing s' with
  | nil =>
    cases s' with
    | nil => rfl
    | cons b s' => exact absurd ((hmem b).2 List.mem_cons_self) List.not_mem_nil
  | cons a s ih =>
    cases s' with
    | nil => exact absurd ((hmem a).1 List.mem_cons_self) List.not_mem_nil
    | cons b s' =>
      rw [List.pairwise_cons] at hs hs'
      -- the heads are of the greatest standing of either list
      have hba : b.standing ≤ a.standing := by
        rcases List.mem_cons.1 ((hmem b).2 List.mem_cons_self) with hb | hb
        · rw [hb]
        · exact hs.1 b hb
      have hab : a.standing ≤ b.standing := by
        rcases List.mem_cons.1 ((hmem a).1 List.mem_cons_self) with ha | ha
        · rw [ha]
        · exact hs'.1 a ha
      have heads := h b.standing
      simp only [ofStanding, List.filter_cons, le_antisymm hab hba, decide_true, if_true] at heads
      obtain ⟨rfl, -⟩ := List.cons.inj heads
      have htails : ∀ R, ofStanding R s = ofStanding R s' := by
        intro R
        have hR := h R
        by_cases haR : a.standing = R
        · simpa [ofStanding, haR] using hR
        · simpa [ofStanding, haR] using hR
      rw [ih hs.2 hs'.2 htails (mem_iff_of_ofStanding_eq htails)]

theorem StableSort.eq {s s' : List Contribution} (h : StableSort cs s) (h' : StableSort cs s') :
    s = s' :=
  eq_of_descending h.descending h'.descending fun R => (h.stable R).trans (h'.stable R).symm

theorem stableSort_iff {s : List Contribution} : StableSort cs s ↔ s = ranked cs := by
  constructor
  · intro h
    exact h.eq (stableSort_ranked cs)
  · rintro rfl
    exact stableSort_ranked cs

/-! ## The cut at the end of the first rank -/

theorem IsTop.ne_nil (h : IsTop cs R) : cs ≠ [] := by
  obtain ⟨c, hc, -⟩ := h.1
  exact List.ne_nil_of_mem hc

theorem isTop_of_ranked_eq_cons {top : Contribution} {rest : List Contribution}
    (h : ranked cs = top :: rest) : IsTop cs top.standing := by
  have hsort := stableSort_ranked cs
  rw [h] at hsort
  refine ⟨⟨top, hsort.perm.mem_iff.1 List.mem_cons_self, rfl⟩, ?_⟩
  rintro S ⟨c, hc, rfl⟩
  rcases List.mem_cons.1 (hsort.perm.mem_iff.2 hc) with rfl | hrest
  · exact le_rfl
  · exact (List.pairwise_cons.1 hsort.descending).1 c hrest

theorem exists_isTop (h : cs ≠ []) : ∃ R, IsTop cs R := by
  cases hranked : ranked cs with
  | nil =>
    have hperm := (stableSort_ranked cs).perm
    rw [hranked] at hperm
    exact absurd hperm.nil_eq.symm h
  | cons top rest => exact ⟨top.standing, isTop_of_ranked_eq_cons hranked⟩

theorem isTop_congr (h : cs'.Perm cs) : IsTop cs' R ↔ IsTop cs R := by
  simp only [IsTop, h.mem_iff]

/-- In a descending list those of the greatest standing come first. -/
theorem takeWhile_dropWhile_of_descending {s : List Contribution}
    (hs : s.Pairwise fun a b => b.standing ≤ a.standing) (hle : ∀ c ∈ s, c.standing ≤ R) :
    s.takeWhile (·.standing = R) = ofStanding R s ∧
      s.dropWhile (·.standing = R) = notOfStanding R s := by
  induction s with
  | nil => exact ⟨rfl, rfl⟩
  | cons a s ih =>
    rw [List.pairwise_cons] at hs
    obtain ⟨htake, hdrop⟩ := ih hs.2 fun c hc => hle c (List.mem_cons_of_mem _ hc)
    by_cases ha : a.standing = R
    · simp [ofStanding, notOfStanding, ha] at htake hdrop ⊢
      exact ⟨htake, hdrop⟩
    · have hlt : a.standing < R := lt_of_le_of_ne (hle a List.mem_cons_self) ha
      have hrest : ∀ c ∈ s, c.standing ≠ R := fun c hc => ((hs.1 c hc).trans_lt hlt).ne
      have hnone : ofStanding R (a :: s) = [] := by
        refine List.filter_eq_nil_iff.2 fun c hc => ?_
        rcases List.mem_cons.1 hc with rfl | hc
        · simpa using ha
        · simpa using hrest c hc
      have hall : notOfStanding R (a :: s) = a :: s := by
        refine List.filter_eq_self.2 fun c hc => ?_
        rcases List.mem_cons.1 hc with rfl | hc
        · simpa using ha
        · simpa using hrest c hc
      rw [hnone, hall]
      simp [ha]

/-- Who is left out does not disturb the order of the others. -/
theorem StableSort.filter {s : List Contribution} (h : StableSort cs s) (p : Contribution → Bool) :
    StableSort (cs.filter p) (s.filter p) where
  perm := h.perm.filter p
  descending := h.descending.filter p
  stable S := by
    have hswap : ∀ l : List Contribution, ofStanding S (l.filter p) = (ofStanding S l).filter p :=
      fun l => List.filter_comm ..
    rw [hswap, hswap, h.stable]

theorem stableSort_notOfStanding (R : Nat ×ₗ Nat) (cs : List Contribution) :
    StableSort (notOfStanding R cs) (notOfStanding R (ranked cs)) :=
  (stableSort_ranked cs).filter _

end Contribution

namespace Decision

open Contribution

variable {cs cs' : List Contribution} {R : Nat ×ₗ Nat}

/-- Each pair is looked at once and in one order, which is enough as compatibility is symmetric and
every role is compatible with itself. -/
theorem hasContradiction_iff {cs : List Contribution} :
    hasContradiction cs = true ↔ Contradictory cs := by
  induction cs with
  | nil => simp [hasContradiction, Contradictory]
  | cons c rest ih =>
    rw [hasContradiction, Bool.or_eq_true, List.any_eq_true, ih]
    constructor
    · rintro (⟨d, hd, hcd⟩ | ⟨a, ha, b, hb, hab⟩)
      · exact ⟨c, List.mem_cons_self, d, List.mem_cons_of_mem _ hd, by simpa using hcd⟩
      · exact ⟨a, List.mem_cons_of_mem _ ha, b, List.mem_cons_of_mem _ hb, hab⟩
    · rintro ⟨a, ha, b, hb, hab⟩
      rw [List.mem_cons] at ha hb
      rcases ha with rfl | ha
      · rcases hb with rfl | hb
        · rw [Role.isCompatibleWith_self] at hab
          exact absurd hab (by simp)
        · exact Or.inl ⟨b, hb, by simp [hab]⟩
      · rcases hb with rfl | hb
        · rw [Role.isCompatibleWith_comm] at hab
          exact Or.inl ⟨a, ha, by simp [hab]⟩
        · exact Or.inr ⟨a, ha, b, hb, hab⟩

/-- The decision read off the input: the tied ones in order, and the rest by standing. -/
theorem exists_decide_eq (h : IsTop cs R) :
    ∃ top rest, ranked cs = top :: rest ∧ (ofStanding R cs).head? = some top ∧
      decide cs = if hasContradiction (ofStanding R cs)
        then .conflict (ofStanding R cs) (notOfStanding R (ranked cs)) else .winner top rest := by
  cases hranked : ranked cs with
  | nil =>
    have hperm := (stableSort_ranked cs).perm
    rw [hranked] at hperm
    exact absurd hperm.nil_eq.symm h.ne_nil
  | cons top rest =>
    obtain rfl : R = top.standing := h.unique (isTop_of_ranked_eq_cons hranked)
    have hle : ∀ c ∈ top :: rest, c.standing ≤ top.standing := by
      intro c hc
      rw [← hranked] at hc
      exact h.2 ⟨c, (List.mergeSort_perm cs _).mem_iff.1 hc, rfl⟩
    have hdescending := ranked_descending cs
    have hstable := ofStanding_ranked top.standing cs
    rw [hranked] at hdescending hstable
    obtain ⟨htake, hdrop⟩ := takeWhile_dropWhile_of_descending hdescending hle
    refine ⟨top, rest, rfl, ?_, ?_⟩
    · rw [← hstable]
      simp [ofStanding]
    · rw [decide, hranked, ofRanked]
      simp only [rank_eq_iff]
      rw [htake, hdrop, hstable]

/-- All contributions of a decision, those that decided first. -/
def contributions : Decision → List Contribution
  | .empty => []
  | .winner first others => first :: others
  | .conflict tied others => tied ++ others

theorem decide_nil : decide [] = .empty := by
  simp [decide, ranked, ofRanked]

/-- No contribution is lost and none is doubled. -/
theorem contributions_decide_perm (cs : List Contribution) : (decide cs).contributions.Perm cs := by
  by_cases hcs : cs = []
  · rw [hcs, decide_nil, contributions]
  · obtain ⟨R, hR⟩ := exists_isTop hcs
    obtain ⟨top, rest, hranked, -, heq⟩ := exists_decide_eq hR
    rw [heq]
    split
    · have hrest : (notOfStanding R (ranked cs)).Perm (notOfStanding R cs) :=
        (stableSort_notOfStanding R cs).perm
      exact (hrest.append_left _).trans (ofStanding_append_perm R cs)
    · rw [contributions, ← hranked]
      exact (stableSort_ranked cs).perm

theorem decide_eq_empty_iff : decide cs = .empty ↔ cs = [] := by
  constructor
  · intro h
    have hperm := contributions_decide_perm cs
    rw [h] at hperm
    exact hperm.nil_eq.symm
  · rintro rfl
    exact decide_nil

theorem decide_eq_conflict_iff (h : IsTop cs R) {tied others : List Contribution} :
    decide cs = .conflict tied others ↔ Contradictory (ofStanding R cs) ∧
      tied = ofStanding R cs ∧ StableSort (notOfStanding R cs) others := by
  obtain ⟨top, rest, -, -, heq⟩ := exists_decide_eq h
  have hsort := stableSort_notOfStanding R cs
  rw [heq, ← hasContradiction_iff]
  split
  · rename_i hcontra
    rw [Decision.conflict.injEq]
    constructor
    · rintro ⟨rfl, rfl⟩
      exact ⟨hcontra, rfl, hsort⟩
    · rintro ⟨-, rfl, hothers⟩
      exact ⟨rfl, hsort.eq hothers⟩
  · rename_i hcontra
    exact iff_of_false (by simp) fun hall => hcontra hall.1

theorem decide_eq_winner_iff (h : IsTop cs R) {winner : Contribution} {others : List Contribution} :
    decide cs = .winner winner others ↔ ¬ Contradictory (ofStanding R cs) ∧
      (ofStanding R cs).head? = some winner ∧ StableSort cs (winner :: others) := by
  obtain ⟨top, rest, hranked, hhead, heq⟩ := exists_decide_eq h
  rw [heq, ← hasContradiction_iff, hhead, stableSort_iff, hranked]
  split
  · rename_i hcontra
    exact iff_of_false (by simp) fun hall => hall.1 hcontra
  · rename_i hcontra
    rw [Decision.winner.injEq, List.cons.injEq, Option.some.injEq]
    constructor
    · rintro ⟨rfl, rfl⟩
      exact ⟨hcontra, rfl, rfl, rfl⟩
    · rintro ⟨-, rfl, -, rfl⟩
      exact ⟨rfl, rfl⟩

theorem exists_conflict_iff (h : IsTop cs R) :
    (∃ tied others, decide cs = .conflict tied others) ↔ Contradictory (ofStanding R cs) := by
  constructor
  · rintro ⟨tied, others, heq⟩
    exact ((decide_eq_conflict_iff h).1 heq).1
  · intro hcontra
    exact ⟨_, _, (decide_eq_conflict_iff h).2 ⟨hcontra, rfl, stableSort_notOfStanding R cs⟩⟩

theorem exists_winner_iff (h : IsTop cs R) :
    (∃ winner others, decide cs = .winner winner others) ↔ ¬ Contradictory (ofStanding R cs) := by
  constructor
  · rintro ⟨winner, others, heq⟩
    exact ((decide_eq_winner_iff h).1 heq).1
  · intro hagree
    obtain ⟨top, rest, hranked, hhead, -⟩ := exists_decide_eq h
    exact ⟨top, rest, (decide_eq_winner_iff h).2 ⟨hagree, hhead, hranked ▸ stableSort_ranked cs⟩⟩

/-- The order of the contributions does not tell whether one of them wins. -/
theorem outcome_of_perm (hperm : cs'.Perm cs) :
    ((∃ tied others, decide cs' = .conflict tied others) ↔
        ∃ tied others, decide cs = .conflict tied others) ∧
      ((∃ winner others, decide cs' = .winner winner others) ↔
        ∃ winner others, decide cs = .winner winner others) := by
  by_cases hcs : cs = []
  · subst hcs
    obtain rfl := hperm.eq_nil
    exact ⟨Iff.rfl, Iff.rfl⟩
  · obtain ⟨R, hR⟩ := exists_isTop hcs
    have hR' := (isTop_congr hperm).2 hR
    have htied : (ofStanding R cs').Perm (ofStanding R cs) := hperm.filter _
    have hsame : Contradictory (ofStanding R cs') ↔ Contradictory (ofStanding R cs) :=
      ⟨fun h => h.perm htied.symm, fun h => h.perm htied⟩
    rw [exists_conflict_iff hR, exists_conflict_iff hR', exists_winner_iff hR,
      exists_winner_iff hR', hsame]
    exact ⟨Iff.rfl, Iff.rfl⟩

/-- What a decision is, for any contributions. There is none exactly for no contributions. Else they
have a greatest standing. If two of those that have it contradict each other, all that have it are the
conflict, and the others follow by a stable sort. If no two do, the first of them wins, and it begins
the stable sort of all. No contribution is lost or doubled, and neither the kind of the outcome nor
the greatest standing nor those that have it, up to order, depend on the order of the input. -/
theorem decide_settles_greatest_standing (cs : List Contribution) :
    (decide cs = .empty ↔ cs = []) ∧
    (cs ≠ [] → ∃ R, IsTop cs R) ∧
    (∀ R, IsTop cs R →
      (∀ tied others, decide cs = .conflict tied others ↔
        Contradictory (ofStanding R cs) ∧ tied = ofStanding R cs ∧
          StableSort (notOfStanding R cs) others) ∧
      (∀ winner others, decide cs = .winner winner others ↔
        ¬ Contradictory (ofStanding R cs) ∧ (ofStanding R cs).head? = some winner ∧
          StableSort cs (winner :: others))) ∧
    (decide cs).contributions.Perm cs ∧
    ∀ cs', cs'.Perm cs →
      ((∃ tied others, decide cs' = .conflict tied others) ↔
        ∃ tied others, decide cs = .conflict tied others) ∧
      ((∃ winner others, decide cs' = .winner winner others) ↔
        ∃ winner others, decide cs = .winner winner others) ∧
      ∀ R, (IsTop cs' R ↔ IsTop cs R) ∧ (ofStanding R cs').Perm (ofStanding R cs) := by
  refine ⟨decide_eq_empty_iff, exists_isTop, ?_, contributions_decide_perm cs, ?_⟩
  · intro R hR
    exact ⟨fun tied others => decide_eq_conflict_iff hR,
      fun winner others => decide_eq_winner_iff hR⟩
  · intro cs' hperm
    obtain ⟨hconflict, hwinner⟩ := outcome_of_perm hperm
    exact ⟨hconflict, hwinner, fun R => ⟨isTop_congr hperm, hperm.filter _⟩⟩

section Example

/-- A proposal of a role for one interface. -/
def proposal (role : Role) (priority : Nat) (confidence : Confidence) : Contribution where
  criterion := role.label
  role := role
  priority := priority
  confidence := confidence
  justification := ""
  evidence := []

/-- A driven port may be a repository and may be a gateway, but nothing is both. -/
def drivenProposals : List Contribution :=
  [proposal .drivenPort 75 .medium, proposal .repository 80 .high, proposal .drivenPort 80 .high,
    proposal .query 80 .medium, proposal .gateway 80 .high]

/-- The driven port is compatible with the repository and with the gateway, and still the conflict has
all three. Of the others the one with the higher priority comes first. -/
theorem repository_and_gateway_conflict :
    decide drivenProposals = .conflict
      [proposal .repository 80 .high, proposal .drivenPort 80 .high, proposal .gateway 80 .high]
      [proposal .query 80 .medium, proposal .drivenPort 75 .medium] := by
  have htop : IsTop drivenProposals (toLex (80, 2)) := by
    refine ⟨⟨proposal .gateway 80 .high, by simp [drivenProposals], rfl⟩, ?_⟩
    rintro S ⟨c, hc, rfl⟩
    fin_cases hc <;> decide
  refine (((decide_settles_greatest_standing drivenProposals).2.2.1 _ htop).1 _ _).2 ⟨?_, rfl, ?_⟩
  · exact ⟨proposal .repository 80 .high, by decide, proposal .gateway 80 .high, by decide, by decide⟩
  · refine ⟨List.Perm.swap _ _ _, by decide, ?_⟩
    intro R
    by_cases hquery : toLex (80, 1) = R
    · subst hquery
      decide
    · by_cases hdriven : toLex (75, 1) = R
      · subst hdriven
        decide
      · simp [ofStanding, notOfStanding, drivenProposals, standing, proposal, Confidence.strength,
          hquery, hdriven]

end Example

end Decision

end RoleAudit
