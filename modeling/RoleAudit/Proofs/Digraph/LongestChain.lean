import RoleAudit.Proofs.Digraph.Condensation
import RoleAudit.Proofs.Digraph.TopologicalOrder

/-!
# The longest chain of a graph

The pass over a graph in order keeps three facts. The length that it has for a node is that of a chain
which ends there; along an edge from a node that was passed the length grows; and the longest of all is
that of a node that was passed. A node that was passed keeps its length, since only edges from earlier
nodes lead to it. At the end the length grows along every edge, so that no chain is longer than the
length at its end.
-/

namespace RoleAudit.Digraph

variable {α : Type} [Ord α]

namespace Chains

/-- What the pass keeps; `passed` are the nodes so far. -/
structure Inv (g : Digraph α) (passed : List α) (s : Chains α) : Prop where
  /-- A length is that of a chain. -/
  sound : ∀ b ∈ g.nodes, ∃ a ∈ g.nodes, g.Crosses (s.lengthAt b) a b
  /-- Along an edge from a node that was passed the length grows. -/
  grows : ∀ a ∈ passed, ∀ b, g.Leads a b → s.lengthAt a + 1 ≤ s.lengthAt b
  /-- The longest chain is no shorter than those to the nodes passed. -/
  bound : ∀ a ∈ passed, s.lengthAt a ≤ s.longest
  /-- The longest chain is one of them. -/
  attained : passed ≠ [] → ∃ a ∈ passed, s.lengthAt a = s.longest
  /-- Without a node there is no chain. -/
  none_passed : passed = [] → s.longest = 0

variable [Std.TransOrd α]

theorem inv_start (g : Digraph α) : Inv g [] (start : Chains α) where
  sound b hb := by
    have hzero : (start : Chains α).lengthAt b = 0 := by
      simp [start, lengthAt, Std.TreeMap.getD_emptyc]
    rw [hzero]
    exact ⟨b, hb, .refl b⟩
  grows a ha := absurd ha List.not_mem_nil
  bound a ha := absurd ha List.not_mem_nil
  attained hne := absurd rfl hne
  none_passed _ := rfl

variable [Std.LawfulEqOrd α]

theorem getD_reach (length : Nat) (m : Std.TreeMap α Nat) (a b : α) :
    (b = a → (reach length m a).getD b 0 = max (m.getD b 0) length) ∧
    (b ≠ a → (reach length m a).getD b 0 = m.getD b 0) := by
  constructor
  · rintro rfl
    simp [reach]
  · intro hne
    have hcmp : compare a b ≠ .eq := fun he => hne (Std.LawfulEqOrd.eq_of_compare he).symm
    simp [reach, Std.TreeMap.getD_insert, hcmp]

/-- Carrying a chain on to some nodes changes the lengths of those only. -/
theorem getD_foldl_reach (length : Nat) (nodes : List α) (m : Std.TreeMap α Nat) (b : α) :
    (b ∈ nodes → (nodes.foldl (reach length) m).getD b 0 = max (m.getD b 0) length) ∧
    (b ∉ nodes → (nodes.foldl (reach length) m).getD b 0 = m.getD b 0) := by
  induction nodes generalizing m with
  | nil => exact ⟨fun hb => absurd hb List.not_mem_nil, fun _ => rfl⟩
  | cons a rest ih =>
    obtain ⟨hmem, hnot⟩ := ih (reach length m a)
    obtain ⟨hself, hother⟩ := getD_reach length m a b
    rw [List.foldl_cons]
    by_cases hb : b ∈ rest
    · refine ⟨fun _ => ?_, fun hn => absurd (List.mem_cons_of_mem a hb) hn⟩
      rw [hmem hb]
      by_cases hba : b = a
      · rw [hself hba]
        omega
      · rw [hother hba]
    · rw [hnot hb]
      refine ⟨fun hin => ?_, fun hn => hother fun hba => hn (hba ▸ List.mem_cons_self)⟩
      exact hself ((List.mem_cons.1 hin).resolve_right hb)

variable {g : Digraph α} {s : Chains α} {a b : α}

theorem lengthAt_pass_of_leads (hl : g.Leads a b) :
    (s.pass g a).lengthAt b = max (s.lengthAt b) (s.lengthAt a + 1) :=
  (getD_foldl_reach (s.lengthAt a + 1) (g.successors a) s.endingAt b).1 hl

theorem lengthAt_pass_of_not_leads (hl : ¬ g.Leads a b) :
    (s.pass g a).lengthAt b = s.lengthAt b :=
  (getD_foldl_reach (s.lengthAt a + 1) (g.successors a) s.endingAt b).2 hl

theorem lengthAt_le_pass : s.lengthAt b ≤ (s.pass g a).lengthAt b := by
  by_cases hl : g.Leads a b
  · rw [lengthAt_pass_of_leads hl]
    exact Nat.le_max_left _ _
  · rw [lengthAt_pass_of_not_leads hl]

/-- Passing a node of the graph whose edges lead to nodes that were not passed. -/
theorem Inv.pass {passed : List α} (h : Inv g passed s) (ha : a ∈ g.nodes)
    (hforward : ∀ b, g.Leads a b → b ∉ passed ++ [a]) (happart : ∀ b, g.Leads a b → ¬ g.Together a b) :
    Inv g (passed ++ [a]) (s.pass g a) := by
  have hkeeps : ∀ b ∈ passed ++ [a], (s.pass g a).lengthAt b = s.lengthAt b := fun b hb =>
    lengthAt_pass_of_not_leads fun hl => hforward b hl hb
  have hlongest : (s.pass g a).longest = max s.longest (s.lengthAt a) := rfl
  refine ⟨?sound, ?grows, ?bound, ?attained, fun hnil => absurd hnil (by simp)⟩
  case sound =>
    intro b hb
    by_cases hl : g.Leads a b
    · rw [lengthAt_pass_of_leads hl]
      rcases Nat.le_total (s.lengthAt a + 1) (s.lengthAt b) with hle | hle
      · rw [Nat.max_eq_left hle]
        exact h.sound b hb
      · -- the chain to `a` goes on to `b`
        rw [Nat.max_eq_right hle]
        obtain ⟨c, hc, hca⟩ := h.sound a ha
        exact ⟨c, hc, hca.trans (.across hl (happart b hl) (.refl b))⟩
    · rw [lengthAt_pass_of_not_leads hl]
      exact h.sound b hb
  case grows =>
    intro c hc b hl
    rw [hkeeps c hc]
    rcases List.mem_append.1 hc with hc | hc
    · exact Nat.le_trans (h.grows c hc b hl) lengthAt_le_pass
    · obtain rfl := List.mem_singleton.1 hc
      rw [lengthAt_pass_of_leads hl]
      exact Nat.le_max_right _ _
  case bound =>
    intro c hc
    rw [hkeeps c hc, hlongest]
    rcases List.mem_append.1 hc with hc | hc
    · exact Nat.le_trans (h.bound c hc) (Nat.le_max_left _ _)
    · rw [List.mem_singleton.1 hc]
      exact Nat.le_max_right _ _
  case attained =>
    intro _
    rw [hlongest]
    by_cases hle : s.longest ≤ s.lengthAt a
    · refine ⟨a, List.mem_append_right _ List.mem_cons_self, ?_⟩
      rw [hkeeps a (List.mem_append_right _ List.mem_cons_self), Nat.max_eq_right hle]
    · have hne : passed ≠ [] := fun hnil => hle (h.none_passed hnil ▸ Nat.zero_le _)
      obtain ⟨c, hc, heq⟩ := h.attained hne
      refine ⟨c, List.mem_append_left _ hc, ?_⟩
      rw [hkeeps c (List.mem_append_left _ hc), heq, Nat.max_eq_left (Nat.le_of_not_le hle)]

omit [Std.TransOrd α] [Std.LawfulEqOrd α] in
/-- Where the length grows along every edge, a walk is no longer than the length at its end. -/
theorem Inv.le_lengthAt (hg : g.WellFormed) {passed : List α} (h : Inv g passed s)
    (hall : ∀ a ∈ g.nodes, a ∈ passed) {k : Nat} (hk : g.Crosses k a b) :
    s.lengthAt a + k ≤ s.lengthAt b := by
  induction hk with
  | refl a => exact Nat.le_refl _
  | within hl _ _ ih =>
    have hstep := h.grows _ (hall _ (hg.leads_mem hl).1) _ hl
    omega
  | across hl _ _ ih =>
    have hstep := h.grows _ (hall _ (hg.leads_mem hl).1) _ hl
    omega

end Chains

variable [Std.TransOrd α] [Std.LawfulEqOrd α]

namespace IsTopologicalOrder

variable {g : Digraph α} {order : List α} (h : g.IsTopologicalOrder order) (hg : g.WellFormed)

include h hg

/-- The whole pass keeps the invariant. -/
theorem inv_foldl_pass (rest : List α) (passed : List α) (s : Chains α)
    (horder : order = passed ++ rest) (hs : s.Inv g passed) :
    (rest.foldl (Chains.pass g) s).Inv g order := by
  induction rest generalizing passed s with
  | nil =>
    rw [List.append_nil] at horder
    exact horder ▸ hs
  | cons a rest ih =>
    have ha : a ∈ g.nodes := h.perm.subset (horder ▸ List.mem_append_right _ List.mem_cons_self)
    have horder' : order = (passed ++ [a]) ++ rest := by rw [horder, List.append_assoc]; rfl
    have hnodup := h.nodup hg
    rw [horder'] at hnodup
    have hforward : ∀ b, g.Leads a b → b ∉ passed ++ [a] := fun b hl hb =>
      (List.nodup_append.1 hnodup).2.2 b hb b (h.forward passed a rest horder b hl) rfl
    exact ih (passed ++ [a]) _ horder' (hs.pass ha hforward fun b hl => h.not_together hg hl)

theorem longestAlong_eq_zero (hnil : g.nodes = []) : g.longestAlong order = 0 := by
  have hinv := h.inv_foldl_pass hg order [] .start rfl (Chains.inv_start g)
  exact hinv.none_passed (List.perm_nil.1 (hnil ▸ h.perm))

/-- The longest chain is the greatest number of edges that one walk uses. -/
theorem isGreatest_longestAlong (hne : g.nodes ≠ []) :
    IsGreatest {k | ∃ a ∈ g.nodes, ∃ b, g.Crosses k a b} (g.longestAlong order) := by
  have hinv := h.inv_foldl_pass hg order [] .start rfl (Chains.inv_start g)
  have hall : ∀ a ∈ g.nodes, a ∈ order := fun a ha => h.perm.symm.subset ha
  constructor
  · have horder : order ≠ [] := fun hnil => hne (List.nil_perm.1 (hnil ▸ h.perm))
    obtain ⟨b, hb, hlongest⟩ := hinv.attained horder
    obtain ⟨a, ha, hcrosses⟩ := hinv.sound b (h.perm.subset hb)
    rw [hlongest] at hcrosses
    exact ⟨a, ha, b, hcrosses⟩
  · rintro k ⟨a, ha, b, hcrosses⟩
    have hlength := hinv.le_lengthAt hg hall hcrosses
    have hbound := hinv.bound b (hall b (hcrosses.mem_nodes hg ha))
    exact Nat.le_trans (Nat.le_trans (Nat.le_add_left _ _) hlength) hbound

end IsTopologicalOrder

variable [DecidableEq α]

section WellFormed

variable {g : Digraph α} (hg : g.WellFormed)

include hg

/-- The condensation has walks with the same numbers of edges between components as the graph. -/
theorem WellFormed.setOf_crosses_condensation :
    {k | ∃ x ∈ g.condensation.nodes, ∃ y, g.condensation.Crosses k x y}
      = {k | ∃ a ∈ g.nodes, ∃ b, g.Crosses k a b} := by
  ext k
  constructor
  · rintro ⟨x, hx, y, hcrosses⟩
    obtain ⟨a, ha, rfl⟩ := hg.mem_nodes_condensation.1 hx
    exact ⟨_, hg.representative_mem ha, y, hg.crosses_of_condensation hcrosses⟩
  · rintro ⟨a, ha, b, hcrosses⟩
    exact ⟨_, hg.mem_nodes_condensation.2 ⟨a, ha, rfl⟩, _, hg.crosses_condensation hcrosses ha⟩

theorem WellFormed.condensation_nodes_eq_nil_iff : g.condensation.nodes = [] ↔ g.nodes = [] := by
  simp only [List.eq_nil_iff_forall_not_mem, hg.mem_nodes_condensation]
  constructor
  · intro hnone a ha
    exact hnone _ ⟨a, ha, rfl⟩
  · rintro hnone x ⟨a, ha, -⟩
    exact hnone a ha

variable {sort : Digraph α → Option (List α)} (hsort : SortsTopologically sort)

include hsort

/-- Whatever puts the condensation in order, it never gives up. -/
theorem WellFormed.exists_order :
    ∃ order, sort g.condensation = some order ∧ g.condensation.IsTopologicalOrder order := by
  have hsome := (hsort.isSome_iff g.wellFormed_condensation).2 hg.not_hasCycle_condensation
  obtain ⟨order, horder⟩ := Option.isSome_iff_exists.1 hsome
  exact ⟨order, horder, hsort.ordered g.wellFormed_condensation horder⟩

theorem WellFormed.longestChainBy_eq_zero (hnil : g.nodes = []) : g.longestChainBy sort = 0 := by
  obtain ⟨order, hsome, horder⟩ := hg.exists_order hsort
  rw [longestChainBy, hsome]
  exact horder.longestAlong_eq_zero g.wellFormed_condensation
    (hg.condensation_nodes_eq_nil_iff.2 hnil)

theorem WellFormed.isGreatest_longestChainBy (hne : g.nodes ≠ []) :
    IsGreatest {k | ∃ a ∈ g.nodes, ∃ b, g.Crosses k a b} (g.longestChainBy sort) := by
  obtain ⟨order, hsome, horder⟩ := hg.exists_order hsort
  rw [longestChainBy, hsome, ← hg.setOf_crosses_condensation]
  exact horder.isGreatest_longestAlong g.wellFormed_condensation
    (mt hg.condensation_nodes_eq_nil_iff.1 hne)

end WellFormed

/-- The longest chain is the greatest number of edges between different components that a walk uses. For
a graph of any mentions: the contracted graph has no cycle; the longest chain is nothing if there are no
nodes, and else the greatest number for which there is a walk that uses as many edges whose ends do not
reach each other. Every function that puts graphs without cycles in order, and gives up on the others
only, finds an order of the contracted graph, and leads to the same longest chain; the one that the
graph uses is such a function. -/
theorem longestChain_is_most_crossings (mentions : List (Mention α)) :
    let g := ofMentions mentions
    ¬ g.condensation.HasCycle ∧
    (g.nodes = [] → g.longestChain = 0) ∧
    (g.nodes ≠ [] → IsGreatest {k | ∃ a ∈ g.nodes, ∃ b, g.Crosses k a b} g.longestChain) ∧
    SortsTopologically (topologicalOrder? : Digraph α → Option (List α)) ∧
    ∀ sort : Digraph α → Option (List α), SortsTopologically sort →
      (∃ order, sort g.condensation = some order) ∧ g.longestChainBy sort = g.longestChain := by
  intro g
  have hg : g.WellFormed := wellFormed_ofMentions mentions
  have hused : SortsTopologically (topologicalOrder? : Digraph α → Option (List α)) :=
    sortsTopologically_topologicalOrder?
  refine ⟨hg.not_hasCycle_condensation, hg.longestChainBy_eq_zero hused,
    hg.isGreatest_longestChainBy hused, hused, fun sort hsort => ⟨?_, ?_⟩⟩
  · obtain ⟨order, hsome, -⟩ := hg.exists_order hsort
    exact ⟨order, hsome⟩
  · by_cases hnil : g.nodes = []
    · exact (hg.longestChainBy_eq_zero hsort hnil).trans (hg.longestChainBy_eq_zero hused hnil).symm
    · exact (hg.isGreatest_longestChainBy hsort hnil).unique (hg.isGreatest_longestChainBy hused hnil)

/-- A ring of two nodes, and a line of two edges from there. -/
def ringAndLine : List (Mention Nat) := [.edge 1 2, .edge 2 1, .edge 2 3, .edge 3 4]

/-- From the ring it takes two edges to the end of the line, and a walk that goes around in the ring
first uses no more between components. -/
theorem longest_chain_from_ring :
    let g := ofMentions ringAndLine
    g.condensation.edges = [(1, 3), (3, 4)] ∧ ¬ g.condensation.HasCycle ∧
      g.longestChain = 2 ∧ IsGreatest {k | ∃ a ∈ g.nodes, ∃ b, g.Crosses k a b} 2 := by
  have hnodes : (ofMentions ringAndLine).nodes = [1, 2, 3, 4] := by cbv
  have hedges : (ofMentions ringAndLine).condensation.edges = [(1, 3), (3, 4)] := by cbv
  have hlongest : (ofMentions ringAndLine).longestChain = 2 := by cbv
  obtain ⟨hacyclic, -, hgreatest, -⟩ := longestChain_is_most_crossings ringAndLine
  rw [hlongest] at hgreatest
  exact ⟨hedges, hacyclic, hlongest, hgreatest (by simp [hnodes])⟩

end RoleAudit.Digraph
