import RoleAudit.Proofs.Digraph.CycleSearch

/-!
# What a report of cycles accounts for

A report is never silent about a cycle. If the search was not cut short, every cycle of the graph uses
the closing edge of a reported one: the graph without these edges has no cycle. If it was cut short,
the report is full, and there is a cycle through other nodes than those of every reported one.

The module also says what is reported in terms of nodes: no two cycles of a report have the same ones,
so none is a rotation of another.
-/

namespace RoleAudit.Digraph

open Relation

variable {α : Type} [Ord α]

/-! ## The nodes of a cycle -/

theorem IsCycle.mem_dropLast_iff {g : Digraph α} {c : List α} (h : g.IsCycle c) {a : α} :
    a ∈ c.dropLast ↔ a ∈ c := by
  obtain ⟨b, rest, rfl, hdrop⟩ := h.exists_eq
  rw [hdrop]
  constructor
  · exact fun ha => List.mem_append_left _ ha
  · intro ha
    rcases List.mem_append.1 ha with ha | ha
    · exact ha
    · rw [List.mem_singleton.1 ha]
      exact List.mem_cons_self

theorem IsCycle.sameNodes_iff {g : Digraph α} {c d : List α} (hc : g.IsCycle c) (hd : g.IsCycle d) :
    SameNodes c d ↔ ∀ a, a ∈ c ↔ a ∈ d := by
  rw [SameNodes, List.perm_ext_iff_of_nodup hc.nodup hd.nodup]
  simp only [hc.mem_dropLast_iff, hd.mem_dropLast_iff]

omit [Ord α] in
/-- A cycle that starts elsewhere has the same nodes. -/
theorem SameNodes.of_isRotated {c d : List α} (h : c.dropLast ~r d.dropLast) : SameNodes c d :=
  h.perm

/-! ## Removing edges -/

/-- The last edge of a walk. -/
def closingEdge? (walk : List α) : Option (α × α) :=
  match walk.reverse with
  | target :: source :: _ => some (source, target)
  | _ => none

omit [Ord α] in
theorem closingEdge?_eq_some {c : List α} {x y : α} :
    closingEdge? c = some (x, y) ↔ ∃ walk, c = walk ++ [x, y] := by
  constructor
  · intro h
    unfold closingEdge? at h
    split at h
    · rename_i target source back hback
      obtain ⟨rfl, rfl⟩ := Prod.mk.inj (Option.some.inj h)
      refine ⟨back.reverse, ?_⟩
      rw [← List.reverse_reverse c, hback]
      simp
    · exact nomatch h
  · rintro ⟨walk, rfl⟩
    simp [closingEdge?]

variable [DecidableEq α]

/-- The graph without some of its edges. -/
def without (g : Digraph α) (removed : List (α × α)) : Digraph α :=
  ofMentions (g.nodes.map .node ++ (g.edges.filter (· ∉ removed)).map fun (a, b) => .edge a b)

variable [Std.TransOrd α] [Std.LawfulEqOrd α]

section WellFormed

variable {g : Digraph α} (hg : g.WellFormed)

include hg

theorem WellFormed.leads_without {removed : List (α × α)} {a b : α} :
    (g.without removed).Leads a b ↔ g.Leads a b ∧ (a, b) ∉ removed := by
  rw [without, leads_ofMentions, ← hg.mem_edges]
  simp only [List.mem_append, List.mem_map, reduceCtorEq, and_false, exists_false, false_or,
    List.mem_filter, decide_eq_true_eq, Mention.edge.injEq]
  constructor
  · rintro ⟨_, hin, rfl, rfl⟩
    exact hin
  · exact fun hin => ⟨(a, b), hin, rfl, rfl⟩

/-! ## The report -/

theorem WellFormed.pairwise_not_sameNodes (limit : Nat) :
    (g.findCycles limit).cycles.Pairwise fun c d => ¬ SameNodes c d := by
  obtain ⟨order, hinv, -⟩ := CycleSearch.run_inv hg { limit, firstOnly := false }
  refine List.pairwise_reverse.2 (hinv.distinct.imp fun {c d} hdiffer hsame => ?_)
  exact hdiffer hsame.symm

/-- A report that was cut short has left a cycle out. -/
theorem WellFormed.exists_not_sameNodes_of_truncated {limit : Nat}
    (h : (g.findCycles limit).truncated = true) :
    ∃ c, g.IsCycle c ∧ ∀ d ∈ (g.findCycles limit).cycles, ¬ SameNodes c d := by
  obtain ⟨order, hinv, -⟩ := CycleSearch.run_inv hg { limit, firstOnly := false }
  obtain ⟨-, c, hc, hother⟩ := hinv.truncated h
  exact ⟨c, hc, fun d hd => hother d (List.mem_reverse.1 hd)⟩

/-- If a report was not cut short, every way around along some of the edges uses one that closes a
reported cycle. -/
theorem WellFormed.exists_closing_edge {limit : Nat} (h : (g.findCycles limit).truncated = false)
    {r : α → α → Prop} (hr : ∀ x y, r x y → g.Leads x y) {a : α} (hcycle : TransGen r a a) :
    ∃ x y, r x y ∧ ∃ c ∈ (g.findCycles limit).cycles, ∃ walk, c = walk ++ [x, y] := by
  by_contra hnone
  refine CycleSearch.run_acyclic hg (halted_eq_false_of_not_truncated h) a
    (hcycle.lift id fun x y hxy => ⟨hr x y hxy, ?_⟩)
  rintro ⟨c, hc, walk, hwalk⟩
  exact hnone ⟨x, y, hxy, c, List.mem_reverse.2 hc, walk, hwalk⟩

/-- Without the closing edges of a report that was not cut short, the graph has no cycle. -/
theorem WellFormed.not_hasCycle_without {limit : Nat}
    (h : (g.findCycles limit).truncated = false) :
    ¬ (g.without ((g.findCycles limit).cycles.filterMap closingEdge?)).HasCycle := by
  rintro ⟨a, hcycle⟩
  obtain ⟨x, y, hl, c, hc, hwalk⟩ :=
    hg.exists_closing_edge h (fun x y hl => (hg.leads_without.1 hl).1) hcycle
  exact (hg.leads_without.1 hl).2 (List.mem_filterMap.2 ⟨c, hc, closingEdge?_eq_some.2 hwalk⟩)

end WellFormed

/-- A report of cycles is never silent. For a graph of any mentions and any limit: if the search was
not cut short, the graph without the last edge of every reported cycle has no cycle; if it was, the
report has as many cycles as the limit allows, and the graph has a cycle that is no rotation of a
reported one; where there is a cycle, one is reported or the report says that it was cut short, and
if the limit allows a cycle, one is reported. -/
theorem findCycles_never_silent (mentions : List (Mention α)) (limit : Nat) :
    let g := ofMentions mentions
    let report := g.findCycles limit
    (report.truncated = false →
      ¬ (g.without (report.cycles.filterMap closingEdge?)).HasCycle) ∧
    (report.truncated = true → report.cycles.length = limit ∧
      ∃ c, g.IsCycle c ∧ ∀ d ∈ report.cycles, ¬ c.dropLast ~r d.dropLast) ∧
    (g.HasCycle → report.cycles ≠ [] ∨ report.truncated = true) ∧
    (g.HasCycle → 1 ≤ limit → report.cycles ≠ []) := by
  intro g report
  have hg : g.WellFormed := wellFormed_ofMentions mentions
  refine ⟨hg.not_hasCycle_without, fun htrunc => ⟨?_, ?_⟩, fun hcycle => ?_, ?_⟩
  · exact Nat.le_antisymm (hg.length_cycles_le limit) (hg.limit_le_of_truncated htrunc)
  · obtain ⟨c, hc, hother⟩ := hg.exists_not_sameNodes_of_truncated htrunc
    exact ⟨c, hc, fun d hd hrotated => hother d hd (.of_isRotated hrotated)⟩
  · by_contra hsilent
    rw [not_or, not_not, Bool.not_eq_true] at hsilent
    exact (hg.silent_iff limit).1 hsilent hcycle
  · exact fun hcycle hlimit => (hg.findCycles_ne_nil_iff limit).2 ⟨hlimit, hcycle⟩

/-- Two nodes in a ring, and an edge from it to a node with an edge to itself. -/
def ringAndLoop : List (Mention Nat) := [.edge 1 2, .edge 2 1, .edge 2 3, .edge 3 3]

/-- A limit of one cuts the report on a ring and a loop short, a limit of two does not. -/
theorem cycles_of_ring_and_loop :
    let g := ofMentions ringAndLoop
    ((g.findCycles 1).truncated = true ∧ (g.findCycles 1).cycles.length = 1 ∧
      ∃ c, g.IsCycle c ∧ ∀ d ∈ (g.findCycles 1).cycles, ¬ c.dropLast ~r d.dropLast) ∧
    ((g.findCycles 2).truncated = false ∧
      ¬ (g.without ((g.findCycles 2).cycles.filterMap closingEdge?)).HasCycle) ∧
    g.HasCycle ∧ (g.findCycles 1).cycles ≠ [] := by
  have hshort : ((ofMentions ringAndLoop).findCycles 1).truncated = true := by cbv
  have hfull : ((ofMentions ringAndLoop).findCycles 2).truncated = false := by cbv
  have hloop : (ofMentions ringAndLoop).HasCycle :=
    ⟨3, TransGen.single (leads_ofMentions.2 (by simp [ringAndLoop]))⟩
  obtain ⟨-, hcut, -, hone⟩ := findCycles_never_silent ringAndLoop 1
  obtain ⟨hall, -⟩ := findCycles_never_silent ringAndLoop 2
  exact ⟨⟨hshort, hcut hshort⟩, ⟨hfull, hall hfull⟩, hloop, hone hloop (Nat.le_refl 1)⟩

end RoleAudit.Digraph
