import RoleAudit.Proofs.Digraph.CycleReport

/-!
# Reports with different limits

Two searches of one graph with different limits do the same until the one with the lesser limit meets
a cycle too many. That one is over then and only comes back from its path; whatever the other one does
from there on, it has the cycles so far, and either one more or met its own limit at the same place.
So a report with a lesser limit is the beginning of a report with a greater one, and it was cut short
if there is more to come.

Every cycle found is closed by an edge of its own. So there are no more cycles to find than edges, and
a limit that allows as many is never met.
-/

namespace RoleAudit.Digraph

variable {α : Type} [Ord α]

namespace CycleSearch

/-- The bounds of a search for all cycles up to a limit. -/
def Bounds.upTo (limit : Nat) : Bounds := { limit, firstOnly := false }

theorem Bounds.limit_upTo (limit : Nat) : (Bounds.upTo limit).limit = limit := rfl

theorem halted_upTo (limit : Nat) (s : CycleSearch α) :
    s.halted (.upTo limit) = s.truncated := by
  rw [halted, show (Bounds.upTo limit).firstOnly = false from rfl, Bool.false_and, Bool.or_false]

/-- How a search with the limit `m` stands to one with a greater limit at the same place. -/
inductive CutAt (m : Nat) : CycleSearch α → CycleSearch α → Prop
  /-- The limit was not met, and nothing tells the searches apart. -/
  | same {s : CycleSearch α} (hgoing : s.truncated = false) (hroom : s.found.length ≤ m) :
    CutAt m s s
  /-- The limit was met. The other search found more, or met its limit, too. -/
  | cut {s t : CycleSearch α} {more : List (List α)} (hover : s.truncated = true)
    (hfull : s.found.length = m) (hfound : t.found = more ++ s.found)
    (hbeyond : more = [] → t.truncated = true) : CutAt m s t

section Steps

variable {m n : Nat} {s t u : CycleSearch α}

/-- Once the limit was met, the other search may go on. -/
theorem CutAt.of_extends (h : CutAt m s t) (hover : s.truncated = true)
    (hext : Extends (.upTo n) t u) : CutAt m s u := by
  cases h with
  | same hgoing => exact absurd hover (by simp [hgoing])
  | @cut _ more _ hfull hfound hbeyond =>
    obtain ⟨further, hfurther⟩ := hext.found
    have hkeeps := hext.halted
    rw [halted_upTo, halted_upTo] at hkeeps
    have hall : u.found = (further ++ more) ++ s.found := by
      rw [hfurther, hfound, List.append_assoc]
    exact .cut hover hfull hall fun hnil => hkeeps (hbeyond (List.append_eq_nil_iff.1 hnil).2)

theorem CutAt.enter (h : CutAt m s t) (a : α) : CutAt m (s.enter a) (t.enter a) := by
  cases h with
  | same hgoing hroom => exact .same hgoing hroom
  | cut hover hfull hfound hbeyond => exact .cut hover hfull hfound hbeyond

theorem CutAt.leave (h : CutAt m s t) : CutAt m s.leave t.leave := by
  cases h with
  | same hgoing hroom => exact .same hgoing hroom
  | cut hover hfull hfound hbeyond => exact .cut hover hfull hfound hbeyond

variable [DecidableEq α] (hmn : m ≤ n)

include hmn

/-- A cycle is kept by both searches, by the other one only, or by none. -/
theorem cutAt_record (hgoing : s.truncated = false) (hroom : s.found.length ≤ m) (a : α) :
    CutAt m (s.record (.upTo m) a) (s.record (.upTo n) a) := by
  unfold CycleSearch.record
  rw [Bounds.limit_upTo, Bounds.limit_upTo]
  by_cases hm : s.found.length ≥ m
  · have hfull : s.found.length = m := Nat.le_antisymm hroom hm
    rw [if_pos hm]
    by_cases hn : s.found.length ≥ n
    · rw [if_pos hn]
      exact .cut rfl hfull (List.nil_append _).symm fun _ => rfl
    · rw [if_neg hn]
      exact .cut rfl hfull List.singleton_append.symm nofun
  · have hn : ¬ s.found.length ≥ n := by omega
    rw [if_neg hm, if_neg hn]
    refine .same hgoing ?_
    rw [List.length_cons]
    omega

section Visits

variable {visit' visit'' : CycleSearch α → α → CycleSearch α}
  (hvisit : ∀ s t a, CutAt m s t → CutAt m (visit' s a) (visit'' t a))
  (hext : ∀ t a, Extends (.upTo n) t (visit'' t a))

include hvisit hext

theorem CutAt.follow (h : CutAt m s t) (next : α) :
    CutAt m (follow (.upTo m) visit' s next) (follow (.upTo n) visit'' t next) := by
  by_cases hover : s.truncated = true
  · -- the search is over, and the other one goes on
    have hstays : CycleSearch.follow (.upTo m) visit' s next = s :=
      if_pos (by rw [halted_upTo, hover])
    rw [hstays]
    exact h.of_extends hover (extends_follow hext t next)
  · cases h with
    | cut htrunc => exact absurd htrunc hover
    | same hgoing hroom =>
      unfold CycleSearch.follow
      rw [halted_upTo, halted_upTo, if_neg hover, if_neg hover]
      split
      · exact hvisit s s next (.same hgoing hroom)
      split
      · exact cutAt_record hmn hgoing hroom next
      · exact .same hgoing hroom

theorem CutAt.foldl_follow (todo : List α) (h : CutAt m s t) :
    CutAt m (todo.foldl (CycleSearch.follow (.upTo m) visit') s)
      (todo.foldl (CycleSearch.follow (.upTo n) visit'') t) := by
  induction todo generalizing s t with
  | nil => exact h
  | cons next rest ih => exact ih (h.follow hmn hvisit hext next)

end Visits

theorem cutAt_visit (g : Digraph α) (fuel : Nat) (s t : CycleSearch α) (a : α)
    (h : CutAt m s t) : CutAt m (visit g (.upTo m) fuel s a) (visit g (.upTo n) fuel t a) := by
  induction fuel generalizing s t a with
  | zero => exact h
  | succ fuel ih =>
    exact ((h.enter a).foldl_follow hmn ih (extends_visit g (.upTo n) fuel) (g.successors a)).leave

/-- A node to start from, which both searches enter if it is new and they are not over. -/
theorem CutAt.startFrom (g : Digraph α) (h : CutAt m s t) (a : α) :
    CutAt m
      (if s.halted (.upTo m) || s.visited.contains a then s else visit g (.upTo m) g.nodeCount s a)
      (if t.halted (.upTo n) || t.visited.contains a then t
        else visit g (.upTo n) g.nodeCount t a) := by
  rw [halted_upTo, halted_upTo]
  by_cases hover : s.truncated = true
  · rw [hover, Bool.true_or, if_pos rfl]
    split
    · exact h
    · exact h.of_extends hover (extends_visit g (.upTo n) g.nodeCount t a)
  · cases h with
    | cut htrunc => exact absurd htrunc hover
    | same hgoing hroom =>
      split
      · exact .same hgoing hroom
      · exact cutAt_visit hmn g g.nodeCount s s a (.same hgoing hroom)

/-- The whole searches. -/
theorem cutAt_run (g : Digraph α) : CutAt m (run g (.upTo m)) (run g (.upTo n)) := by
  suffices hall : ∀ (todo : List α) (s t : CycleSearch α), CutAt m s t →
      CutAt m
        (todo.foldl (fun s a => if s.halted (.upTo m) || s.visited.contains a then s
          else visit g (.upTo m) g.nodeCount s a) s)
        (todo.foldl (fun s a => if s.halted (.upTo n) || s.visited.contains a then s
          else visit g (.upTo n) g.nodeCount s a) t) from
    hall g.nodes start start (.same rfl (Nat.zero_le m))
  intro todo
  induction todo with
  | nil => exact fun _ _ h => h
  | cons a rest ih => exact fun _ _ h => ih _ _ (h.startFrom hmn g a)

end Steps

/-- The cycles of a search that was cut are the first ones of the other. -/
theorem CutAt.reverse_eq_take {m : Nat} {s t : CycleSearch α} (h : CutAt m s t) :
    s.found.reverse = t.found.reverse.take m := by
  cases h with
  | same _ hroom => rw [List.take_of_length_le (by rwa [List.length_reverse])]
  | cut _ hfull hfound _ =>
    rw [hfound, List.reverse_append, List.take_append_of_le_length (by simp [hfull]),
      List.take_of_length_le (by simp [hfull])]

/-- A search was cut if the other one found more or was cut as well. -/
theorem CutAt.truncated_iff {m : Nat} {s t : CycleSearch α} (h : CutAt m s t) :
    s.truncated = true ↔ m < t.found.length ∨ t.truncated = true := by
  cases h with
  | same hgoing hroom => simp [hgoing, hroom]
  | @cut _ more hover hfull hfound hbeyond =>
    refine iff_of_true hover ?_
    cases more with
    | nil => exact .inr (hbeyond rfl)
    | cons c more =>
      left
      rw [hfound, List.length_append, List.length_cons]
      omega

end CycleSearch

variable [DecidableEq α]

section Limits

variable (g : Digraph α) {m n : Nat} (hmn : m ≤ n)

include hmn

/-- With a lesser limit the first ones of the cycles are reported. -/
theorem cycles_eq_take : (g.findCycles m).cycles = (g.findCycles n).cycles.take m :=
  (CycleSearch.cutAt_run hmn g).reverse_eq_take

theorem truncated_iff_of_le :
    (g.findCycles m).truncated = true ↔
      m < (g.findCycles n).cycles.length ∨ (g.findCycles n).truncated = true := by
  rw [show (g.findCycles n).cycles = List.reverse _ from rfl, List.length_reverse]
  exact (CycleSearch.cutAt_run hmn g).truncated_iff

end Limits

/-! ## As many cycles as edges -/

omit [DecidableEq α] in
/-- A cycle has a closing edge, and that is one of the graph. -/
theorem IsCycle.exists_closingEdge {g : Digraph α} {c : List α} (h : g.IsCycle c) :
    ∃ x y, closingEdge? c = some (x, y) ∧ g.Leads x y := by
  obtain ⟨a, rest, rfl, -⟩ := h.exists_eq
  obtain ⟨walk, x, hwalk⟩ := (List.eq_nil_or_concat' (a :: rest)).resolve_left (List.cons_ne_nil a rest)
  have hchain := h.chain
  rw [hwalk, List.append_assoc] at hchain ⊢
  have hlast := (List.isChain_append.1 hchain).2.1
  exact ⟨x, a, closingEdge?_eq_some.2 ⟨walk, rfl⟩, (List.isChain_cons.1 hlast).1 a (by simp)⟩

variable [Std.TransOrd α] [Std.LawfulEqOrd α]

section WellFormed

variable {g : Digraph α} (hg : g.WellFormed)

include hg

/-- No edge closes two reported cycles. -/
theorem WellFormed.nodup_closingEdges (limit : Nat) :
    ((g.findCycles limit).cycles.filterMap closingEdge?).Nodup := by
  obtain ⟨order, hinv, -⟩ := CycleSearch.run_inv hg { limit, firstOnly := false }
  rw [show (g.findCycles limit).cycles = List.reverse _ from rfl, List.filterMap_reverse,
    List.nodup_reverse]
  refine List.pairwise_filterMap.2 (hinv.closedOnce.imp fun {c d} honce => ?_)
  rintro ⟨x, y⟩ hc edge hd rfl
  exact honce x y ⟨c, List.mem_singleton_self c, closingEdge?_eq_some.1 hc⟩
    ⟨d, List.mem_singleton_self d, closingEdge?_eq_some.1 hd⟩

/-- No more cycles are reported than there are edges. -/
theorem WellFormed.length_cycles_le_edgeCount (limit : Nat) :
    (g.findCycles limit).cycles.length ≤ g.edgeCount := by
  have hclosed : ∀ c ∈ (g.findCycles limit).cycles,
      ∃ x y, closingEdge? c = some (x, y) ∧ g.Leads x y :=
    fun c hc => (hg.isCycle_of_mem hc).exists_closingEdge
  have hlength : ((g.findCycles limit).cycles.filterMap closingEdge?).length
      = (g.findCycles limit).cycles.length := by
    refine List.filterMap_length_eq_length.2 fun c hc => ?_
    obtain ⟨x, y, hedge, -⟩ := hclosed c hc
    rw [hedge, Option.isSome_some]
  have hsub : (g.findCycles limit).cycles.filterMap closingEdge? ⊆ g.edges := by
    intro edge hedge
    obtain ⟨c, hc, hsome⟩ := List.mem_filterMap.1 hedge
    obtain ⟨x, y, hedge', hl⟩ := hclosed c hc
    rw [hsome, Option.some_inj] at hedge'
    rw [hedge', hg.mem_edges]
    exact hl
  rw [← hlength, hg.edgeCount_eq]
  exact (List.subperm_of_subset (hg.nodup_closingEdges limit) hsub).length_le

/-- A limit that allows a cycle for every edge is not met. -/
theorem WellFormed.truncated_eq_false {limit : Nat} (h : g.edgeCount ≤ limit) :
    (g.findCycles limit).truncated = false := by
  rw [← Bool.not_eq_true]
  intro htrunc
  have hfull := hg.limit_le_of_truncated htrunc
  have hmore := hg.length_cycles_le_edgeCount (limit + 1)
  -- a search with room for one more cycle keeps it
  rcases (g.truncated_iff_of_le (Nat.le_add_right limit 1)).1 htrunc with hlonger | hagain
  · omega
  · have := hg.limit_le_of_truncated hagain
    omega

end WellFormed

/-- A report with a lesser limit is the beginning of one with a greater limit. For a graph of any
mentions: with the limit `m` the first `m` of the cycles are reported that a greater limit reports, or
all if they are fewer; the report is cut short exactly if more than `m` cycles are reported where one
for each edge is allowed; and where that many are allowed, no report is cut short. -/
theorem lesser_limit_reports_beginning (mentions : List (Mention α)) :
    let g := ofMentions mentions
    (∀ m n, m ≤ n → (g.findCycles m).cycles = (g.findCycles n).cycles.take m) ∧
    (∀ m, (g.findCycles m).truncated = true ↔
      m < (g.findCycles g.edgeCount).cycles.length) ∧
    (g.findCycles g.edgeCount).truncated = false := by
  intro g
  have hg : g.WellFormed := wellFormed_ofMentions mentions
  have hall : (g.findCycles g.edgeCount).truncated = false := hg.truncated_eq_false (Nat.le_refl _)
  refine ⟨fun m n hmn => g.cycles_eq_take hmn, fun m => ?_, hall⟩
  rcases Nat.le_total m g.edgeCount with hle | hge
  · rw [g.truncated_iff_of_le hle, hall]
    simp
  · have hfew := hg.length_cycles_le_edgeCount g.edgeCount
    rw [hg.truncated_eq_false hge]
    simp only [Bool.false_eq_true, false_iff]
    omega

/-- Two rings that share a node, and a node with an edge to itself, all reached from there. -/
def threeCycles : List (Mention Nat) :=
  [.edge 1 2, .edge 2 1, .edge 1 3, .edge 3 1, .edge 3 4, .edge 4 4]

/-- Six edges close three cycles, and a limit of two leaves the last one out. -/
theorem two_of_three_cycles :
    let g := ofMentions threeCycles
    g.edgeCount = 6 ∧ (g.findCycles 6).cycles = [[1, 2, 1], [1, 3, 1], [4, 4]] ∧ 2 ≤ 6 ∧
      (g.findCycles 2).cycles = (g.findCycles 6).cycles.take 2 ∧
      (g.findCycles 2).truncated = true ∧ ¬ (g.findCycles 3).truncated = true := by
  have hcount : (ofMentions threeCycles).edgeCount = 6 := by cbv
  have hcycles : ((ofMentions threeCycles).findCycles 6).cycles = [[1, 2, 1], [1, 3, 1], [4, 4]] := by
    cbv
  obtain ⟨htake, htruncated, -⟩ := lesser_limit_reports_beginning threeCycles
  rw [hcount, hcycles] at htruncated
  exact ⟨hcount, hcycles, by decide, htake 2 6 (by decide), (htruncated 2).2 (by decide),
    mt (htruncated 3).1 (by decide)⟩

end RoleAudit.Digraph
