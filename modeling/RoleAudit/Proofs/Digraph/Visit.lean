import RoleAudit.Proofs.Digraph.Walk

/-!
# A visit of the component walk

What one visit does to the walk, in three steps: entering a node, going through its successors one by
one, and concluding. The invariant comes from the module on the walk; this module adds what the
number means that a visit gives back. From it follows that the whole walk enters every node and
leaves nothing on the stack.
-/

namespace RoleAudit.Digraph.Walk

open Relation

variable {α : Type} [Ord α] {g : Digraph α} {path : List α} {w : Walk α} {a : α}

/-- What holds after a visit of `a` from `w`, for the number and the walk that it gives back. -/
structure Outcome (g : Digraph α) (path : List α) (w : Walk α) (a : α) (r : Nat × Walk α) :
    Prop where
  /-- The path is as before. -/
  inv : Inv g path r.2
  /-- The walk went on. -/
  grows : Grows w r.2
  /-- The node is entered. -/
  known : a ∈ r.2.known
  /-- The number is at most that of finished nodes. -/
  le : r.1 ≤ g.nodeCount
  /-- A lesser number is that of a node of the stack within reach. -/
  reached : r.1 = g.nodeCount ∨ ∃ b ∈ r.2.stack, r.2.number b = r.1 ∧ g.Reaches a b
  /-- No edge leads from a node that was put on the stack to an older one with a lesser number. -/
  least : ∀ b ∈ r.2.stack, b ∉ w.stack → ∀ c ∈ w.stack, g.Leads b c → r.1 ≤ w.number c

/-- What holds while the successors of `a` are gone through, those of `processed` being done. -/
structure Scanned (g : Digraph α) (path : List α) (w : Walk α) (a : α) (processed : List α)
    (s : Nat × Walk α) : Prop where
  /-- The node is on the path. -/
  inv : Inv g (a :: path) s.2
  /-- The walk went on from where the node was entered. -/
  grows : Grows (w.enter a) s.2
  /-- The successors that are done are entered. -/
  known : ∀ b ∈ processed, b ∈ s.2.known
  /-- The number is at most that of finished nodes. -/
  le : s.1 ≤ g.nodeCount
  /-- A lesser number is that of a node of the stack within reach. -/
  reached : s.1 = g.nodeCount ∨ ∃ b ∈ s.2.stack, s.2.number b = s.1 ∧ g.Reaches a b
  /-- No edge leads from a node above `a` to one at or below it with a lesser number. -/
  least : ∀ b ∈ s.2.stack, b ∉ (w.enter a).stack → ∀ c ∈ (w.enter a).stack, g.Leads b c →
    s.1 ≤ (w.enter a).number c
  /-- No successor that is done and not above `a` has a lesser number. -/
  least_own : ∀ c ∈ processed, c ∈ (w.enter a).stack → s.1 ≤ (w.enter a).number c

/-! ## Going through successors -/

/-- Entering a node starts the scan of its successors. -/
theorem scanned_enter (h : Inv g (a :: path) (w.enter a)) :
    Scanned g path w a [] (g.nodeCount, w.enter a) where
  inv := h
  grows := .refl _
  known _ hb := absurd hb List.not_mem_nil
  le := Nat.le_refl _
  reached := .inl rfl
  least _ hb hn := absurd hb hn
  least_own _ hc := absurd hc List.not_mem_nil

/-- A successor that is entered already counts with its number. -/
theorem Scanned.follow_known {processed : List α} {s : Nat × Walk α} {next : α} {number : Nat}
    (h : Scanned g path w a processed s) (hedge : g.Leads a next)
    (hget : s.2.numbers.get? next = some number) :
    Scanned g path w a (processed ++ [next]) (min s.1 number, s.2) := by
  have hknown : next ∈ s.2.known := by
    by_contra hn
    rw [h.inv.fresh next hn] at hget
    exact absurd hget (by simp)
  have hstacked : next ∈ s.2.stack → s.2.number next = number := by
    intro hin
    have heq := (h.inv.stacked next hin).1
    rw [hget, Option.some.injEq] at heq
    exact heq.symm
  refine { h with known := ?_, le := ?_, reached := ?_, least := ?_, least_own := ?_ }
  · intro b hb
    rcases List.mem_append.1 hb with hb | hb
    · exact h.known b hb
    · rw [List.mem_singleton] at hb
      exact hb ▸ hknown
  · exact Nat.le_trans (Nat.min_le_left _ _) h.le
  · rcases Nat.le_total s.1 number with hle | hle
    · rw [Nat.min_eq_left hle]
      exact h.reached
    · rw [Nat.min_eq_right hle]
      rcases List.mem_append.1 hknown with hin | hin
      · exact .inr ⟨next, hin, hstacked hin, ReflTransGen.single hedge⟩
      · -- a finished successor has the highest number there is
        rw [h.inv.finished next hin, Option.some.injEq] at hget
        exact .inl hget.symm
  · intro b hb hn c hc hl
    exact Nat.le_trans (Nat.min_le_left _ _) (h.least b hb hn c hc hl)
  · intro c hc hin
    rcases List.mem_append.1 hc with hc | hc
    · exact Nat.le_trans (Nat.min_le_left _ _) (h.least_own c hc hin)
    · rw [List.mem_singleton] at hc
      subst hc
      rw [← h.grows.number c hin, hstacked (h.grows.mem_stack hin)]
      exact Nat.min_le_right _ _

/-- A successor that is new counts with what its visit gives back. -/
theorem Scanned.follow_new {processed : List α} {s r : Nat × Walk α} {next : α}
    (h : Scanned g path w a processed s) (hedge : g.Leads a next) (hnew : next ∉ s.2.known)
    (hr : Outcome g (a :: path) s.2 next r) :
    Scanned g path w a (processed ++ [next]) (min s.1 r.1, r.2) where
  inv := hr.inv
  grows := h.grows.trans hr.grows
  known b hb := by
    rcases List.mem_append.1 hb with hb | hb
    · exact hr.grows.mem_known (h.known b hb)
    · rw [List.mem_singleton] at hb
      exact hb ▸ hr.known
  le := Nat.le_trans (Nat.min_le_left _ _) h.le
  reached := by
    rcases Nat.le_total s.1 r.1 with hle | hle
    · rw [Nat.min_eq_left hle]
      rcases h.reached with heq | ⟨b, hb, hnum, hreach⟩
      · exact .inl heq
      · exact .inr ⟨b, hr.grows.mem_stack hb, by rw [hr.grows.number b hb, hnum], hreach⟩
    · rw [Nat.min_eq_right hle]
      rcases hr.reached with heq | ⟨b, hb, hnum, hreach⟩
      · exact .inl heq
      · exact .inr ⟨b, hb, hnum, ReflTransGen.head hedge hreach⟩
  least b hb hn c hc hl := by
    by_cases hold : b ∈ s.2.stack
    · exact Nat.le_trans (Nat.min_le_left _ _) (h.least b hold hn c hc hl)
    · have hle := hr.least b hb hold c (h.grows.mem_stack hc) hl
      rw [h.grows.number c hc] at hle
      exact Nat.le_trans (Nat.min_le_right _ _) hle
  least_own c hc hin := by
    rcases List.mem_append.1 hc with hc | hc
    · exact Nat.le_trans (Nat.min_le_left _ _) (h.least_own c hc hin)
    · rw [List.mem_singleton] at hc
      subst hc
      exact absurd (List.mem_append_left _ (h.grows.mem_stack hin)) hnew

/-! ## Concluding a visit -/

section Conclude

variable [Std.TransOrd α] [Std.LawfulEqOrd α] {s : Nat × Walk α}

/-- A visit that reached a lesser number leaves its node on the stack. -/
theorem Scanned.outcome_of_lt (h : Scanned g path w a (g.successors a) s) (hw : Inv g path w)
    (hfresh : a ∉ w.known) (ha : a ∈ g.nodes) (hlt : s.1 < w.entered) :
    Outcome g path w a s := by
  have hgrows : Grows w s.2 := (grows_enter hfresh).trans h.grows
  have hown : s.2.number a = w.entered := by
    rw [h.grows.number a List.mem_cons_self, number_enter_self]
  have hroom := hw.entered_lt ha hfresh
  obtain ⟨y, hy, hynum, hyreach⟩ := h.reached.resolve_left (by omega)
  have hyback : ∃ b ∈ path, s.2.number b ≤ s.2.number y ∧ g.Reaches y b := by
    obtain ⟨b, hb, hle, hreach⟩ := h.inv.back y hy
    rcases List.mem_cons.1 hb with rfl | hb
    · omega
    · exact ⟨b, hb, hle, hreach⟩
  refine
    { inv := { h.inv with path_mem := ?_, back := ?_, left := ?_ }
      grows := hgrows
      known := List.mem_append_left _ (h.grows.mem_stack List.mem_cons_self)
      le := h.le
      reached := h.reached
      least := ?_ }
  · exact fun b hb => h.inv.path_mem b (List.mem_cons_of_mem _ hb)
  · -- back: a node that came back to `a` goes on to `y`, which is below `a`
    intro x hx
    obtain ⟨b, hb, hle, hreach⟩ := h.inv.back x hx
    rcases List.mem_cons.1 hb with rfl | hb
    · obtain ⟨p, hp, hple, hpreach⟩ := hyback
      exact ⟨p, hp, by omega, (hreach.trans hyreach).trans hpreach⟩
    · exact ⟨b, hb, hle, hreach⟩
  · -- left
    intro x hx hnp c hc
    by_cases hxa : x = a
    · subst hxa
      exact h.known c hc
    · exact h.inv.left x hx (by simp [hxa, hnp]) c hc
  · -- least
    intro b hb hn c hc hl
    have hc' : c ∈ (w.enter a).stack := List.mem_cons_of_mem _ hc
    rw [← number_enter_of_ne w (ne_of_mem_stack hfresh hc)]
    by_cases hba : b = a
    · subst hba
      exact h.least_own c hl hc'
    · refine h.least b hb ?_ c hc' hl
      intro hin
      rcases List.mem_cons.1 hin with hin | hin
      · exact hba hin
      · exact hn hin

/-- When nothing below `a` is within reach, edges from the nodes down to `a` lead to these nodes or to
what is found. -/
theorem Scanned.leads_top (h : Scanned g path w a (g.successors a) s) (hw : Inv g path w)
    (hfresh : a ∉ w.known) (hge : w.entered ≤ s.1) {top : List α}
    (hstack : s.2.stack = top ++ a :: w.stack) {b c : α} (hb : b ∈ top ++ [a]) (hl : g.Leads b c) :
    c ∈ top ++ [a] ∨ c ∈ s.2.found.flatten := by
  have hnodup : (top ++ a :: w.stack).Nodup := hstack ▸ (List.nodup_append.1 h.inv.nodup).1
  have hdisj := (List.nodup_append.1 hnodup).2.2
  have hbstack : b ∈ s.2.stack := by
    rw [hstack, ← List.singleton_append, ← List.append_assoc]
    exact List.mem_append_left _ hb
  have hcknown : c ∈ s.2.known ∧ (c ∈ w.stack → s.1 ≤ (w.enter a).number c) := by
    rcases List.mem_append.1 hb with htop | htop
    · have hnot : b ∉ a :: w.stack := fun hin => hdisj b htop b hin rfl
      have hnp : b ∉ a :: path := by
        intro hin
        rcases List.mem_cons.1 hin with rfl | hin
        · exact hnot List.mem_cons_self
        · exact hnot (List.mem_cons_of_mem _ (hw.path_mem b hin))
      exact ⟨h.inv.left b hbstack hnp c hl,
        fun hin => h.least b hbstack hnot c (List.mem_cons_of_mem _ hin) hl⟩
    · rw [List.mem_singleton] at htop
      subst htop
      exact ⟨h.known c hl, fun hin => h.least_own c hl (List.mem_cons_of_mem _ hin)⟩
  obtain ⟨hknown, hleast⟩ := hcknown
  rcases List.mem_append.1 hknown with hin | hin
  · rw [hstack, ← List.singleton_append, ← List.append_assoc] at hin
    rcases List.mem_append.1 hin with hin | hin
    · exact .inl hin
    · -- a node below `a` has a number that is less than that of `a`
      have hle := hleast hin
      rw [number_enter_of_ne w (ne_of_mem_stack hfresh hin)] at hle
      have := (hw.stacked c hin).2
      omega
  · exact .inr hin

/-- When nothing below `a` is within reach, the nodes down to `a` are those that belong together
with it. -/
theorem Scanned.mem_top_iff (h : Scanned g path w a (g.successors a) s) (hw : Inv g path w)
    (hfresh : a ∉ w.known) (hge : w.entered ≤ s.1) {top : List α}
    (hstack : s.2.stack = top ++ a :: w.stack) (b : α) : b ∈ top ++ [a] ↔ g.Together a b := by
  have hleads : ∀ {x y}, x ∈ top ++ [a] → g.Leads x y → y ∈ top ++ [a] ∨ y ∈ s.2.found.flatten :=
    fun hx hl => h.leads_top hw hfresh hge hstack hx hl
  have hreaches : ∀ {x y}, x ∈ top ++ [a] → g.Reaches x y →
      y ∈ top ++ [a] ∨ y ∈ s.2.found.flatten := by
    intro x y hx hr
    induction hr with
    | refl => exact .inl hx
    | tail _ hedge ih =>
      rcases ih with hin | hin
      · exact hleads hin hedge
      · exact .inr (h.inv.settled.leads hin hedge)
  have hmem : ∀ {x}, x ∈ top ++ [a] → x ∈ s.2.stack := by
    intro x hx
    rw [hstack, ← List.singleton_append, ← List.append_assoc]
    exact List.mem_append_left _ hx
  have ha : a ∈ top ++ [a] := List.mem_append_right _ List.mem_cons_self
  have hnodup : (top ++ a :: w.stack).Nodup := hstack ▸ (List.nodup_append.1 h.inv.nodup).1
  constructor
  · intro hb
    constructor
    · have hbelow := h.inv.below
      rw [hstack] at hbelow
      rcases List.mem_append.1 hb with htop | htop
      · exact (List.pairwise_append.1 hbelow).2.2 b htop a List.mem_cons_self
      · rw [List.mem_singleton] at htop
        subst htop
        exact ReflTransGen.refl
    · -- the node of the path that `b` comes back to cannot be below `a`
      obtain ⟨p, hp, -, hreach⟩ := h.inv.back b (hmem hb)
      rcases List.mem_cons.1 hp with rfl | hp
      · exact hreach
      · have hpw : p ∈ w.stack := hw.path_mem p hp
        rcases hreaches hb hreach with hin | hin
        · exact absurd hin ((not_mem_down_to hnodup).2 p hpw)
        · exact absurd hin (h.inv.not_mem_found (h.inv.path_mem p (List.mem_cons_of_mem _ hp)))
  · rintro ⟨hab, hba⟩
    rcases hreaches ha hab with hin | hin
    · exact hin
    · exact absurd (h.inv.settled.reaches hin hba) (h.inv.not_mem_found (hmem ha))

variable [DecidableEq α]

/-- A visit that reached no lesser number takes its node and all above it for a component. -/
theorem Scanned.outcome_of_ge (h : Scanned g path w a (g.successors a) s) (hw : Inv g path w)
    (hfresh : a ∉ w.known) (hge : w.entered ≤ s.1) :
    Outcome g path w a (g.nodeCount, s.2.close g.nodeCount a) := by
  obtain ⟨top, htop⟩ := h.grows.stack
  have hstack : s.2.stack = top ++ a :: w.stack := htop
  have hnodup : (top ++ a :: w.stack).Nodup := hstack ▸ (List.nodup_append.1 h.inv.nodup).1
  obtain ⟨hatop, hbelow⟩ := not_mem_down_to hnodup
  have hst := stack_close g.nodeCount hstack hatop
  have hfo := found_close g.nodeCount hstack hatop
  have hinv := h.inv.close hstack hw.path_mem (h.mem_top_iff hw hfresh hge hstack)
    fun b hb c hl => h.leads_top hw hfresh hge hstack hb hl
  have hknown : a ∈ (s.2.close g.nodeCount a).known := by
    refine List.mem_append_right _ ?_
    rw [hfo, List.flatten_cons]
    exact List.mem_append_left _ (List.mem_append_right _ List.mem_cons_self)
  have hgrows : Grows w (s.2.close g.nodeCount a) := by
    obtain ⟨more, hmore⟩ := h.grows.found
    refine ⟨⟨[], hst⟩, ⟨(top ++ [a]) :: more, ?_⟩, ?_, ?_⟩
    · rw [hfo, hmore]
      rfl
    · intro b hb
      rw [number_close_of_not_mem _ hstack hatop (hbelow b hb),
        h.grows.number b (List.mem_cons_of_mem _ hb),
        number_enter_of_ne w (ne_of_mem_stack hfresh hb)]
    · exact Nat.le_trans (grows_enter hfresh).entered h.grows.entered
  refine ⟨hinv, hgrows, hknown, Nat.le_refl _, .inl rfl, ?_⟩
  intro b hb hn
  rw [hst] at hb
  exact absurd hb hn

theorem Scanned.conclude (h : Scanned g path w a (g.successors a) s) (hw : Inv g path w)
    (ha : a ∈ g.nodes) (hfresh : a ∉ w.known) :
    Outcome g path w a (conclude g.nodeCount w.entered a s) := by
  unfold Walk.conclude
  split
  · rename_i hlt
    exact h.outcome_of_lt hw hfresh ha hlt
  · rename_i hge
    exact h.outcome_of_ge hw hfresh (Nat.le_of_not_lt hge)

end Conclude

/-! ## Whole visits and the whole walk -/

section Run

variable [Std.TransOrd α] [Std.LawfulEqOrd α] [DecidableEq α]

/-- With this fuel every visit of a new node does what a visit should, and more fuel changes
nothing. -/
def VisitsWith (g : Digraph α) (fuel : Nat) : Prop :=
  ∀ (path : List α) (w : Walk α) (a : α), g.nodeCount ≤ w.entered + fuel → Inv g path w →
    a ∈ g.nodes → a ∉ w.known → (∀ b ∈ path, g.Reaches b a) →
    Outcome g path w a (visit g fuel w a) ∧ ∀ more, visit g (fuel + more) w a = visit g fuel w a

omit [Std.TransOrd α] [Std.LawfulEqOrd α] in
/-- Going through the successors that are left, one by one. -/
theorem VisitsWith.scan {fuel : Nat} (hvisit : VisitsWith g fuel) (hg : g.WellFormed)
    (hfuel : g.nodeCount ≤ (w.enter a).entered + fuel) (hpath : ∀ b ∈ path, g.Reaches b a)
    (rest : List α) : ∀ (processed : List α) (s : Nat × Walk α),
      g.successors a = processed ++ rest → Scanned g path w a processed s →
      Scanned g path w a (g.successors a) (rest.foldl (follow (visit g fuel)) s) ∧
        ∀ more, rest.foldl (follow (visit g (fuel + more))) s
          = rest.foldl (follow (visit g fuel)) s := by
  induction rest with
  | nil =>
    intro processed s hsplit hs
    rw [List.append_nil] at hsplit
    rw [hsplit]
    exact ⟨hs, fun _ => rfl⟩
  | cons next rest ih =>
    intro processed s hsplit hs
    have hedge : g.Leads a next := by
      rw [Leads, hsplit]
      exact List.mem_append_right _ List.mem_cons_self
    have hsplit' : g.successors a = (processed ++ [next]) ++ rest := by
      rw [hsplit]
      simp
    cases hget : s.2.numbers.get? next with
    | some number =>
      have hfollow : ∀ v, follow v s next = (min s.1 number, s.2) := fun v => by
        simp only [follow, hget]
      obtain ⟨hscan, hmore⟩ := ih _ _ hsplit' (hs.follow_known hedge hget)
      refine ⟨?_, fun more => ?_⟩
      · rw [List.foldl_cons, hfollow]
        exact hscan
      · rw [List.foldl_cons, List.foldl_cons, hfollow, hfollow]
        exact hmore more
    | none =>
      have hnew := hs.inv.not_mem_known hget
      have hreach : ∀ b ∈ a :: path, g.Reaches b next := by
        intro b hb
        rcases List.mem_cons.1 hb with rfl | hb
        · exact ReflTransGen.single hedge
        · exact ReflTransGen.tail (hpath b hb) hedge
      have hroom : g.nodeCount ≤ s.2.entered + fuel := by
        have := hs.grows.entered
        omega
      obtain ⟨hout, hvmore⟩ := hvisit (a :: path) s.2 next hroom hs.inv (hg.leads_mem hedge).2
        hnew hreach
      have hfollow : ∀ v : Walk α → α → Nat × Walk α,
          follow v s next = (min s.1 (v s.2 next).1, (v s.2 next).2) := fun v => by
        simp only [follow, hget]
      obtain ⟨hscan, hmore⟩ := ih _ _ hsplit' (hs.follow_new hedge hnew hout)
      refine ⟨?_, fun more => ?_⟩
      · rw [List.foldl_cons, hfollow]
        exact hscan
      · rw [List.foldl_cons, List.foldl_cons, hfollow, hfollow, hvmore more]
        exact hmore more

/-- Every visit does what it should, with fuel for the nodes that are not entered yet. -/
theorem visitsWith (hg : g.WellFormed) (fuel : Nat) : VisitsWith g fuel := by
  induction fuel with
  | zero =>
    intro path w a hfuel hinv ha hfresh _
    have := hinv.entered_lt ha hfresh
    omega
  | succ fuel ih =>
    intro path w a hfuel hinv ha hfresh hpath
    have hroom : g.nodeCount ≤ (w.enter a).entered + fuel := by
      show g.nodeCount ≤ w.entered + 1 + fuel
      omega
    obtain ⟨hscan, hmore⟩ := ih.scan hg hroom hpath (g.successors a) [] _ rfl
      (scanned_enter (hinv.enter ha hfresh hpath))
    refine ⟨hscan.conclude hinv ha hfresh, fun more => ?_⟩
    rw [Nat.succ_add_eq_add_succ, Nat.add_succ, visit, visit, hmore more]

omit [Std.LawfulEqOrd α] [DecidableEq α] in
theorem Inv.contains_iff (h : Inv g path w) : w.numbers.contains a = true ↔ a ∈ w.known := by
  rw [← Std.TreeMap.isSome_getElem?_eq_contains, ← Std.TreeMap.get?_eq_getElem?]
  constructor
  · intro hsome
    by_contra hn
    rw [h.fresh a hn] at hsome
    exact absurd hsome (by simp)
  · intro hin
    rcases List.mem_append.1 hin with hin | hin
    · rw [(h.stacked a hin).1]
      rfl
    · rw [h.finished a hin]
      rfl

omit [Std.LawfulEqOrd α] [DecidableEq α] in
theorem inv_start (g : Digraph α) : Inv g [] (start : Walk α) where
  nodup := List.nodup_nil
  entered_eq := rfl
  known_mem _ ha := absurd ha List.not_mem_nil
  fresh a _ := by simp [start]
  stacked _ ha := absurd ha List.not_mem_nil
  finished _ ha := absurd ha List.not_mem_nil
  sorted := List.Pairwise.nil
  below := List.Pairwise.nil
  path_mem _ ha := absurd ha List.not_mem_nil
  back _ ha := absurd ha List.not_mem_nil
  left _ ha := absurd ha List.not_mem_nil
  settled := trivial

/-- The walk from some nodes enters them all and keeps the invariant, and more fuel than there are
nodes changes nothing. -/
theorem run_nodes (hg : g.WellFormed) (more : Nat) (todo : List α) (htodo : ∀ a ∈ todo, a ∈ g.nodes)
    (w : Walk α) (hw : Inv g [] w) :
    ∃ w', Inv g [] w' ∧ Grows w w' ∧ (∀ a ∈ todo, a ∈ w'.known) ∧
      ∀ extra ∈ [0, more], todo.foldl (fun w a =>
        if w.numbers.contains a then w else (visit g (g.nodeCount + extra) w a).2) w = w' := by
  induction todo generalizing w with
  | nil => exact ⟨w, hw, .refl w, fun _ ha => absurd ha List.not_mem_nil, fun _ _ => rfl⟩
  | cons a rest ih =>
    have hrest : ∀ b ∈ rest, b ∈ g.nodes := fun b hb => htodo b (List.mem_cons_of_mem _ hb)
    by_cases hin : a ∈ w.known
    · obtain ⟨w', hinv, hgrows, hall, heq⟩ := ih hrest w hw
      refine ⟨w', hinv, hgrows, ?_, fun extra hextra => ?_⟩
      · intro b hb
        rcases List.mem_cons.1 hb with rfl | hb
        · exact hgrows.mem_known hin
        · exact hall b hb
      · rw [List.foldl_cons, if_pos (hw.contains_iff.2 hin)]
        exact heq extra hextra
    · obtain ⟨hout, hvmore⟩ := visitsWith hg g.nodeCount [] w a (Nat.le_add_left _ _) hw
        (htodo a List.mem_cons_self) hin (fun _ hb => absurd hb List.not_mem_nil)
      obtain ⟨w', hinv, hgrows, hall, heq⟩ := ih hrest _ hout.inv
      refine ⟨w', hinv, hout.grows.trans hgrows, ?_, fun extra hextra => ?_⟩
      · intro b hb
        rcases List.mem_cons.1 hb with rfl | hb
        · exact hgrows.mem_known hout.known
        · exact hall b hb
      · rw [List.foldl_cons, if_neg (fun hc => hin (hw.contains_iff.1 hc)), hvmore extra]
        exact heq extra hextra

/-- The whole walk enters all nodes and keeps the invariant. -/
theorem run_inv (hg : g.WellFormed) : Inv g [] (run g) ∧ ∀ a ∈ g.nodes, a ∈ (run g).known := by
  obtain ⟨w', hinv, -, hall, heq⟩ := run_nodes hg 0 g.nodes (fun _ ha => ha) start (inv_start g)
  have hrun : run g = w' := heq 0 (by simp)
  rw [hrun]
  exact ⟨hinv, hall⟩

/-- No visit runs out of fuel: with more of it the walk is the same. -/
theorem runWith_eq_run (hg : g.WellFormed) {fuel : Nat} (hfuel : g.nodeCount ≤ fuel) :
    runWith g fuel = run g := by
  obtain ⟨more, rfl⟩ := Nat.exists_eq_add_of_le hfuel
  obtain ⟨w', -, -, -, heq⟩ := run_nodes hg more g.nodes (fun _ ha => ha) start (inv_start g)
  have hmore : runWith g (g.nodeCount + more) = w' := heq more (by simp)
  have hrun : run g = w' := heq 0 (by simp)
  rw [hmore, hrun]

/-- In the end the components hold exactly the nodes, each once. -/
theorem flatten_found_perm (hg : g.WellFormed) : (run g).found.flatten.Perm g.nodes := by
  obtain ⟨hinv, hall⟩ := run_inv hg
  have hknown : (run g).known = (run g).found.flatten := by
    rw [known, hinv.stack_eq_nil, List.nil_append]
  rw [← hknown]
  exact (List.perm_ext_iff_of_nodup hinv.nodup hg.nodup).2
    fun a => ⟨hinv.known_mem a, hall a⟩

end Run

end RoleAudit.Digraph.Walk
