import RoleAudit.Digraph.Component
import RoleAudit.Proofs.Digraph.Reach

/-!
# What the component walk keeps

The nodes that the walk has entered are those on the stack and those of the components found so far.
Of the nodes on the stack some are still being visited; they are the nodes of the current path, and
the walk itself does not store them. The invariant `Inv` names them `path`. It says that

* the stack is sorted by number, and lower nodes reach the nodes above them;
* every node of the stack reaches a node of the path at or below it;
* the successors of a node of the stack that is no longer visited are entered;
* the components found are classes of `Together`, and no edge leads out of what is found.

A visit keeps all of this (`visit_outcome`). The number that it gives back is a number on the stack
that can be reached, and no edge from a node it left on the stack goes to a lesser one. When it is
no less than the number of the visited node, the nodes above that node on the stack can be left only
towards components that were found before, so they are a component themselves.
-/

namespace RoleAudit.Digraph.Walk

open Relation

variable {α : Type} [Ord α]

/-- The entered nodes: those on the stack, then those of the components found. -/
def known (w : Walk α) : List α := w.stack ++ w.found.flatten

/-- The number of an entered node. -/
def number (w : Walk α) (a : α) : Nat := (w.numbers.get? a).getD 0

/-- The components found so far, latest first, are classes of `Together`, and every edge from one
stays in it or leads to one found earlier. -/
def Settled (g : Digraph α) : List (List α) → Prop
  | [] => True
  | c :: rest =>
    (∃ a ∈ c, ∀ b, b ∈ c ↔ g.Together a b) ∧
    (∀ a ∈ c, ∀ b, g.Leads a b → b ∈ c ∨ b ∈ rest.flatten) ∧ Settled g rest

/-- The invariant of the walk; `path` are the nodes that are still being visited. -/
structure Inv (g : Digraph α) (path : List α) (w : Walk α) : Prop where
  /-- No node is entered twice. -/
  nodup : w.known.Nodup
  /-- The next number is the count of the entered nodes. -/
  entered_eq : w.entered = w.known.length
  /-- Only nodes of the graph are entered. -/
  known_mem : ∀ a ∈ w.known, a ∈ g.nodes
  /-- Other nodes have no number. -/
  fresh : ∀ a, a ∉ w.known → w.numbers.get? a = none
  /-- Nodes on the stack have the number with which they were entered. -/
  stacked : ∀ a ∈ w.stack, w.numbers.get? a = some (w.number a) ∧ w.number a < w.entered
  /-- Nodes of components have a number above all others. -/
  finished : ∀ a ∈ w.found.flatten, w.numbers.get? a = some g.nodeCount
  /-- Higher nodes of the stack have higher numbers. -/
  sorted : w.stack.Pairwise fun a b => w.number b < w.number a
  /-- Lower nodes of the stack reach higher ones. -/
  below : w.stack.Pairwise fun a b => g.Reaches b a
  /-- The nodes of the path are on the stack. -/
  path_mem : ∀ a ∈ path, a ∈ w.stack
  /-- Every node of the stack reaches one of the path that is not above it. -/
  back : ∀ a ∈ w.stack, ∃ b ∈ path, w.number b ≤ w.number a ∧ g.Reaches a b
  /-- Successors of nodes that are left are entered. -/
  left : ∀ a ∈ w.stack, a ∉ path → ∀ b, g.Leads a b → b ∈ w.known
  /-- The components found are complete. -/
  settled : Settled g w.found

/-- How a walk may go on from `w` to `w'`: what lies on the stack stays there with its number, and
components are added. -/
structure Grows (w w' : Walk α) : Prop where
  /-- Nodes are put on top of the stack. -/
  stack : ∃ top, w'.stack = top ++ w.stack
  /-- Components are added to those found. -/
  found : ∃ more, w'.found = more ++ w.found
  /-- Numbers on the stack stay. -/
  number : ∀ a ∈ w.stack, w'.number a = w.number a
  /-- The count of entered nodes does not fall. -/
  entered : w.entered ≤ w'.entered

theorem Grows.refl (w : Walk α) : Grows w w where
  stack := ⟨[], rfl⟩
  found := ⟨[], rfl⟩
  number _ _ := rfl
  entered := Nat.le_refl _

theorem Grows.mem_stack {w w' : Walk α} (h : Grows w w') {a : α} (ha : a ∈ w.stack) :
    a ∈ w'.stack := by
  obtain ⟨top, htop⟩ := h.stack
  rw [htop]
  exact List.mem_append_right _ ha

theorem Grows.mem_found {w w' : Walk α} (h : Grows w w') {a : α} (ha : a ∈ w.found.flatten) :
    a ∈ w'.found.flatten := by
  obtain ⟨more, hmore⟩ := h.found
  rw [hmore, List.flatten_append]
  exact List.mem_append_right _ ha

theorem Grows.mem_known {w w' : Walk α} (h : Grows w w') {a : α} (ha : a ∈ w.known) :
    a ∈ w'.known := by
  rcases List.mem_append.1 ha with ha | ha
  · exact List.mem_append_left _ (h.mem_stack ha)
  · exact List.mem_append_right _ (h.mem_found ha)

theorem Grows.trans {w₁ w₂ w₃ : Walk α} (h : Grows w₁ w₂) (h' : Grows w₂ w₃) : Grows w₁ w₃ where
  stack := by
    obtain ⟨top, htop⟩ := h.stack
    obtain ⟨top', htop'⟩ := h'.stack
    exact ⟨top' ++ top, by rw [htop', htop, List.append_assoc]⟩
  found := by
    obtain ⟨more, hmore⟩ := h.found
    obtain ⟨more', hmore'⟩ := h'.found
    exact ⟨more' ++ more, by rw [hmore', hmore, List.append_assoc]⟩
  number a ha := by rw [h'.number a (h.mem_stack ha), h.number a ha]
  entered := Nat.le_trans h.entered h'.entered

/-! ## Components that are complete -/

/-- What is found is never left. -/
theorem Settled.leads {g : Digraph α} {found : List (List α)} (h : Settled g found) {a b : α}
    (ha : a ∈ found.flatten) (hl : g.Leads a b) : b ∈ found.flatten := by
  induction found with
  | nil => simp at ha
  | cons c rest ih =>
    obtain ⟨-, hedge, hrest⟩ := h
    rw [List.flatten_cons, List.mem_append] at ha ⊢
    rcases ha with ha | ha
    · exact hedge a ha b hl
    · exact .inr (ih hrest ha)

theorem Settled.reaches {g : Digraph α} {found : List (List α)} (h : Settled g found) {a b : α}
    (ha : a ∈ found.flatten) (hr : g.Reaches a b) : b ∈ found.flatten := by
  induction hr with
  | refl => exact ha
  | tail _ hedge ih => exact h.leads ih hedge

/-- Every component found is a class of `Together`. -/
theorem Settled.isClass {g : Digraph α} {found : List (List α)} (h : Settled g found) {c : List α}
    (hc : c ∈ found) {a : α} (ha : a ∈ c) (b : α) : b ∈ c ↔ g.Together a b := by
  induction found with
  | nil => simp at hc
  | cons d rest ih =>
    obtain ⟨⟨x, _, hclass⟩, -, hrest⟩ := h
    rcases List.mem_cons.1 hc with rfl | hc
    · have hxa := (hclass a).1 ha
      rw [hclass b]
      exact ⟨fun hxb => hxa.symm.trans hxb, fun hab => hxa.trans hab⟩
    · exact ih hrest hc

/-- No component found is empty. -/
theorem Settled.ne_nil {g : Digraph α} {found : List (List α)} (h : Settled g found) {c : List α}
    (hc : c ∈ found) : c ≠ [] := by
  induction found with
  | nil => simp at hc
  | cons d rest ih =>
    obtain ⟨⟨x, hx, _⟩, -, hrest⟩ := h
    rcases List.mem_cons.1 hc with rfl | hc
    · exact List.ne_nil_of_mem hx
    · exact ih hrest hc

/-! ## Consequences of the invariant -/

section Consequences

variable {g : Digraph α} {path : List α} {w : Walk α}

theorem Inv.not_mem_found (h : Inv g path w) {a : α} (ha : a ∈ w.stack) : a ∉ w.found.flatten :=
  fun hf => (List.nodup_append.1 h.nodup).2.2 a ha a hf rfl

/-- A node without a number is not entered. -/
theorem Inv.not_mem_known (h : Inv g path w) {a : α} (hnone : w.numbers.get? a = none) :
    a ∉ w.known := by
  intro hin
  rcases List.mem_append.1 hin with hin | hin
  · rw [(h.stacked a hin).1] at hnone
    exact absurd hnone (by simp)
  · rw [h.finished a hin] at hnone
    exact absurd hnone (by simp)

/-- A node of the graph that is not entered leaves room for one more number. -/
theorem Inv.entered_lt (h : Inv g path w) {a : α} (ha : a ∈ g.nodes) (hfresh : a ∉ w.known) :
    w.entered < g.nodeCount := by
  have hnodup : (a :: w.known).Nodup := List.nodup_cons.2 ⟨hfresh, h.nodup⟩
  have hsub : a :: w.known ⊆ g.nodes := by
    intro x hx
    rcases List.mem_cons.1 hx with rfl | hx
    · exact ha
    · exact h.known_mem x hx
  have hle := (List.subperm_of_subset hnodup hsub).length_le
  rw [List.length_cons] at hle
  rw [h.entered_eq, nodeCount_eq]
  omega

/-- With an empty path nothing is left on the stack. -/
theorem Inv.stack_eq_nil (h : Inv g [] w) : w.stack = [] := by
  by_contra hne
  obtain ⟨a, ha⟩ := List.exists_mem_of_ne_nil _ hne
  obtain ⟨b, hb, -⟩ := h.back a ha
  simp at hb

end Consequences

/-! ## Entering a node -/

section Enter

theorem known_enter (w : Walk α) (a : α) : (w.enter a).known = a :: w.known := rfl

theorem ne_of_mem_stack {w : Walk α} {a b : α} (hfresh : a ∉ w.known) (hb : b ∈ w.stack) :
    b ≠ a := by
  rintro rfl
  exact hfresh (List.mem_append_left _ hb)

variable [Std.TransOrd α] [Std.LawfulEqOrd α]

theorem get?_enter_self (w : Walk α) (a : α) : (w.enter a).numbers.get? a = some w.entered := by
  simp [enter]

theorem get?_enter_of_ne (w : Walk α) {a b : α} (h : b ≠ a) :
    (w.enter a).numbers.get? b = w.numbers.get? b := by
  have hne : compare a b ≠ .eq := fun he => h (Std.LawfulEqOrd.eq_of_compare he).symm
  simp [enter, Std.TreeMap.getElem?_insert, hne]

theorem number_enter_self (w : Walk α) (a : α) : (w.enter a).number a = w.entered := by
  simp only [number, get?_enter_self, Option.getD_some]

theorem number_enter_of_ne (w : Walk α) {a b : α} (h : b ≠ a) :
    (w.enter a).number b = w.number b := by
  simp only [number, get?_enter_of_ne w h]

variable {g : Digraph α} {path : List α} {w : Walk α} {a : α}

/-- Entering a new node that the whole path reaches keeps the invariant, with the node on the path. -/
theorem Inv.enter (h : Inv g path w) (ha : a ∈ g.nodes) (hfresh : a ∉ w.known)
    (hpath : ∀ b ∈ path, g.Reaches b a) : Inv g (a :: path) (w.enter a) where
  nodup := List.nodup_cons.2 ⟨hfresh, h.nodup⟩
  entered_eq := by
    rw [known_enter, List.length_cons, ← h.entered_eq]
    rfl
  known_mem b hb := by
    rw [known_enter] at hb
    rcases List.mem_cons.1 hb with rfl | hb
    · exact ha
    · exact h.known_mem b hb
  fresh b hb := by
    rw [known_enter, List.mem_cons, not_or] at hb
    rw [get?_enter_of_ne w hb.1]
    exact h.fresh b hb.2
  stacked b hb := by
    show _ ∧ _ < w.entered + 1
    rcases List.mem_cons.1 hb with rfl | hb
    · rw [get?_enter_self, number_enter_self]
      exact ⟨rfl, Nat.lt_succ_self _⟩
    · have hne := ne_of_mem_stack hfresh hb
      obtain ⟨hget, hlt⟩ := h.stacked b hb
      rw [get?_enter_of_ne w hne, number_enter_of_ne w hne]
      exact ⟨hget, by omega⟩
  finished b hb := by
    have hne : b ≠ a := by
      rintro rfl
      exact hfresh (List.mem_append_right _ hb)
    rw [get?_enter_of_ne w hne]
    exact h.finished b hb
  sorted := by
    refine List.pairwise_cons.2 ⟨fun b hb => ?_, h.sorted.imp_of_mem fun {b c} hb hc hlt => ?_⟩
    · rw [number_enter_self, number_enter_of_ne w (ne_of_mem_stack hfresh hb)]
      exact (h.stacked b hb).2
    · rw [number_enter_of_ne w (ne_of_mem_stack hfresh hb),
        number_enter_of_ne w (ne_of_mem_stack hfresh hc)]
      exact hlt
  below := by
    refine List.pairwise_cons.2 ⟨fun b hb => ?_, h.below⟩
    obtain ⟨p, hp, -, hreach⟩ := h.back b hb
    exact ReflTransGen.trans hreach (hpath p hp)
  path_mem b hb := by
    rcases List.mem_cons.1 hb with rfl | hb
    · exact List.mem_cons_self
    · exact List.mem_cons_of_mem _ (h.path_mem b hb)
  back b hb := by
    rcases List.mem_cons.1 hb with rfl | hb
    · exact ⟨b, List.mem_cons_self, Nat.le_refl _, ReflTransGen.refl⟩
    · obtain ⟨p, hp, hle, hreach⟩ := h.back b hb
      refine ⟨p, List.mem_cons_of_mem _ hp, ?_, hreach⟩
      rw [number_enter_of_ne w (ne_of_mem_stack hfresh hb),
        number_enter_of_ne w (ne_of_mem_stack hfresh (h.path_mem p hp))]
      exact hle
  left b hb hnp c hc := by
    rw [List.mem_cons, not_or] at hnp
    rcases List.mem_cons.1 hb with rfl | hb
    · exact absurd rfl hnp.1
    · exact List.mem_cons_of_mem _ (h.left b hb hnp.2 c hc)
  settled := h.settled

theorem grows_enter (hfresh : a ∉ w.known) : Grows w (w.enter a) where
  stack := ⟨[a], rfl⟩
  found := ⟨[], rfl⟩
  number _ hb := number_enter_of_ne w (ne_of_mem_stack hfresh hb)
  entered := Nat.le_succ _

end Enter

/-! ## Closing a component -/

section Close

variable [DecidableEq α]

omit [Ord α] in
theorem cut_append {a : α} {top : List α} (rest : List α) (h : a ∉ top) :
    cut a (top ++ a :: rest) = (top ++ [a], rest) := by
  induction top with
  | nil => simp [cut]
  | cons b top ih =>
    rw [List.mem_cons, not_or] at h
    simp [cut, Ne.symm h.1, ih h.2]

omit [Ord α] [DecidableEq α] in
/-- On a stack without repetitions, `a` is not above itself, and what is below it is neither `a` nor
above it. -/
theorem not_mem_down_to {a : α} {top rest : List α} (h : (top ++ a :: rest).Nodup) :
    a ∉ top ∧ ∀ b ∈ rest, b ∉ top ++ [a] := by
  obtain ⟨-, hbelow, hdisjoint⟩ := List.nodup_append.1 h
  refine ⟨fun htop => hdisjoint a htop a List.mem_cons_self rfl, fun b hb hin => ?_⟩
  rcases List.mem_append.1 hin with hin | hin
  · exact hdisjoint b hin b (List.mem_cons_of_mem _ hb) rfl
  · rw [List.mem_singleton] at hin
    exact (List.nodup_cons.1 hbelow).1 (hin ▸ hb)

variable {w : Walk α} {a : α} {top rest : List α}

theorem stack_close (done : Nat) (hstack : w.stack = top ++ a :: rest) (ha : a ∉ top) :
    (w.close done a).stack = rest := by
  simp [close, hstack, cut_append rest ha]

theorem found_close (done : Nat) (hstack : w.stack = top ++ a :: rest) (ha : a ∉ top) :
    (w.close done a).found = (top ++ [a]) :: w.found := by
  simp [close, hstack, cut_append rest ha]

theorem entered_close (done : Nat) : (w.close done a).entered = w.entered := rfl

theorem known_close (done : Nat) (hstack : w.stack = top ++ a :: rest) (ha : a ∉ top) :
    (w.close done a).known.Perm w.known := by
  have hflat : (w.close done a).known = rest ++ ((top ++ [a]) ++ w.found.flatten) := by
    rw [known, stack_close done hstack ha, found_close done hstack ha, List.flatten_cons]
  have hold : w.known = (top ++ [a]) ++ (rest ++ w.found.flatten) := by
    rw [known, hstack]
    simp
  rw [hflat, hold, ← List.append_assoc rest, ← List.append_assoc (top ++ [a])]
  exact List.perm_append_comm.append_right _

variable [Std.TransOrd α] [Std.LawfulEqOrd α]

omit [DecidableEq α] in
/-- Giving one value to many keys changes the look-up of those keys only. -/
theorem get?_foldl_insert {β : Type} (keys : List α) (value : β) (m : Std.TreeMap α β) (x : α) :
    (x ∈ keys → (keys.foldl (fun m b => m.insert b value) m).get? x = some value) ∧
    (x ∉ keys → (keys.foldl (fun m b => m.insert b value) m).get? x = m.get? x) := by
  induction keys generalizing m with
  | nil => simp
  | cons b rest ih =>
    obtain ⟨ih_mem, ih_not⟩ := ih (m.insert b value)
    rw [List.foldl_cons]
    by_cases hx : x ∈ rest
    · exact ⟨fun _ => ih_mem hx, fun hn => absurd (List.mem_cons_of_mem _ hx) hn⟩
    · rw [ih_not hx]
      by_cases hxb : x = b
      · subst hxb
        simp
      · have hne : compare b x ≠ .eq := fun he => hxb (Std.LawfulEqOrd.eq_of_compare he).symm
        simp [Std.TreeMap.getElem?_insert, hne, hx, hxb]

theorem get?_close_of_mem (done : Nat) (hstack : w.stack = top ++ a :: rest) (ha : a ∉ top) {x : α}
    (hx : x ∈ top ++ [a]) : (w.close done a).numbers.get? x = some done := by
  simp only [close, hstack, cut_append rest ha]
  exact (get?_foldl_insert _ done w.numbers x).1 hx

theorem get?_close_of_not_mem (done : Nat) (hstack : w.stack = top ++ a :: rest) (ha : a ∉ top)
    {x : α} (hx : x ∉ top ++ [a]) : (w.close done a).numbers.get? x = w.numbers.get? x := by
  simp only [close, hstack, cut_append rest ha]
  exact (get?_foldl_insert _ done w.numbers x).2 hx

theorem number_close_of_not_mem (done : Nat) (hstack : w.stack = top ++ a :: rest) (ha : a ∉ top)
    {x : α} (hx : x ∉ top ++ [a]) : (w.close done a).number x = w.number x := by
  simp only [number, get?_close_of_not_mem done hstack ha hx]

/-- Taking the stack down to `a` for a component keeps the invariant, provided that those nodes are
a class of `Together`, that edges from them lead to them or to what is found, and that the path goes
on below them. -/
theorem Inv.close {g : Digraph α} {path : List α} (h : Inv g (a :: path) w)
    (hstack : w.stack = top ++ a :: rest) (hpath : ∀ b ∈ path, b ∈ rest)
    (hclass : ∀ b, b ∈ top ++ [a] ↔ g.Together a b)
    (hedge : ∀ b ∈ top ++ [a], ∀ c, g.Leads b c → c ∈ top ++ [a] ∨ c ∈ w.found.flatten) :
    Inv g path (w.close g.nodeCount a) := by
  have hnodup : (top ++ a :: rest).Nodup := hstack ▸ (List.nodup_append.1 h.nodup).1
  obtain ⟨ha, hrest⟩ := not_mem_down_to hnodup
  have hperm := known_close g.nodeCount hstack ha
  have hrest_mem : ∀ b ∈ rest, b ∈ w.stack := fun b hb => by
    rw [hstack]
    exact List.mem_append_right _ (List.mem_cons_of_mem _ hb)
  have hnumber : ∀ b ∈ rest, (w.close g.nodeCount a).number b = w.number b :=
    fun b hb => number_close_of_not_mem _ hstack ha (hrest b hb)
  have hsorted := h.sorted
  rw [hstack] at hsorted
  have hbelow := h.below
  rw [hstack] at hbelow
  have hlower : ∀ b ∈ rest, w.number b < w.number a :=
    (List.pairwise_cons.1 (List.pairwise_append.1 hsorted).2.1).1
  have hst := stack_close g.nodeCount hstack ha
  refine
    { nodup := hperm.nodup_iff.2 h.nodup
      entered_eq := by rw [entered_close, h.entered_eq, hperm.length_eq]
      known_mem := fun b hb => h.known_mem b (hperm.subset hb)
      fresh := ?_
      stacked := ?_
      finished := ?_
      sorted := ?_
      below := ?_
      path_mem := fun b hb => by rw [hst]; exact hpath b hb
      back := ?_
      left := ?_
      settled := ?_ }
  · -- fresh
    intro b hb
    have hold : b ∉ w.known := fun hin => hb (hperm.symm.subset hin)
    have hnot : b ∉ top ++ [a] := by
      intro hin
      apply hold
      rw [known, hstack]
      refine List.mem_append_left _ ?_
      rw [← List.singleton_append, ← List.append_assoc]
      exact List.mem_append_left _ hin
    rw [get?_close_of_not_mem _ hstack ha hnot]
    exact h.fresh b hold
  · -- stacked
    intro b hb
    rw [hst] at hb
    rw [get?_close_of_not_mem _ hstack ha (hrest b hb), hnumber b hb]
    exact h.stacked b (hrest_mem b hb)
  · -- finished
    intro b hb
    by_cases hin : b ∈ top ++ [a]
    · exact get?_close_of_mem _ hstack ha hin
    · rw [found_close _ hstack ha, List.flatten_cons, List.mem_append] at hb
      rw [get?_close_of_not_mem _ hstack ha hin]
      exact h.finished b (hb.resolve_left hin)
  · -- sorted
    rw [hst]
    refine (List.pairwise_cons.1 (List.pairwise_append.1 hsorted).2.1).2.imp_of_mem ?_
    intro b c hb hc hlt
    rw [hnumber b hb, hnumber c hc]
    exact hlt
  · -- below
    rw [hst]
    exact (List.pairwise_cons.1 (List.pairwise_append.1 hbelow).2.1).2
  · -- back: the node of the path at or below a node of the rest is not `a`
    intro b hb
    rw [hst] at hb
    obtain ⟨p, hp, hle, hreach⟩ := h.back b (hrest_mem b hb)
    rcases List.mem_cons.1 hp with rfl | hp
    · have := hlower b hb
      omega
    · exact ⟨p, hp, by rw [hnumber b hb, hnumber p (hpath p hp)]; exact hle, hreach⟩
  · -- left
    intro b hb hnp c hc
    rw [hst] at hb
    have hne : b ≠ a := fun he => hrest b hb (he ▸ List.mem_append_right _ List.mem_cons_self)
    have hin := h.left b (hrest_mem b hb) (by simp [hne, hnp]) c hc
    exact hperm.symm.subset hin
  · -- settled
    rw [found_close _ hstack ha]
    exact ⟨⟨a, List.mem_append_right _ List.mem_cons_self, hclass⟩, hedge, h.settled⟩

end Close

end RoleAudit.Digraph.Walk
