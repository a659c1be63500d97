import RoleAudit.Digraph.Cycle
import RoleAudit.Proofs.Digraph.Reach

/-!
# What the search for cycles finds

The nodes that the search has entered are those of the current path and those that it has left. The
search does not store the latter; the invariant `Inv` names them `order`, latest first. As long as
the search has not halted, every edge from a node of `order` leads to a node that was left before it
or is the closing edge of a cycle that was found. So a search that ends without a cycle has put all
nodes in an order that no edge goes against.

The path from its start on, followed by `order`, is a line that leaving a node does not change and
that entering one only lengthens. Every cycle found is a part of this line, so its nodes determine it,
and its closing edge is followed once. Hence no two cycles found have the same nodes, and no edge closes
two of them.
-/

namespace RoleAudit.Digraph

open Relation

variable {α : Type} [Ord α]

/-- A closed walk that meets no node twice but the first one at its end. -/
structure IsCycle (g : Digraph α) (c : List α) : Prop where
  /-- It has an edge. -/
  two_le : 2 ≤ c.length
  /-- It ends where it starts. -/
  closed : c.head? = c.getLast?
  /-- It meets no node twice on the way. -/
  nodup : c.dropLast.Nodup
  /-- Each node leads to the next. -/
  chain : c.IsChain g.Leads

/-- Some node can be reached from itself over at least one edge. -/
def HasCycle (g : Digraph α) : Prop := ∃ a, TransGen g.Leads a a

/-- In a chain, earlier nodes reach later ones. -/
theorem reaches_of_isChain {g : Digraph α} {l : List α} (h : l.IsChain g.Leads) :
    l.Pairwise g.Reaches := by
  have htrans : l.IsChain g.Reaches := h.imp fun _ _ hl => ReflTransGen.single hl
  have : IsTrans α g.Reaches := ⟨fun _ _ _ hab hbc => ReflTransGen.trans hab hbc⟩
  exact List.isChain_iff_pairwise.1 htrans

/-- A cycle is its nodes and its first node again. -/
theorem IsCycle.exists_eq {g : Digraph α} {c : List α} (h : g.IsCycle c) :
    ∃ a rest, c = a :: rest ++ [a] ∧ c.dropLast = a :: rest := by
  obtain ⟨hlen, hclosed, -, -⟩ := h
  rcases List.eq_nil_or_concat c with rfl | ⟨init, z, rfl⟩
  · simp at hlen
  · rw [List.concat_eq_append] at hlen hclosed ⊢
    cases init with
    | nil => simp at hlen
    | cons a rest =>
      rw [List.getLast?_append] at hclosed
      simp only [List.cons_append, List.head?_cons, List.getLast?_singleton, Option.some_or,
        Option.some.injEq] at hclosed
      subst hclosed
      exact ⟨a, rest, rfl, by rw [List.dropLast_concat]⟩

/-- The nodes of a cycle reach each other. -/
theorem IsCycle.reaches {g : Digraph α} {c : List α} (h : g.IsCycle c) {x y : α}
    (hx : x ∈ c.dropLast) (hy : y ∈ c.dropLast) : g.Reaches x y := by
  obtain ⟨a, rest, rfl, hdrop⟩ := h.exists_eq
  rw [hdrop] at hx hy
  have hpair := reaches_of_isChain h.chain
  have hto : ∀ {z}, z ∈ a :: rest → g.Reaches z a := fun {z} hz =>
    (List.pairwise_append.1 hpair).2.2 z hz a (List.mem_singleton.2 rfl)
  have hfrom : ∀ {z}, z ∈ a :: rest → g.Reaches a z := by
    intro z hz
    rcases List.mem_cons.1 hz with rfl | hz
    · exact ReflTransGen.refl
    · exact (List.pairwise_cons.1 (List.pairwise_append.1 hpair).1).1 z hz
  exact ReflTransGen.trans (hto hx) (hfrom hy)

/-- The nodes of a cycle lie on edges. -/
theorem IsCycle.exists_leads {g : Digraph α} {c : List α} (h : g.IsCycle c) {x : α}
    (hx : x ∈ c.dropLast) : ∃ y, g.Leads x y := by
  obtain ⟨a, rest, rfl, hdrop⟩ := h.exists_eq
  rw [hdrop] at hx
  obtain ⟨before, after, hsplit⟩ := List.append_of_mem hx
  have hchain := h.chain
  rw [hsplit, List.append_assoc, List.cons_append] at hchain
  have htail := (List.isChain_append.1 hchain).2.1
  cases after with
  | nil => exact ⟨a, (List.isChain_cons.1 htail).1 a (by simp)⟩
  | cons y after => exact ⟨y, (List.isChain_cons.1 htail).1 y (by simp)⟩

theorem IsCycle.hasCycle {g : Digraph α} {c : List α} (h : g.IsCycle c) : g.HasCycle := by
  obtain ⟨a, rest, rfl, hdrop⟩ := h.exists_eq
  have hchain := h.chain
  refine ⟨a, ?_⟩
  rw [List.cons_append] at hchain
  cases rest with
  | nil => exact TransGen.single ((List.isChain_cons.1 hchain).1 a (by simp))
  | cons b rest =>
    have hab : g.Leads a b := (List.isChain_cons.1 hchain).1 b (by simp)
    have hba : g.Reaches b a := h.reaches (by rw [hdrop]; simp) (by rw [hdrop]; simp)
    exact TransGen.head' hab hba

/-- Two cycles go through the same nodes. -/
def SameNodes (c d : List α) : Prop := c.dropLast.Perm d.dropLast

omit [Ord α] in
theorem SameNodes.symm {c d : List α} (h : SameNodes c d) : SameNodes d c := List.Perm.symm h

/-- A cycle is closed by its first node, so the nodes before that say all. -/
theorem IsCycle.eq_of_dropLast_eq {g : Digraph α} {c d : List α} (hc : g.IsCycle c)
    (hd : g.IsCycle d) (h : c.dropLast = d.dropLast) : c = d := by
  obtain ⟨a, rest, rfl, hcdrop⟩ := hc.exists_eq
  obtain ⟨b, rest', rfl, hddrop⟩ := hd.exists_eq
  rw [hcdrop, hddrop] at h
  obtain ⟨rfl, rfl⟩ := List.cons.inj h
  rfl

namespace CycleSearch

/-- The edge from `x` to `y` is the last one of a cycle found. -/
def Closes (found : List (List α)) (x y : α) : Prop := ∃ c ∈ found, ∃ walk, c = walk ++ [x, y]

omit [Ord α] in
theorem Closes.mono {found : List (List α)} {x y : α} (h : Closes found x y)
    (more : List (List α)) : Closes (more ++ found) x y := by
  obtain ⟨c, hc, hwalk⟩ := h
  exact ⟨c, List.mem_append_right _ hc, hwalk⟩

omit [Ord α] in
theorem Closes.of_mem {found : List (List α)} {c : List α} {x y : α} (h : Closes [c] x y)
    (hc : c ∈ found) : Closes found x y := by
  obtain ⟨d, hd, hwalk⟩ := h
  exact ⟨d, List.mem_singleton.1 hd ▸ hc, hwalk⟩

/-- Every edge from a node of the list leads further down the list, or closes a cycle found. -/
def Ordered (g : Digraph α) (found : List (List α)) : List α → Prop
  | [] => True
  | x :: rest => (∀ y, g.Leads x y → y ∈ rest ∨ Closes found x y) ∧ Ordered g found rest

theorem Ordered.mono {g : Digraph α} {found : List (List α)} {order : List α}
    (h : Ordered g found order) (more : List (List α)) : Ordered g (more ++ found) order := by
  induction order with
  | nil => trivial
  | cons x rest ih => exact ⟨fun y hl => (h.1 y hl).imp id (·.mono more), ih h.2⟩

/-- There is an edge that is not the last one of a cycle found. -/
def LeadsOpen (g : Digraph α) (found : List (List α)) (x y : α) : Prop :=
  g.Leads x y ∧ ¬ Closes found x y

theorem Ordered.mem_of_leadsOpen {g : Digraph α} {found : List (List α)} {order : List α}
    (h : Ordered g found order) {x y : α} (hx : x ∈ order) (hl : LeadsOpen g found x y) :
    y ∈ order := by
  induction order with
  | nil => exact absurd hx List.not_mem_nil
  | cons a rest ih =>
    rcases List.mem_cons.1 hx with rfl | hx
    · exact List.mem_cons_of_mem _ ((h.1 y hl.1).resolve_right hl.2)
    · exact List.mem_cons_of_mem _ (ih h.2 hx)

theorem Ordered.mem_of_reflTransGen {g : Digraph α} {found : List (List α)} {order : List α}
    (h : Ordered g found order) {x y : α} (hx : x ∈ order)
    (hr : ReflTransGen (LeadsOpen g found) x y) : y ∈ order := by
  induction hr with
  | refl => exact hx
  | tail _ hl ih => exact h.mem_of_leadsOpen ih hl

/-- Without the closing edges of the cycles found, no node of an order comes back to itself. -/
theorem Ordered.acyclic {g : Digraph α} {found : List (List α)} {order : List α}
    (h : Ordered g found order) (hnodup : order.Nodup) {x : α} (hx : x ∈ order) :
    ¬ TransGen (LeadsOpen g found) x x := by
  induction order with
  | nil => exact absurd hx List.not_mem_nil
  | cons a rest ih =>
    obtain ⟨ha, hrest⟩ := List.nodup_cons.1 hnodup
    rcases List.mem_cons.1 hx with rfl | hx
    · -- the first step goes down the list, and no step comes back up
      intro hcycle
      obtain ⟨y, hl, hback⟩ := TransGen.head'_iff.1 hcycle
      have hy : y ∈ rest := (h.1 y hl.1).resolve_right hl.2
      exact ha (h.2.mem_of_reflTransGen hy hback)
    · exact ih h.2 hrest hx

theorem leadsOpen_nil {g : Digraph α} {x y : α} (h : g.Leads x y) : LeadsOpen g [] x y := by
  refine ⟨h, ?_⟩
  rintro ⟨c, hc, -⟩
  exact List.not_mem_nil hc

/-! ## The invariant -/

/-- The invariant of the search; `order` are the nodes that it has left, latest first. -/
structure Inv (g : Digraph α) (b : Bounds) (order : List α) (s : CycleSearch α) : Prop where
  /-- No node is entered twice. -/
  nodup : (s.path ++ order).Nodup
  /-- The entered nodes are those of the path and those that were left. -/
  visited_iff : ∀ a, s.visited.contains a = true ↔ a ∈ s.path ++ order
  /-- Only nodes of the graph are entered. -/
  mem_nodes : ∀ a ∈ s.path ++ order, a ∈ g.nodes
  /-- The path is a walk, its end first. -/
  chain : s.path.IsChain fun a b => g.Leads b a
  /-- What is found are cycles. -/
  cycles : ∀ c ∈ s.found, g.IsCycle c
  /-- The nodes of a cycle come in the order of the path and of the nodes that were left. -/
  lined : ∀ c ∈ s.found, c.dropLast.Sublist (s.path.reverse ++ order)
  /-- No two cycles found have the same nodes. -/
  distinct : s.found.Pairwise fun c d => ¬ SameNodes c d
  /-- No edge closes two of them. -/
  closedOnce : s.found.Pairwise fun c d => ∀ x y, Closes [c] x y → ¬ Closes [d] x y
  /-- No more cycles are kept than the limit. -/
  within : s.found.length ≤ b.limit
  /-- A search that was cut short has found its limit, and there is a cycle with other nodes. -/
  truncated : s.truncated = true →
    b.limit ≤ s.found.length ∧ ∃ c, g.IsCycle c ∧ ∀ d ∈ s.found, ¬ SameNodes c d
  /-- Edges from nodes that were left go to nodes left before, or close a cycle. -/
  ordered : s.halted b = false → Ordered g s.found order

theorem inv_start [Std.TransOrd α] (g : Digraph α) (b : Bounds) :
    Inv g b [] (start : CycleSearch α) where
  nodup := List.nodup_nil
  visited_iff a := by simp [start, Std.TreeSet.contains_emptyc]
  mem_nodes _ ha := absurd ha List.not_mem_nil
  chain := List.IsChain.nil
  cycles _ hc := absurd hc List.not_mem_nil
  lined _ hc := absurd hc List.not_mem_nil
  distinct := List.Pairwise.nil
  closedOnce := List.Pairwise.nil
  within := Nat.zero_le _
  truncated h := absurd h (by simp [start])
  ordered _ := trivial

section Steps

variable {g : Digraph α} {b : Bounds} {order : List α} {s : CycleSearch α} {a : α}

/-- A new node that the end of the path leads to prolongs the path. -/
theorem Inv.enter [Std.TransOrd α] [Std.LawfulEqOrd α] (h : Inv g b order s) (ha : a ∈ g.nodes)
    (hnew : a ∉ s.path ++ order) (hlead : ∀ p ∈ s.path.head?, g.Leads p a) :
    Inv g b order (s.enter a) where
  nodup := List.nodup_cons.2 ⟨hnew, h.nodup⟩
  visited_iff x := by
    show (s.visited.insert a).contains x = true ↔ x ∈ a :: (s.path ++ order)
    rw [Std.TreeSet.contains_insert, Bool.or_eq_true, h.visited_iff x, List.mem_cons, beq_iff_eq,
      Std.LawfulEqCmp.compare_eq_iff_eq, eq_comm]
  mem_nodes x hx := by
    rcases List.mem_cons.1 hx with rfl | hx
    · exact ha
    · exact h.mem_nodes x hx
  chain := List.isChain_cons.2 ⟨hlead, h.chain⟩
  cycles := h.cycles
  lined c hc := by
    have hline : (s.path.reverse ++ order).Sublist ((s.enter a).path.reverse ++ order) := by
      show List.Sublist _ ((a :: s.path).reverse ++ order)
      rw [List.reverse_cons, List.append_assoc]
      exact (List.Sublist.refl _).append (List.sublist_append_right [a] order)
    exact (h.lined c hc).trans hline
  distinct := h.distinct
  closedOnce := h.closedOnce
  within := h.within
  truncated := h.truncated
  ordered := h.ordered

/-- Going back puts the end of the path in front of the nodes that were left. -/
theorem Inv.leave {path : List α} (h : Inv g b order s) (hpath : s.path = a :: path)
    (hdone : s.halted b = false → ∀ y, g.Leads a y → y ∈ order ∨ Closes s.found a y) :
    Inv g b (a :: order) s.leave := by
  have hperm : (s.path ++ order).Perm (path ++ a :: order) := by
    rw [hpath, List.cons_append]
    exact List.perm_middle.symm
  have hleave : s.leave.path = path := by
    show s.path.tail = path
    rw [hpath, List.tail_cons]
  have hchain := h.chain
  rw [hpath] at hchain
  refine
    { nodup := by rw [hleave]; exact hperm.nodup_iff.1 h.nodup
      visited_iff := fun x => by rw [hleave, ← hperm.mem_iff]; exact h.visited_iff x
      mem_nodes := fun x hx => by rw [hleave] at hx; exact h.mem_nodes x (hperm.mem_iff.2 hx)
      chain := by rw [hleave]; exact (List.isChain_cons.1 hchain).2
      cycles := h.cycles
      lined := fun c hc => by
        have hline : s.leave.path.reverse ++ a :: order = s.path.reverse ++ order := by
          rw [hleave, hpath, List.reverse_cons, List.append_assoc, List.singleton_append]
        rw [hline]
        exact h.lined c hc
      distinct := h.distinct
      closedOnce := h.closedOnce
      within := h.within
      truncated := h.truncated
      ordered := fun hhalt => ⟨hdone hhalt, h.ordered hhalt⟩ }

/-- A node of the graph that is not entered leaves room for one more. -/
theorem Inv.entered_lt (h : Inv g b order s) (ha : a ∈ g.nodes) (hnew : a ∉ s.path ++ order) :
    (s.path ++ order).length < g.nodeCount := by
  have hsub : a :: (s.path ++ order) ⊆ g.nodes := by
    intro x hx
    rcases List.mem_cons.1 hx with rfl | hx
    · exact ha
    · exact h.mem_nodes x hx
  have hle := (List.subperm_of_subset (List.nodup_cons.2 ⟨hnew, h.nodup⟩) hsub).length_le
  rw [List.length_cons] at hle
  rw [nodeCount_eq]
  omega

/-- The closing edges of the cycles found leave entered nodes. -/
theorem Inv.mem_of_closes (h : Inv g b order s) {x y : α} (hc : Closes s.found x y) :
    x ∈ s.path ++ order := by
  obtain ⟨c, hc, walk, rfl⟩ := hc
  have hx : x ∈ (walk ++ [x, y]).dropLast := by simp
  have hline := (h.lined _ hc).subset hx
  rwa [List.mem_append, List.mem_reverse, ← List.mem_append] at hline

variable [DecidableEq α]

omit [Ord α] in
theorem upTo_append {top : List α} (rest : List α) (h : a ∉ top) :
    upTo a (top ++ a :: rest) = top ++ [a] := by
  induction top with
  | nil => simp [upTo]
  | cons c top ih =>
    rw [List.mem_cons, not_or] at h
    simp [upTo, Ne.symm h.1, ih h.2]

omit [Ord α] in
/-- The cycle that an edge to a node of the path closes is in line. -/
theorem dropLast_sublist_of_mem {next : α} {path : List α} (hnext : next ∈ path) (order : List α) :
    (next :: upTo next path).reverse.dropLast.Sublist (path.reverse ++ order) := by
  obtain ⟨top, rest, hsplit, htop⟩ := List.eq_append_cons_of_mem hnext
  have hpath : path.reverse = rest.reverse ++ (top ++ [next]).reverse := by
    rw [hsplit, List.append_cons, List.reverse_append]
  rw [List.reverse_cons, List.dropLast_concat, hpath, hsplit, upTo_append rest htop]
  exact (List.sublist_append_right _ _).trans (List.sublist_append_left _ order)

/-- An edge from the end of the path to a node of it closes a cycle. -/
theorem Inv.isCycle {path : List α} {next : α} (h : Inv g b order s) (hpath : s.path = a :: path)
    (hedge : g.Leads a next) (hnext : next ∈ s.path) :
    g.IsCycle (next :: upTo next s.path).reverse ∧
      ∃ walk, (next :: upTo next s.path).reverse = walk ++ [a, next] := by
  obtain ⟨top, rest, hsplit, htop⟩ := List.eq_append_cons_of_mem hnext
  have hup : upTo next s.path = top ++ [next] := by rw [hsplit, upTo_append rest htop]
  have hhead : ∃ back, top ++ [next] = a :: back := by
    rw [hpath] at hsplit
    cases top with
    | nil =>
      obtain ⟨rfl, -⟩ := List.cons.inj hsplit
      exact ⟨[], rfl⟩
    | cons c top =>
      obtain ⟨rfl, -⟩ := List.cons.inj hsplit
      exact ⟨top ++ [next], rfl⟩
  obtain ⟨back, hback⟩ := hhead
  have hrev : (next :: (top ++ [next])).reverse = next :: top.reverse ++ [next] := by simp
  have hnodup := h.nodup
  have hchain := h.chain
  rw [hsplit] at hnodup hchain
  rw [hup]
  refine ⟨{ two_le := ?_, closed := ?_, nodup := ?_, chain := ?_ }, back.reverse, ?_⟩
  · -- two_le
    simp
  · -- closed
    rw [hrev, List.getLast?_append]
    rfl
  · -- nodup
    rw [hrev, List.dropLast_concat]
    refine List.nodup_cons.2 ⟨fun hmem => htop (List.mem_reverse.1 hmem), ?_⟩
    exact List.nodup_reverse.2 (List.nodup_append.1 (List.nodup_append.1 hnodup).1).1
  · -- chain
    rw [List.isChain_reverse]
    refine List.isChain_cons.2 ⟨?_, ?_⟩
    · rw [hback]
      rintro _ ⟨⟩
      exact hedge
    · rw [List.append_cons] at hchain
      exact (List.isChain_append.1 hchain).1
  · rw [hback, List.reverse_cons, List.reverse_cons, List.append_assoc]
    rfl

/-- An edge that closed no cycle before closes one with nodes of its own: the nodes of a cycle found
give back the cycle, and with it the edge. -/
theorem Inv.not_sameNodes {path : List α} {next : α} (h : Inv g b order s)
    (hpath : s.path = a :: path) (hedge : g.Leads a next) (hnext : next ∈ s.path)
    (hfresh : ¬ Closes s.found a next) {d : List α} (hd : d ∈ s.found) :
    ¬ SameNodes (next :: upTo next s.path).reverse d := by
  intro hsame
  obtain ⟨hcycle, walk, hwalk⟩ := h.isCycle hpath hedge hnext
  have hline : (s.path.reverse ++ order).Nodup :=
    ((List.reverse_perm s.path).append_right order).nodup_iff.2 h.nodup
  have hnodes := (hline.perm_iff_eq_of_sublist (dropLast_sublist_of_mem hnext order)
    (h.lined d hd)).1 hsame
  have heq : (next :: upTo next s.path).reverse = d :=
    hcycle.eq_of_dropLast_eq (h.cycles d hd) hnodes
  exact hfresh ⟨d, hd, walk, heq ▸ hwalk⟩

/-- From the nodes on the path of `s`, only edges that `new` allows have become closing edges. -/
def ClosesOnly (s t : CycleSearch α) (new : α → α → Prop) : Prop :=
  ∀ x ∈ s.path, ∀ y, Closes t.found x y → Closes s.found x y ∨ new x y

omit [DecidableEq α] in
theorem ClosesOnly.refl (s : CycleSearch α) (new : α → α → Prop) : ClosesOnly s s new :=
  fun _ _ _ hc => Or.inl hc

omit [DecidableEq α] in
theorem ClosesOnly.trans {t u : CycleSearch α} {new new' : α → α → Prop}
    (hpath : t.path = s.path) (hst : ClosesOnly s t new) (htu : ClosesOnly t u new') :
    ClosesOnly s u fun x y => new x y ∨ new' x y := by
  intro x hx y hc
  rcases htu x (hpath ▸ hx) y hc with hc | hnew
  · exact (hst x hx y hc).imp id Or.inl
  · exact Or.inr (Or.inr hnew)

/-- A cycle is kept, or the search is over. -/
theorem Inv.record {path : List α} {next : α} (h : Inv g b order s) (hpath : s.path = a :: path)
    (hedge : g.Leads a next) (hnext : next ∈ s.path) (hfresh : ¬ Closes s.found a next)
    (hgoing : s.halted b = false) :
    Inv g b order (s.record b next) ∧
      ClosesOnly s (s.record b next) (fun x y => x = a ∧ y = next) ∧
      ((s.record b next).halted b = false → Closes (s.record b next).found a next) := by
  obtain ⟨hcycle, walk, hwalk⟩ := h.isCycle hpath hedge hnext
  have hother : ∀ d ∈ s.found, ¬ SameNodes (next :: upTo next s.path).reverse d :=
    fun d hd => h.not_sameNodes hpath hedge hnext hfresh hd
  -- the last two nodes of the new cycle are the ends of its closing edge
  have hends : ∀ {x y}, Closes [(next :: upTo next s.path).reverse] x y → x = a ∧ y = next := by
    rintro x y ⟨c, hc, walk', hwalk'⟩
    rw [List.mem_singleton.1 hc, hwalk] at hwalk'
    have hlast := (List.append_inj' hwalk' rfl).2
    simp only [List.cons.injEq, and_true] at hlast
    exact ⟨hlast.1.symm, hlast.2.symm⟩
  unfold CycleSearch.record
  split
  · rename_i hlimit
    refine ⟨{ h with truncated := ?_, ordered := ?_ }, .refl s _, ?_⟩
    · exact fun _ => ⟨hlimit, _, hcycle, hother⟩
    · exact fun hhalt => absurd hhalt (by simp [halted])
    · exact fun hhalt => absurd hhalt (by simp [halted])
  · rename_i hlimit
    refine ⟨{ h with
        cycles := ?_
        lined := ?_
        distinct := ?_
        closedOnce := ?_
        within := ?_
        truncated := ?_
        ordered := ?_ }, ?_, ?_⟩
    · rintro c (_ | ⟨_, hc⟩)
      · exact hcycle
      · exact h.cycles c hc
    · rintro c (_ | ⟨_, hc⟩)
      · exact dropLast_sublist_of_mem hnext order
      · exact h.lined c hc
    · exact List.pairwise_cons.2 ⟨hother, h.distinct⟩
    · refine List.pairwise_cons.2 ⟨fun d hd x y hx hy => ?_, h.closedOnce⟩
      obtain ⟨rfl, rfl⟩ := hends hx
      exact hfresh (hy.of_mem hd)
    · rw [List.length_cons]
      omega
    · intro htrunc
      simp [halted, show s.truncated = true from htrunc] at hgoing
    · exact fun _ => (h.ordered hgoing).mono [_]
    · rintro x - y ⟨c, _ | ⟨_, hc⟩, hclosed⟩
      · exact Or.inr (hends ⟨_, List.mem_singleton_self _, hclosed⟩)
      · exact Or.inl ⟨c, hc, hclosed⟩
    · exact fun _ => ⟨_, List.mem_cons_self, walk, hwalk⟩

end Steps

/-! ## What was found stays -/

section Extends

variable {b : Bounds} {s t u : CycleSearch α}

/-- What a part of the search does as seen from before. -/
structure Extends (b : Bounds) (s t : CycleSearch α) : Prop where
  /-- It comes back to where it started. -/
  path : t.path = s.path
  /-- Cycles are only added. -/
  found : ∃ more, t.found = more ++ s.found
  /-- A search that is over does not go on. -/
  halted : s.halted b = true → t.halted b = true

theorem Extends.refl (s : CycleSearch α) : Extends b s s := ⟨rfl, ⟨[], rfl⟩, id⟩

theorem Extends.trans (hst : Extends b s t) (htu : Extends b t u) : Extends b s u := by
  obtain ⟨more, hmore⟩ := hst.found
  obtain ⟨further, hfurther⟩ := htu.found
  exact ⟨htu.path.trans hst.path, ⟨further ++ more, by rw [hfurther, hmore, List.append_assoc]⟩,
    htu.halted ∘ hst.halted⟩

theorem Extends.closes {x y : α} (h : Extends b s t) (hc : Closes s.found x y) :
    Closes t.found x y := by
  obtain ⟨more, hmore⟩ := h.found
  rw [hmore]
  exact hc.mono more

variable [DecidableEq α]

theorem extends_record (b : Bounds) (s : CycleSearch α) (a : α) : Extends b s (s.record b a) := by
  unfold CycleSearch.record
  split
  · exact ⟨rfl, ⟨[], rfl⟩, fun _ => by simp [halted]⟩
  · refine ⟨rfl, ⟨[_], rfl⟩, fun hhalt => ?_⟩
    unfold halted at hhalt ⊢
    cases htrunc : s.truncated <;> simp_all

section Visits

variable {visit' : CycleSearch α → α → CycleSearch α} (hvisit : ∀ s a, Extends b s (visit' s a))

include hvisit

theorem extends_follow (s : CycleSearch α) (next : α) : Extends b s (follow b visit' s next) := by
  unfold CycleSearch.follow
  split
  · exact .refl s
  split
  · exact hvisit s next
  split
  · exact extends_record b s next
  · exact .refl s

theorem extends_foldl_follow (todo : List α) (s : CycleSearch α) :
    Extends b s (todo.foldl (follow b visit') s) := by
  induction todo generalizing s with
  | nil => exact .refl s
  | cons next rest ih => exact (extends_follow hvisit s next).trans (ih _)

end Visits

/-- A visit comes back to where it started, and what was found before stays. -/
theorem extends_visit (g : Digraph α) (b : Bounds) (fuel : Nat) (s : CycleSearch α) (a : α) :
    Extends b s (visit g b fuel s a) := by
  induction fuel generalizing s a with
  | zero => exact .refl s
  | succ fuel ih =>
    obtain ⟨hpath, hfound, hhalted⟩ := extends_foldl_follow ih (g.successors a) (s.enter a)
    refine ⟨?_, hfound, hhalted⟩
    show List.tail (CycleSearch.path _) = s.path
    rw [hpath]
    rfl

end Extends

/-! ## The run -/

section Run

variable [DecidableEq α] {g : Digraph α} {b : Bounds}

/-- What a visit that starts at a new node does: it comes back with the node among those left, and
the edges from the path that close cycles are those from before. -/
def VisitsWith (g : Digraph α) (b : Bounds) (fuel : Nat) : Prop :=
  ∀ (order : List α) (s : CycleSearch α) (a : α), g.nodeCount ≤ (s.path ++ order).length + fuel →
    Inv g b order s → a ∈ g.nodes → a ∉ s.path ++ order → (∀ p ∈ s.path.head?, g.Leads p a) →
    ∃ more, Inv g b (more ++ order) (visit g b fuel s a) ∧
      ClosesOnly s (visit g b fuel s a) (fun _ _ => False) ∧ a ∈ more

/-- Following one edge from the end of the path: its target is left, or the edge closes a cycle, or
the search is over. -/
theorem VisitsWith.step (hg : g.WellFormed) {fuel : Nat} (hvisit : VisitsWith g b fuel)
    {order path : List α} {s : CycleSearch α} {a next : α}
    (hroom : g.nodeCount ≤ (s.path ++ order).length + fuel) (hinv : Inv g b order s)
    (hpath : s.path = a :: path) (hedge : g.Leads a next) (hfresh : ¬ Closes s.found a next) :
    ∃ more, Inv g b (more ++ order) (follow b (visit g b fuel) s next) ∧
      ClosesOnly s (follow b (visit g b fuel) s next) (fun x y => x = a ∧ y = next) ∧
      ((follow b (visit g b fuel) s next).halted b = false →
        next ∈ more ++ order ∨ Closes (follow b (visit g b fuel) s next).found a next) := by
  unfold CycleSearch.follow
  split
  · -- the search is over
    rename_i hhalt
    exact ⟨[], hinv, .refl s _, fun hgoing => absurd hhalt (by simp [hgoing])⟩
  rename_i hgoing
  rw [Bool.not_eq_true] at hgoing
  split
  · -- a new node
    rename_i hnew
    have hnot : next ∉ s.path ++ order := fun hin => by
      simp [(hinv.visited_iff next).2 hin] at hnew
    obtain ⟨more, hmore, honly, hmem⟩ := hvisit order s next hroom hinv
      (hg.leads_mem hedge).2 hnot (by rw [hpath]; rintro _ ⟨⟩; exact hedge)
    exact ⟨more, hmore, fun x hx y hc => (honly x hx y hc).imp id False.elim,
      fun _ => Or.inl (List.mem_append_left _ hmem)⟩
  split
  · -- a node of the path
    rename_i hnext
    obtain ⟨hrec, honly, hcloses⟩ := hinv.record hpath hedge hnext hfresh hgoing
    exact ⟨[], hrec, honly, fun h => Or.inr (hcloses h)⟩
  · -- a node that was left
    rename_i hold hnext
    have hin : next ∈ s.path ++ order := (hinv.visited_iff next).1 (by simpa using hold)
    exact ⟨[], hinv, .refl s _, fun _ => Or.inl ((List.mem_append.1 hin).resolve_left hnext)⟩

/-- Following edges from the end of the path one after the other. -/
theorem VisitsWith.scan (hg : g.WellFormed) {fuel : Nat} (hvisit : VisitsWith g b fuel) {a : α}
    {path : List α} (todo : List α) (hnodup : todo.Nodup) (htodo : ∀ y ∈ todo, g.Leads a y)
    (order : List α) (s : CycleSearch α) (hroom : g.nodeCount ≤ (s.path ++ order).length + fuel)
    (hinv : Inv g b order s) (hpath : s.path = a :: path)
    (hfresh : ∀ y ∈ todo, ¬ Closes s.found a y) :
    ∃ more, Inv g b (more ++ order) (todo.foldl (follow b (visit g b fuel)) s) ∧
      ClosesOnly s (todo.foldl (follow b (visit g b fuel)) s) (fun x y => x = a ∧ y ∈ todo) ∧
      ((todo.foldl (follow b (visit g b fuel)) s).halted b = false → ∀ y ∈ todo,
        y ∈ more ++ order ∨ Closes (todo.foldl (follow b (visit g b fuel)) s).found a y) := by
  induction todo generalizing order s with
  | nil => exact ⟨[], hinv, .refl s _, fun _ y hy => absurd hy List.not_mem_nil⟩
  | cons next rest ih =>
    obtain ⟨hnext, hrest⟩ := List.nodup_cons.1 hnodup
    have hext := extends_follow (extends_visit g b fuel) s next
    have hext' := extends_foldl_follow (extends_visit g b fuel) rest (follow b (visit g b fuel) s next)
    obtain ⟨more, hmore, honly, hleft⟩ := hvisit.step hg hroom hinv hpath
      (htodo next List.mem_cons_self) (hfresh next List.mem_cons_self)
    have hroom' : g.nodeCount ≤
        ((follow b (visit g b fuel) s next).path ++ (more ++ order)).length + fuel := by
      rw [hext.path]
      simp only [List.length_append] at hroom ⊢
      omega
    -- the edge to `next` may close a cycle by now, but no later one does
    have hfresh' : ∀ y ∈ rest, ¬ Closes (follow b (visit g b fuel) s next).found a y := by
      intro y hy hcloses
      rcases honly a (by simp [hpath]) y hcloses with hold | ⟨-, rfl⟩
      · exact hfresh y (List.mem_cons_of_mem _ hy) hold
      · exact hnext hy
    obtain ⟨further, hfurther, honly', hall⟩ := ih hrest
      (fun y hy => htodo y (List.mem_cons_of_mem _ hy)) (more ++ order) _ hroom' hmore
      (hext.path.trans hpath) hfresh'
    rw [List.foldl_cons]
    refine ⟨further ++ more, by rw [List.append_assoc]; exact hfurther, ?_, ?_⟩
    · intro x hx y hc
      refine (honly.trans hext.path honly' x hx y hc).imp id ?_
      rintro (⟨hxa, rfl⟩ | ⟨hxa, hy⟩)
      · exact ⟨hxa, List.mem_cons_self⟩
      · exact ⟨hxa, List.mem_cons_of_mem _ hy⟩
    · intro hgoing y hy
      rw [List.append_assoc]
      rcases List.mem_cons.1 hy with rfl | hy
      · have hbefore : (follow b (visit g b fuel) s y).halted b = false := by
          by_contra hhalt
          rw [Bool.not_eq_false] at hhalt
          simp [hext'.halted hhalt] at hgoing
        rcases hleft hbefore with hin | hcloses
        · exact Or.inl (List.mem_append_right _ hin)
        · exact Or.inr (hext'.closes hcloses)
      · exact hall hgoing y hy

variable [Std.TransOrd α] [Std.LawfulEqOrd α]

/-- Every visit does what it should, with fuel for the nodes that are not entered yet. -/
theorem visitsWith (hg : g.WellFormed) (b : Bounds) (fuel : Nat) : VisitsWith g b fuel := by
  induction fuel with
  | zero =>
    intro order s a hfuel hinv ha hnew _
    have := hinv.entered_lt ha hnew
    omega
  | succ fuel ih =>
    intro order s a hfuel hinv ha hnew hlead
    have hroom : g.nodeCount ≤ ((s.enter a).path ++ order).length + fuel := by
      show g.nodeCount ≤ (a :: (s.path ++ order)).length + fuel
      rw [List.length_cons]
      omega
    have hext := extends_foldl_follow (extends_visit g b fuel) (g.successors a) (s.enter a)
    obtain ⟨more, hmore, honly, hdone⟩ := ih.scan hg (g.successors a) (hg.successors_nodup a)
      (fun _ hy => hy) order _ hroom (hinv.enter ha hnew hlead) rfl
      (fun y _ hcloses => hnew (hinv.mem_of_closes hcloses))
    refine ⟨a :: more, hmore.leave hext.path hdone, ?_, List.mem_cons_self⟩
    -- only edges from `a` are new, and `a` was not on the path
    intro x hx y hc
    refine (honly x (List.mem_cons_of_mem a hx) y hc).imp id ?_
    rintro ⟨rfl, -⟩
    exact hnew (List.mem_append_left _ hx)

/-- The search from some nodes leaves them all, unless it is over before. -/
theorem run_nodes (hg : g.WellFormed) (todo : List α) (htodo : ∀ a ∈ todo, a ∈ g.nodes)
    (order : List α) (s : CycleSearch α) (hinv : Inv g b order s) (hpath : s.path = []) :
    ∃ order' s', todo.foldl (fun s a =>
        if s.halted b || s.visited.contains a then s else visit g b g.nodeCount s a) s = s' ∧
      Inv g b order' s' ∧ s'.path = [] ∧ order ⊆ order' ∧
      (s'.halted b = false → ∀ a ∈ todo, a ∈ order') := by
  induction todo generalizing order s with
  | nil =>
    exact ⟨order, s, rfl, hinv, hpath, fun _ h => h, fun _ _ ha => absurd ha List.not_mem_nil⟩
  | cons a rest ih =>
    have hrest : ∀ x ∈ rest, x ∈ g.nodes := fun x hx => htodo x (List.mem_cons_of_mem _ hx)
    rw [List.foldl_cons]
    by_cases hhalt : s.halted b = true
    · -- nothing happens any more
      have hstop : ∀ l : List α, l.foldl (fun s a =>
          if s.halted b || s.visited.contains a then s else visit g b g.nodeCount s a) s = s := by
        intro l
        induction l with
        | nil => rfl
        | cons x l ihl => rw [List.foldl_cons, if_pos (by rw [hhalt, Bool.true_or]), ihl]
      rw [if_pos (by rw [hhalt, Bool.true_or]), hstop]
      exact ⟨order, s, rfl, hinv, hpath, fun _ h => h, fun h => absurd hhalt (by simp [h])⟩
    by_cases hin : s.visited.contains a = true
    · rw [if_pos (by rw [hin, Bool.or_true])]
      obtain ⟨order', s', heq, hinv', hpath', hsub, hall⟩ := ih hrest order s hinv hpath
      refine ⟨order', s', heq, hinv', hpath', hsub, fun hgoing x hx => ?_⟩
      rcases List.mem_cons.1 hx with rfl | hx
      · have hx := (hinv.visited_iff x).1 hin
        rw [hpath] at hx
        exact hsub hx
      · exact hall hgoing x hx
    · rw [if_neg (by simp [hhalt, hin])]
      have hext := extends_visit g b g.nodeCount s a
      obtain ⟨more, hmore, -, hmem⟩ := visitsWith hg b g.nodeCount order s a
        (Nat.le_add_left _ _) hinv (htodo a List.mem_cons_self)
        (fun h => hin ((hinv.visited_iff a).2 h)) (by rw [hpath]; rintro _ ⟨⟩)
      obtain ⟨order', s', heq, hinv', hpath', hsub, hall⟩ :=
        ih hrest (more ++ order) _ hmore (hext.path.trans hpath)
      refine ⟨order', s', heq, hinv', hpath', fun x hx => hsub (List.mem_append_right _ hx),
        fun hgoing x hx => ?_⟩
      rcases List.mem_cons.1 hx with rfl | hx
      · exact hsub (List.mem_append_left _ hmem)
      · exact hall hgoing x hx

/-- The whole search leaves every node, unless it is over before. -/
theorem run_inv (hg : g.WellFormed) (b : Bounds) :
    ∃ order, Inv g b order (run g b) ∧ ((run g b).halted b = false → ∀ a ∈ g.nodes, a ∈ order) := by
  obtain ⟨order, s, heq, hinv, -, -, hall⟩ :=
    run_nodes hg g.nodes (fun _ ha => ha) [] start (inv_start g b) rfl
  have hrun : run g b = s := heq
  rw [hrun]
  exact ⟨order, hinv, hall⟩

/-- A search that is not over has met every cycle: without the closing edges of the cycles that it
found, no node comes back to itself. -/
theorem run_acyclic (hg : g.WellFormed) (hgoing : (run g b).halted b = false) (a : α) :
    ¬ TransGen (LeadsOpen g (run g b).found) a a := by
  intro hcycle
  obtain ⟨order, hinv, hall⟩ := run_inv hg b
  obtain ⟨y, hl, -⟩ := TransGen.head'_iff.1 hcycle
  have ha : a ∈ order := hall hgoing a (hg.leads_mem hl.1).1
  exact (hinv.ordered hgoing).acyclic (List.nodup_append.1 hinv.nodup).2.1 ha hcycle

theorem not_hasCycle_of_found_eq_nil (hg : g.WellFormed) (hgoing : (run g b).halted b = false)
    (hnil : (run g b).found = []) : ¬ g.HasCycle := by
  rintro ⟨a, hcycle⟩
  refine run_acyclic hg hgoing a (hcycle.lift id fun x y hl => ?_)
  rw [hnil]
  exact leadsOpen_nil hl

end Run

end CycleSearch

section Report

variable [Std.TransOrd α] [Std.LawfulEqOrd α] [DecidableEq α] {g : Digraph α}

/-- What is reported are cycles. -/
theorem WellFormed.isCycle_of_mem (hg : g.WellFormed) {limit : Nat} {c : List α}
    (h : c ∈ (g.findCycles limit).cycles) : g.IsCycle c := by
  obtain ⟨order, hinv, -⟩ := CycleSearch.run_inv hg { limit, firstOnly := false }
  exact hinv.cycles c (List.mem_reverse.1 h)

/-- No report is longer than its limit. -/
theorem WellFormed.length_cycles_le (hg : g.WellFormed) (limit : Nat) :
    (g.findCycles limit).cycles.length ≤ limit := by
  obtain ⟨order, hinv, -⟩ := CycleSearch.run_inv hg { limit, firstOnly := false }
  rw [show (g.findCycles limit).cycles = List.reverse _ from rfl, List.length_reverse]
  exact hinv.within

/-- A report that was cut short is full. -/
theorem WellFormed.limit_le_of_truncated (hg : g.WellFormed) {limit : Nat}
    (h : (g.findCycles limit).truncated = true) : limit ≤ (g.findCycles limit).cycles.length := by
  obtain ⟨order, hinv, -⟩ := CycleSearch.run_inv hg { limit, firstOnly := false }
  have hle := (hinv.truncated h).1
  rw [show (g.findCycles limit).cycles = List.reverse _ from rfl, List.length_reverse]
  exact hle

omit [Std.TransOrd α] [Std.LawfulEqOrd α] in
/-- A search for all cycles is over before its end only if it was cut short. -/
theorem halted_eq_false_of_not_truncated {limit : Nat} (h : (g.findCycles limit).truncated = false) :
    (CycleSearch.run g { limit, firstOnly := false }).halted { limit, firstOnly := false }
      = false := by
  simp [CycleSearch.halted, show (CycleSearch.run g _).truncated = false from h]

/-- The report is silent exactly if there is no cycle, whatever the limit. -/
theorem WellFormed.silent_iff (hg : g.WellFormed) (limit : Nat) :
    (g.findCycles limit).cycles = [] ∧ (g.findCycles limit).truncated = false ↔ ¬ g.HasCycle := by
  obtain ⟨order, hinv, -⟩ := CycleSearch.run_inv hg { limit, firstOnly := false }
  constructor
  · rintro ⟨hnil, htrunc⟩
    exact CycleSearch.not_hasCycle_of_found_eq_nil hg (halted_eq_false_of_not_truncated htrunc)
      (List.reverse_eq_nil_iff.1 hnil)
  · intro hno
    refine ⟨?_, ?_⟩
    · refine List.eq_nil_iff_forall_not_mem.2 fun c hc => ?_
      exact hno (hg.isCycle_of_mem hc).hasCycle
    · rw [← Bool.not_eq_true]
      intro htrunc
      obtain ⟨-, c, hcycle, -⟩ := hinv.truncated htrunc
      exact hno hcycle.hasCycle

/-- A cycle is reported exactly if there is one and the limit allows it. -/
theorem WellFormed.findCycles_ne_nil_iff (hg : g.WellFormed) (limit : Nat) :
    (g.findCycles limit).cycles ≠ [] ↔ 1 ≤ limit ∧ g.HasCycle := by
  constructor
  · intro hne
    obtain ⟨c, hc⟩ := List.exists_mem_of_ne_nil _ hne
    have hpos := List.length_pos_of_mem hc
    have hle := hg.length_cycles_le limit
    exact ⟨by omega, (hg.isCycle_of_mem hc).hasCycle⟩
  · rintro ⟨hlimit, hcycle⟩ hnil
    refine (hg.silent_iff limit).1 ⟨hnil, ?_⟩ hcycle
    rw [← Bool.not_eq_true]
    intro htrunc
    have hle := hg.limit_le_of_truncated htrunc
    rw [hnil, List.length_nil] at hle
    omega

end Report

end RoleAudit.Digraph
