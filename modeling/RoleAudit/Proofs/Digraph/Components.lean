import RoleAudit.Proofs.Digraph.Visit

/-!
# Components are the classes of mutual reachability

The component walk ends on every graph that grew by mentions, and its components are a partition of
the nodes into the classes of `Together`. Sorting by position turns each of them into the part of the
node list that belongs to the class, so components list their nodes in the order of their mention.
-/

namespace RoleAudit.Digraph

variable {α : Type} [Ord α] [Std.TransOrd α] [Std.LawfulEqOrd α] [DecidableEq α]

/-! ## Positions -/

theorem getD_foldl_positions (items : List α) (hnodup : items.Nodup) (start : Nat)
    (m : Std.TreeMap α Nat) (a : α) :
    ((items.zipIdx start).foldl (fun m (b, i) => m.insert b i) m).getD a 0
      = if a ∈ items then start + items.idxOf a else m.getD a 0 := by
  induction items generalizing start m with
  | nil => simp
  | cons b rest ih =>
    obtain ⟨hb, hrest⟩ := List.nodup_cons.1 hnodup
    rw [List.zipIdx_cons, List.foldl_cons, ih hrest]
    by_cases hab : a = b
    · subst hab
      simp [hb]
    · have hne : compare b a ≠ .eq := fun he => hab (Std.LawfulEqOrd.eq_of_compare he).symm
      by_cases hin : a ∈ rest
      · simp only [hin, if_true, List.mem_cons, or_true]
        rw [List.idxOf_cons_ne _ (Ne.symm hab)]
        omega
      · simp [hin, hab, Std.TreeMap.getD_insert, hne]

theorem WellFormed.getD_positions {g : Digraph α} (hg : g.WellFormed) {a : α} (ha : a ∈ g.nodes) :
    g.positions.getD a 0 = g.nodes.idxOf a := by
  have h := getD_foldl_positions g.nodes hg.nodup 0 .empty a
  rw [if_pos ha, Nat.zero_add] at h
  exact h

omit [Ord α] [Std.TransOrd α] [Std.LawfulEqOrd α] in
theorem pairwise_idxOf {items : List α} (hnodup : items.Nodup) :
    items.Pairwise fun a b => items.idxOf a ≤ items.idxOf b := by
  refine List.pairwise_iff_getElem.2 fun i j hi hj hij => ?_
  rw [hnodup.idxOf_getElem i hi, hnodup.idxOf_getElem j hj]
  omega

omit [Ord α] [Std.TransOrd α] [Std.LawfulEqOrd α] in
/-- Two lists of the same items, both in the order of a third list, are the same. -/
theorem eq_of_perm_of_ordered {items c d : List α} (hsub : c ⊆ items)
    (hc : c.Pairwise fun a b => items.idxOf a ≤ items.idxOf b)
    (hd : d.Pairwise fun a b => items.idxOf a ≤ items.idxOf b) (hperm : c.Perm d) : c = d := by
  refine hperm.eq_of_pairwise (fun a b ha _ hab hba => ?_) hc hd
  exact (List.idxOf_inj (hsub ha)).1 (Nat.le_antisymm hab hba)

/-- Sorting nodes by position gives the part of the node list that they are. -/
theorem WellFormed.mergeSort_positions {g : Digraph α} (hg : g.WellFormed) {c : List α}
    (hnodup : c.Nodup) (hsub : ∀ a ∈ c, a ∈ g.nodes) :
    c.mergeSort (fun a b => g.positions.getD a 0 ≤ g.positions.getD b 0)
      = g.nodes.filter (· ∈ c) := by
  have hsort := List.mergeSort_perm c fun a b => g.positions.getD a 0 ≤ g.positions.getD b 0
  have hperm : c.Perm (g.nodes.filter (· ∈ c)) := by
    refine (List.perm_ext_iff_of_nodup hnodup (hg.nodup.filter _)).2 fun a => ?_
    simp only [List.mem_filter, decide_eq_true_eq]
    exact ⟨fun ha => ⟨hsub a ha, ha⟩, fun ha => ha.2⟩
  refine eq_of_perm_of_ordered (fun a ha => hsub a (hsort.subset ha)) ?_
    ((pairwise_idxOf hg.nodup).sublist List.filter_sublist) (hsort.trans hperm)
  have hsorted : (c.mergeSort fun a b => g.positions.getD a 0 ≤ g.positions.getD b 0).Pairwise
      fun a b => decide (g.positions.getD a 0 ≤ g.positions.getD b 0) = true := by
    apply List.pairwise_mergeSort
    · simp only [decide_eq_true_eq]
      omega
    · simp only [Bool.or_eq_true, decide_eq_true_eq]
      omega
  refine hsorted.imp_of_mem fun {a b} ha hb hle => ?_
  rw [decide_eq_true_eq, hg.getD_positions (hsub a (hsort.subset ha)),
    hg.getD_positions (hsub b (hsort.subset hb))] at hle
  exact hle

/-! ## All components -/

section Partition

variable {g : Digraph α} (hg : g.WellFormed)

include hg

/-- A component that the walk found has nodes of the graph only, each once. -/
theorem WellFormed.found_nodup {c : List α} (hc : c ∈ (Walk.run g).found) :
    c.Nodup ∧ ∀ a ∈ c, a ∈ g.nodes := by
  have hperm := Walk.flatten_found_perm hg
  have hnodup : (Walk.run g).found.flatten.Nodup := hperm.nodup_iff.2 hg.nodup
  exact ⟨(List.nodup_flatten.1 hnodup).1 c hc,
    fun a ha => hperm.subset (List.mem_flatten.2 ⟨c, hc, ha⟩)⟩

theorem WellFormed.allComponents_eq :
    g.allComponents = (Walk.run g).found.reverse.map fun c => g.nodes.filter (· ∈ c) := by
  unfold allComponents
  refine List.map_congr_left fun c hc => ?_
  obtain ⟨hnodup, hsub⟩ := hg.found_nodup (List.mem_reverse.1 hc)
  exact hg.mergeSort_positions hnodup hsub

/-- The components have the nodes that the walk found. -/
theorem WellFormed.mem_allComponents {c : List α} :
    c ∈ g.allComponents ↔ ∃ d ∈ (Walk.run g).found, c = g.nodes.filter (· ∈ d) := by
  rw [hg.allComponents_eq]
  simp only [List.mem_map, List.mem_reverse, eq_comm]

theorem WellFormed.flatten_allComponents_perm : g.allComponents.flatten.Perm g.nodes := by
  refine List.Perm.trans ?_ (Walk.flatten_found_perm hg)
  rw [hg.allComponents_eq]
  have hmap : (((Walk.run g).found.map fun c => g.nodes.filter (· ∈ c)).flatten).Perm
      (Walk.run g).found.flatten := by
    rw [← List.flatMap_def, ← List.flatMap_id']
    refine List.Perm.flatMap_left _ fun c hc => ?_
    obtain ⟨hnodup, hsub⟩ := hg.found_nodup hc
    refine (List.perm_ext_iff_of_nodup (hg.nodup.filter _) hnodup).2 fun a => ?_
    simp only [List.mem_filter, decide_eq_true_eq]
    exact ⟨fun ha => ha.2, fun ha => ⟨hsub a ha, ha⟩⟩
  exact (List.Perm.flatten ((List.reverse_perm _).map _)).trans hmap

/-- A component is the class of each of its nodes. -/
theorem WellFormed.mem_component_iff {c : List α} (hc : c ∈ g.allComponents) {a : α} (ha : a ∈ c)
    (b : α) : b ∈ c ↔ g.Together a b := by
  obtain ⟨d, hd, rfl⟩ := hg.mem_allComponents.1 hc
  obtain ⟨hinv, -⟩ := Walk.run_inv hg
  simp only [List.mem_filter, decide_eq_true_eq] at ha ⊢
  rw [← hinv.settled.isClass hd ha.2 b]
  exact ⟨fun hb => hb.2, fun hb => ⟨(hg.found_nodup hd).2 b hb, hb⟩⟩

theorem WellFormed.exists_component {a : α} (ha : a ∈ g.nodes) : ∃ c ∈ g.allComponents, a ∈ c :=
  List.mem_flatten.1 (hg.flatten_allComponents_perm.symm.subset ha)

theorem WellFormed.component_ne_nil {c : List α} (hc : c ∈ g.allComponents) : c ≠ [] := by
  obtain ⟨d, hd, rfl⟩ := hg.mem_allComponents.1 hc
  obtain ⟨hinv, -⟩ := Walk.run_inv hg
  obtain ⟨a, ha⟩ := List.exists_mem_of_ne_nil d (hinv.settled.ne_nil hd)
  exact List.ne_nil_of_mem
    (List.mem_filter.2 ⟨(hg.found_nodup hd).2 a ha, decide_eq_true ha⟩)

theorem WellFormed.component_sublist {c : List α} (hc : c ∈ g.allComponents) :
    c.Sublist g.nodes := by
  obtain ⟨d, -, rfl⟩ := hg.mem_allComponents.1 hc
  exact List.filter_sublist

theorem WellFormed.allComponents_nodup : g.allComponents.Nodup := by
  have hnodup : g.allComponents.flatten.Nodup :=
    hg.flatten_allComponents_perm.nodup_iff.2 hg.nodup
  refine (List.nodup_flatten.1 hnodup).2.imp_of_mem fun {c d} hc _ hdisj heq => ?_
  subst heq
  obtain ⟨a, ha⟩ := List.exists_mem_of_ne_nil c (hg.component_ne_nil hc)
  exact hdisj ha ha

/-- Two nodes are in one component exactly when each can be reached from the other. -/
theorem WellFormed.same_component_iff {a b : α} (ha : a ∈ g.nodes) :
    (∃ c ∈ g.allComponents, a ∈ c ∧ b ∈ c) ↔ g.Together a b := by
  constructor
  · rintro ⟨c, hc, hac, hbc⟩
    exact (hg.mem_component_iff hc hac b).1 hbc
  · intro htog
    obtain ⟨c, hc, hac⟩ := hg.exists_component ha
    exact ⟨c, hc, hac, (hg.mem_component_iff hc hac b).2 htog⟩

omit [Std.TransOrd α] [Std.LawfulEqOrd α] [DecidableEq α] in
/-- A class of mutual reachability is one part of the node list. -/
theorem WellFormed.eq_of_class {c d : List α} (hc : c.Sublist g.nodes) (hd : d.Sublist g.nodes)
    {a : α} (hclass : ∀ b, b ∈ c ↔ g.Together a b) (hclass' : ∀ b, b ∈ d ↔ g.Together a b) :
    c = d := by
  refine (hg.nodup.perm_iff_eq_of_sublist hc hd).1 ?_
  refine (List.perm_ext_iff_of_nodup (hc.nodup hg.nodup) (hd.nodup hg.nodup)).2 fun b => ?_
  rw [hclass b, hclass' b]

/-- The reported components are the classes of two or more nodes, in node order. -/
theorem WellFormed.mem_components_iff {c : List α} :
    c ∈ g.components ↔
      2 ≤ c.length ∧ c.Sublist g.nodes ∧ ∃ a ∈ c, ∀ b, b ∈ c ↔ g.Together a b := by
  rw [components, List.mem_filter, decide_eq_true_eq, and_comm]
  refine and_congr_right fun _ => ⟨fun hc => ?_, ?_⟩
  · obtain ⟨a, ha⟩ := List.exists_mem_of_ne_nil c (hg.component_ne_nil hc)
    exact ⟨hg.component_sublist hc, a, ha, hg.mem_component_iff hc ha⟩
  · rintro ⟨hsub, a, ha, hclass⟩
    obtain ⟨d, hd, had⟩ := hg.exists_component (hsub.subset ha)
    rw [hg.eq_of_class hsub (hg.component_sublist hd) hclass (hg.mem_component_iff hd had)]
    exact hd

/-- Two different nodes that belong together are in a component that is reported. -/
theorem WellFormed.exists_mem_components {a b : α} (hab : a ≠ b) (htog : g.Together a b) :
    ∃ c ∈ g.components, a ∈ c ∧ b ∈ c := by
  have ha : a ∈ g.nodes := by
    rcases Relation.ReflTransGen.cases_head htog.1 with heq | ⟨x, hl, -⟩
    · exact absurd heq hab
    · exact (hg.leads_mem hl).1
  obtain ⟨c, hc, hac⟩ := hg.exists_component ha
  have hbc := (hg.mem_component_iff hc hac b).2 htog
  have hpair : [a, b] ⊆ c := by
    intro x hx
    rcases List.mem_cons.1 hx with rfl | hx
    · exact hac
    · rw [List.mem_singleton] at hx
      exact hx ▸ hbc
  have hlen : 2 ≤ c.length :=
    (List.subperm_of_subset (List.nodup_cons.2 ⟨by simpa using hab, List.nodup_singleton b⟩)
      hpair).length_le
  exact ⟨c, List.mem_filter.2 ⟨hc, decide_eq_true hlen⟩, hac, hbc⟩

/-- A reported component has two different nodes. -/
theorem WellFormed.exists_ne_of_mem_components {c : List α} (hc : c ∈ g.components) :
    ∃ a ∈ c, ∃ b ∈ c, a ≠ b := by
  obtain ⟨hlen, hsub, -⟩ := hg.mem_components_iff.1 hc
  have hnodup : c.Nodup := hsub.nodup hg.nodup
  match c, hlen, hnodup with
  | a :: b :: rest, _, hnodup =>
    have hab : a ≠ b := fun he => (List.nodup_cons.1 hnodup).1 (he ▸ List.mem_cons_self)
    exact ⟨a, List.mem_cons_self, b, List.mem_cons_of_mem _ List.mem_cons_self, hab⟩

/-- The nodes of a reported component belong together with each of them and with no other. -/
theorem WellFormed.mem_iff_together {c : List α} (hc : c ∈ g.components) {a : α} (ha : a ∈ c)
    (b : α) : b ∈ c ↔ g.Together a b :=
  hg.mem_component_iff (List.mem_filter.1 hc).1 ha b

/-- In a reported component every node leads to one of it. -/
theorem WellFormed.exists_leads_of_mem_components {c : List α} (hc : c ∈ g.components) {a : α}
    (ha : a ∈ c) : ∃ b ∈ c, g.Leads a b := by
  obtain ⟨x, hx, y, hy, hxy⟩ := hg.exists_ne_of_mem_components hc
  obtain ⟨z, hz, haz⟩ : ∃ z ∈ c, a ≠ z := by
    by_cases hax : a = x
    · exact ⟨y, hy, hax ▸ hxy⟩
    · exact ⟨x, hx, hax⟩
  obtain ⟨hto, hback⟩ := (hg.mem_iff_together hc ha z).1 hz
  rcases Relation.ReflTransGen.cases_head hto with heq | ⟨b, hl, hrest⟩
  · exact absurd heq haz
  · exact ⟨b, (hg.mem_iff_together hc ha b).2 ⟨.single hl, hrest.trans hback⟩, hl⟩

/-- There is a component to report exactly when two different nodes belong together. -/
theorem WellFormed.components_ne_nil_iff :
    g.components ≠ [] ↔ ∃ a b, a ≠ b ∧ g.Together a b := by
  constructor
  · intro hne
    obtain ⟨c, hc⟩ := List.exists_mem_of_ne_nil _ hne
    obtain ⟨a, ha, b, hb, hab⟩ := hg.exists_ne_of_mem_components hc
    exact ⟨a, b, hab, (hg.mem_iff_together hc ha b).1 hb⟩
  · rintro ⟨a, b, hab, htog⟩
    obtain ⟨c, hc, -⟩ := hg.exists_mem_components hab htog
    exact List.ne_nil_of_mem hc

/-- As sets, the reported components are different from each other. -/
theorem WellFormed.nodup_setOf_components :
    (g.components.map fun c => {a | a ∈ c}).Nodup := by
  refine (hg.allComponents_nodup.filter _).map_on fun c hc d hd heq => ?_
  obtain ⟨a, ha, -⟩ := hg.exists_ne_of_mem_components hc
  have had : a ∈ d := (Set.ext_iff.1 heq a).1 ha
  exact hg.eq_of_class (hg.mem_components_iff.1 hc).2.1 (hg.mem_components_iff.1 hd).2.1
    (hg.mem_iff_together hc ha) (hg.mem_iff_together hd had)

/-- As sets, the reported components are the classes with more than one node. -/
theorem WellFormed.mem_setOf_components_iff {s : Set α} :
    s ∈ g.components.map (fun c => {a | a ∈ c}) ↔ s.Nontrivial ∧ ∃ a, s = {b | g.Together a b} := by
  constructor
  · intro hs
    obtain ⟨c, hc, rfl⟩ := List.mem_map.1 hs
    obtain ⟨a, ha, b, hb, hab⟩ := hg.exists_ne_of_mem_components hc
    exact ⟨⟨a, ha, b, hb, hab⟩, a, Set.ext (hg.mem_iff_together hc ha)⟩
  · rintro ⟨⟨b, hb, d, hd, hne⟩, a, rfl⟩
    have hab : g.Together a b := hb
    have had : g.Together a d := hd
    obtain ⟨c, hc, hbc, -⟩ := hg.exists_mem_components hne (hab.symm.trans had)
    have hac : a ∈ c := (hg.mem_iff_together hc hbc a).2 hab.symm
    exact List.mem_map.2 ⟨c, hc, Set.ext (hg.mem_iff_together hc hac)⟩

end Partition

/-! ## Graphs of any mentions -/

/-- The component walk ends, and its components are the classes of mutual reachability. For a graph
of any mentions: fuel for every node is enough; every node is in one component, and there once; two
nodes share a component exactly when each reaches the other; the reported components are, without
repeats, the classes of two or more nodes in node order, and a node that belongs together with itself
alone is in none of them. -/
theorem allComponents_partition (mentions : List (Mention α)) :
    let g := ofMentions mentions
    (∀ fuel, g.nodeCount ≤ fuel → Walk.runWith g fuel = Walk.run g) ∧
    (∀ a, g.allComponents.flatten.count a = if a ∈ g.nodes then 1 else 0) ∧
    (∀ c ∈ g.allComponents, c ≠ []) ∧
    (∀ a ∈ g.nodes, ∀ b ∈ g.nodes,
      (∃ c ∈ g.allComponents, a ∈ c ∧ b ∈ c) ↔ g.Reaches a b ∧ g.Reaches b a) ∧
    g.components.Nodup ∧
    (∀ c, c ∈ g.components ↔ 2 ≤ c.length ∧ c.Sublist g.nodes ∧
      ∃ a ∈ c, ∀ b, b ∈ c ↔ g.Reaches a b ∧ g.Reaches b a) ∧
    (∀ a, (∀ b, g.Reaches a b ∧ g.Reaches b a → b = a) → ∀ c ∈ g.components, a ∉ c) := by
  intro g
  have hg : g.WellFormed := wellFormed_ofMentions mentions
  refine ⟨fun fuel hfuel => Walk.runWith_eq_run hg hfuel, fun a => ?_,
    fun c hc => hg.component_ne_nil hc, fun a ha b _ => hg.same_component_iff ha,
    hg.allComponents_nodup.filter _, fun c => hg.mem_components_iff, ?_⟩
  · rw [hg.flatten_allComponents_perm.count_eq]
    split
    · rename_i ha
      exact List.count_eq_one_of_mem hg.nodup ha
    · rename_i ha
      exact List.count_eq_zero.2 ha
  · -- a component with `a` would have no other node, but it has two
    intro a halone c hc hac
    obtain ⟨hlen, hsub, x, hx, hclass⟩ := hg.mem_components_iff.1 hc
    have hxa := (hclass a).1 hac
    have hall : ∀ b ∈ c, b = a := fun b hb => halone b (hxa.symm.trans ((hclass b).1 hb))
    have hone : c ⊆ [a] := fun b hb => by simp [hall b hb]
    have := (List.subperm_of_subset (hsub.nodup hg.nodup) hone).length_le
    rw [List.length_singleton] at this
    omega

/-- Two nodes in a ring, an edge from it to a node with an edge to itself, and a node alone. -/
theorem components_of_ring :
    let g := ofMentions [Mention.edge 1 2, .edge 2 1, .edge 2 3, .edge 3 3, .node (4 : Nat)]
    (∀ a ∈ g.nodes, ∀ b ∈ g.nodes,
      (∃ c ∈ g.allComponents, a ∈ c ∧ b ∈ c) ↔ g.Reaches a b ∧ g.Reaches b a) ∧
    (∀ c, c ∈ g.components ↔ 2 ≤ c.length ∧ c.Sublist g.nodes ∧
      ∃ a ∈ c, ∀ b, b ∈ c ↔ g.Reaches a b ∧ g.Reaches b a) := by
  obtain ⟨-, -, -, hsame, -, hreported, -⟩ := allComponents_partition
    [Mention.edge 1 2, .edge 2 1, .edge 2 3, .edge 3 3, .node (4 : Nat)]
  exact ⟨hsame, hreported⟩

end RoleAudit.Digraph
