import RoleAudit.Proofs.Digraph.Components

/-!
# The nodes that represent components

Every node is represented by the first node of its component, in the order in which the nodes were
mentioned. A component lists its nodes in that order, so its head is the first node of the graph that
belongs together with any of them. The mapping to first nodes knows all nodes and no others, since the
components are a partition of the nodes.
-/

namespace RoleAudit.Digraph

variable {α : Type} [Ord α]

/-! ## The first node of a class -/

/-- Of the nodes that belong together with a node, the one that an order has first. -/
structure IsFirstOf (g : Digraph α) (order : List α) (a first : α) : Prop where
  /-- It belongs together with the node. -/
  together : g.Together a first
  /-- No node before it does. -/
  earliest : ∃ before after, order = before ++ first :: after ∧ ∀ b ∈ before, ¬ g.Together a b

theorem IsFirstOf.mem {g : Digraph α} {order : List α} {a first : α}
    (h : g.IsFirstOf order a first) : first ∈ order := by
  obtain ⟨before, after, rfl, -⟩ := h.earliest
  simp

/-- Nodes that belong together have the same first node. -/
theorem IsFirstOf.of_together {g : Digraph α} {order : List α} {a b first : α}
    (h : g.IsFirstOf order a first) (hab : g.Together a b) : g.IsFirstOf order b first := by
  obtain ⟨before, after, hsplit, hbefore⟩ := h.earliest
  exact ⟨hab.symm.trans h.together, before, after, hsplit,
    fun c hc hbc => hbefore c hc (hab.trans hbc)⟩

variable [DecidableEq α]

/-- Looking for a class finds the first of its nodes. -/
theorem find?_eq_some_iff_isFirstOf {g : Digraph α} {c order : List α} {a first : α}
    (hclass : ∀ b, b ∈ c ↔ g.Together a b) :
    order.find? (· ∈ c) = some first ↔ g.IsFirstOf order a first := by
  simp only [List.find?_eq_some_iff_append, decide_eq_true_eq, Bool.not_eq_true',
    decide_eq_false_iff_not, hclass]
  exact ⟨fun ⟨htogether, hearliest⟩ => ⟨htogether, hearliest⟩,
    fun ⟨htogether, hearliest⟩ => ⟨htogether, hearliest⟩⟩

variable [Std.TransOrd α] [Std.LawfulEqOrd α]

/-! ## The mapping -/

omit [DecidableEq α] in
/-- Of lists without common items, each item finds the first of its list. -/
theorem get?_foldl_firsts {components : List (List α)} (hnodup : components.flatten.Nodup)
    (m : Std.TreeMap α α) (a : α) :
    (∀ c ∈ components, a ∈ c → (components.foldl (fun m component =>
      match component with
      | [] => m
      | first :: _ => component.foldl (fun m a => m.insert a first) m) m).get? a = c.head?) ∧
    (a ∉ components.flatten → (components.foldl (fun m component =>
      match component with
      | [] => m
      | first :: _ => component.foldl (fun m a => m.insert a first) m) m).get? a = m.get? a) := by
  induction components generalizing m with
  | nil => exact ⟨fun c hc => absurd hc List.not_mem_nil, fun _ => rfl⟩
  | cons d rest ih =>
    rw [List.flatten_cons] at hnodup
    have hrest := (List.nodup_append.1 hnodup).2.1
    match d with
    | [] =>
      obtain ⟨hmem, hnot⟩ := ih hrest m
      refine ⟨fun c hc ha => ?_, hnot⟩
      rcases List.mem_cons.1 hc with rfl | hc
      · exact absurd ha List.not_mem_nil
      · exact hmem c hc ha
    | first :: others =>
      obtain ⟨hmem, hnot⟩ := ih hrest ((first :: others).foldl (fun m a => m.insert a first) m)
      obtain ⟨hin, hout⟩ := Walk.get?_foldl_insert (first :: others) first m a
      refine ⟨fun c hc ha => ?_, fun ha => ?_⟩
      · rcases List.mem_cons.1 hc with rfl | hc
        · -- no later list has `a`, so the entry of its own list stays
          have hlater : a ∉ rest.flatten := fun hr => (List.nodup_append.1 hnodup).2.2 a ha a hr rfl
          exact (hnot hlater).trans (hin ha)
        · exact hmem c hc ha
      · rw [List.flatten_cons, List.mem_append, not_or] at ha
        exact (hnot ha.2).trans (hout ha.1)

section WellFormed

variable {g : Digraph α} (hg : g.WellFormed)

include hg

/-- A node is mapped to the first one that is found of its class. -/
theorem WellFormed.exists_class {a : α} (ha : a ∈ g.nodes) :
    ∃ c : List α, (∀ b, b ∈ c ↔ g.Together a b) ∧
      g.representatives.get? a = g.nodes.find? (· ∈ c) := by
  obtain ⟨hinv, -⟩ := Walk.run_inv hg
  have hnodup := hg.flatten_allComponents_perm.nodup_iff.2 hg.nodup
  obtain ⟨c, hc, hac⟩ := hg.exists_component ha
  obtain ⟨d, hd, rfl⟩ := hg.mem_allComponents.1 hc
  have had : a ∈ d := of_decide_eq_true (List.mem_filter.1 hac).2
  refine ⟨d, hinv.settled.isClass hd had, ?_⟩
  rw [← List.head?_filter]
  exact (get?_foldl_firsts hnodup .empty a).1 _ hc hac

/-- Only nodes of the graph are mapped. -/
theorem WellFormed.get?_representatives_of_not_mem {a : α} (ha : a ∉ g.nodes) :
    g.representatives.get? a = none := by
  have hnodup := hg.flatten_allComponents_perm.nodup_iff.2 hg.nodup
  have hflat : a ∉ g.allComponents.flatten := fun hin =>
    ha (hg.flatten_allComponents_perm.subset hin)
  exact ((get?_foldl_firsts hnodup .empty a).2 hflat).trans rfl

/-- The mapping knows the nodes of the graph, and gives the first node of the class of each. -/
theorem WellFormed.get?_representatives_eq_some {a first : α} :
    g.representatives.get? a = some first ↔ a ∈ g.nodes ∧ g.IsFirstOf g.nodes a first := by
  by_cases ha : a ∈ g.nodes
  · obtain ⟨c, hclass, hget⟩ := hg.exists_class ha
    rw [hget, find?_eq_some_iff_isFirstOf hclass, and_iff_right ha]
  · rw [hg.get?_representatives_of_not_mem ha]
    simp [ha]

/-- Every node is mapped, and to the node that represents it. -/
theorem WellFormed.get?_representatives {a : α} (ha : a ∈ g.nodes) :
    g.representatives.get? a = some (g.representative a) := by
  obtain ⟨c, hclass, hget⟩ := hg.exists_class ha
  have hself : a ∈ c := (hclass a).2 (.refl g a)
  have hsome : (g.nodes.find? (· ∈ c)).isSome = true :=
    List.find?_isSome.2 ⟨a, ha, decide_eq_true hself⟩
  obtain ⟨first, hfirst⟩ := Option.isSome_iff_exists.1 hsome
  rw [representative, Std.TreeMap.getD_eq_getD_getElem?, ← Std.TreeMap.get?_eq_getElem?, hget, hfirst,
    Option.getD_some]

/-- A node is represented by the first node of its class. -/
theorem WellFormed.isFirstOf_representative {a : α} (ha : a ∈ g.nodes) :
    g.IsFirstOf g.nodes a (g.representative a) :=
  (hg.get?_representatives_eq_some.1 (hg.get?_representatives ha)).2

/-- A node belongs together with the one that represents it. -/
theorem WellFormed.together_representative {a : α} (ha : a ∈ g.nodes) :
    g.Together a (g.representative a) :=
  (hg.isFirstOf_representative ha).together

theorem WellFormed.representative_mem {a : α} (ha : a ∈ g.nodes) : g.representative a ∈ g.nodes :=
  (hg.isFirstOf_representative ha).mem

/-- Two nodes have the same first node exactly if they belong together. -/
theorem WellFormed.get?_representatives_eq_iff {a b : α} (ha : a ∈ g.nodes) (hb : b ∈ g.nodes) :
    g.representatives.get? a = g.representatives.get? b ↔ g.Together a b := by
  have hfirst := hg.isFirstOf_representative ha
  rw [hg.get?_representatives ha, eq_comm, hg.get?_representatives_eq_some, and_iff_right hb]
  exact ⟨fun hfirst' => hfirst.together.trans hfirst'.together.symm, hfirst.of_together⟩

theorem WellFormed.representative_eq_iff {a b : α} (ha : a ∈ g.nodes) (hb : b ∈ g.nodes) :
    g.representative a = g.representative b ↔ g.Together a b := by
  rw [← hg.get?_representatives_eq_iff ha hb, hg.get?_representatives ha, hg.get?_representatives hb,
    Option.some_inj]

/-- A first node stands for itself. -/
theorem WellFormed.get?_representatives_first {a first : α}
    (h : g.representatives.get? a = some first) : g.representatives.get? first = some first := by
  obtain ⟨-, hfirst⟩ := hg.get?_representatives_eq_some.1 h
  exact hg.get?_representatives_eq_some.2 ⟨hfirst.mem, hfirst.of_together hfirst.together⟩

/-- A node outside of the components with two or more nodes stands for itself. -/
theorem WellFormed.get?_representatives_self {a : α} (ha : a ∈ g.nodes)
    (halone : ∀ c ∈ g.components, a ∉ c) : g.representatives.get? a = some a := by
  rw [hg.get?_representatives ha, Option.some_inj]
  by_contra hne
  obtain ⟨c, hc, hac, -⟩ := hg.exists_mem_components (Ne.symm hne) (hg.together_representative ha)
  exact halone c hc hac

/-- The mapping written out has the nodes with their first nodes, and nothing else. -/
theorem WellFormed.mem_componentMapping {a first : α} :
    (a, first) ∈ g.componentMapping ↔ g.representatives.get? a = some first := by
  rw [show g.componentMapping = g.nodes.map fun a => (a, g.representative a) from rfl]
  simp only [List.mem_map, Prod.mk.injEq]
  constructor
  · rintro ⟨_, ha, rfl, rfl⟩
    exact hg.get?_representatives ha
  · intro hget
    have ha := (hg.get?_representatives_eq_some.1 hget).1
    exact ⟨a, ha, rfl, Option.some.inj ((hg.get?_representatives ha).symm.trans hget)⟩

end WellFormed

/-- In the order of the nodes and in that of the mentions a class has the same first node. -/
theorem isFirstOf_nodes_iff {mentions : List (Mention α)} {a first : α}
    (ha : a ∈ (ofMentions mentions).nodes) :
    (ofMentions mentions).IsFirstOf (ofMentions mentions).nodes a first ↔
      (ofMentions mentions).IsFirstOf (mentions.flatMap Mention.names) a first := by
  obtain ⟨c, hclass, -⟩ := (wellFormed_ofMentions mentions).exists_class ha
  rw [← find?_eq_some_iff_isFirstOf hclass, ← find?_eq_some_iff_isFirstOf hclass,
    nodes_ofMentions, find?_distinct]

/-- Every node is represented by the first of its class. For a graph of any mentions: the mapping
knows exactly the nodes; it gives a node the one that was mentioned first of all that belong together
with it; what it gives stands for itself; two nodes are given the same exactly if each reaches the
other; and a node that is in no component of two or more nodes stands for itself. Written out, the
mapping has these pairs and no others. -/
theorem representatives_are_first (mentions : List (Mention α)) :
    let g := ofMentions mentions
    (∀ a, g.representatives.contains a = true ↔ a ∈ g.nodes) ∧
    (∀ a ∈ g.nodes, ∀ first, g.representatives.get? a = some first ↔
      g.IsFirstOf (mentions.flatMap Mention.names) a first) ∧
    (∀ a first, g.representatives.get? a = some first →
      g.representatives.get? first = some first) ∧
    (∀ a ∈ g.nodes, ∀ b ∈ g.nodes, g.representatives.get? a = g.representatives.get? b ↔
      g.Reaches a b ∧ g.Reaches b a) ∧
    (∀ a ∈ g.nodes, (∀ c ∈ g.components, a ∉ c) → g.representatives.get? a = some a) ∧
    ∀ a first, (a, first) ∈ g.componentMapping ↔ g.representatives.get? a = some first := by
  intro g
  have hg : g.WellFormed := wellFormed_ofMentions mentions
  refine ⟨fun a => ?_, fun a ha first => ?_, fun _ _ => hg.get?_representatives_first,
    fun _ ha _ hb => hg.get?_representatives_eq_iff ha hb,
    fun _ ha => hg.get?_representatives_self ha, fun _ _ => hg.mem_componentMapping⟩
  · rw [Std.TreeMap.contains_eq_isSome_getElem?, ← Std.TreeMap.get?_eq_getElem?,
      Option.isSome_iff_exists]
    exact ⟨fun ⟨_, hget⟩ => (hg.get?_representatives_eq_some.1 hget).1,
      fun ha => ⟨_, hg.get?_representatives ha⟩⟩
  · rw [hg.get?_representatives_eq_some, and_iff_right ha, isFirstOf_nodes_iff ha]

/-- A node, then two nodes in a ring with it, and a node with an edge to itself. -/
def lateRing : List (Mention Nat) := [.node 5, .edge 1 2, .edge 2 5, .edge 5 1, .edge 2 3, .edge 3 3]

/-- The ring is represented by the node that was mentioned before its edges, and the node that only
leads to itself stands for itself. -/
theorem representatives_of_late_ring :
    let g := ofMentions lateRing
    g.representatives.get? 2 = some 5 ∧ g.IsFirstOf [5, 1, 2, 2, 5, 5, 1, 2, 3, 3, 3] 2 5 ∧
      g.representatives.get? 5 = some 5 ∧ (g.Reaches 1 2 ∧ g.Reaches 2 1) ∧
      g.representatives.get? 3 = some 3 ∧ (2, 5) ∈ g.componentMapping := by
  have hnodes : (ofMentions lateRing).nodes = [5, 1, 2, 3] := by cbv
  have hcomponents : (ofMentions lateRing).components = [[5, 1, 2]] := by cbv
  have hone : (ofMentions lateRing).representatives.get? 1 = some 5 := by cbv
  have htwo : (ofMentions lateRing).representatives.get? 2 = some 5 := by cbv
  obtain ⟨-, hfirst, hagain, hsame, halone, hlisted⟩ := representatives_are_first lateRing
  exact ⟨htwo, (hfirst 2 (by simp [hnodes]) 5).1 htwo, hagain 2 5 htwo,
    (hsame 1 (by simp [hnodes]) 2 (by simp [hnodes])).1 (hone.trans htwo.symm),
    halone 3 (by simp [hnodes]) (by simp [hcomponents]), (hlisted 2 5).2 htwo⟩

end RoleAudit.Digraph
