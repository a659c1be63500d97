import Mathlib
import RoleAudit.Digraph.Basic
import RoleAudit.Distinct

/-!
# Graphs that grow by mentions, and reachability in them

A graph grows by mentions of nodes and edges from the graph without nodes. Whatever is mentioned, in
whatever order, the graph stays well formed: no node occurs twice, the adjacency knows exactly the
nodes, no successor of a node occurs twice, both ends of every edge are nodes, and the set of edges has
exactly the edges of the adjacency. All later statements on graphs rest on these facts and on the
relation `Leads` alone, never on how the adjacency is stored.
-/

namespace RoleAudit.Digraph

open Relation

variable {α : Type} [Ord α]

/-- A node or an edge that a graph is told of. -/
inductive Mention (α : Type) where
  /-- A node. -/
  | node (a : α)
  /-- An edge, and with it its ends. -/
  | edge (a b : α)

/-- There is an edge from `a` to `b`. -/
def Leads (g : Digraph α) (a b : α) : Prop := b ∈ g.successors a

/-- There is a walk from one node to another; every node has one to itself. -/
def Reaches (g : Digraph α) : α → α → Prop := ReflTransGen g.Leads

/-- Each of two nodes can be reached from the other. -/
def Together (g : Digraph α) (a b : α) : Prop := g.Reaches a b ∧ g.Reaches b a

theorem Together.refl (g : Digraph α) (a : α) : g.Together a a := ⟨.refl, .refl⟩

theorem Together.symm {g : Digraph α} {a b : α} (h : g.Together a b) : g.Together b a := ⟨h.2, h.1⟩

theorem Together.trans {g : Digraph α} {a b c : α} (h : g.Together a b) (h' : g.Together b c) :
    g.Together a c :=
  ⟨ReflTransGen.trans h.1 h'.1, ReflTransGen.trans h'.2 h.2⟩

/-- What every graph that grew by mentions satisfies. -/
structure WellFormed (g : Digraph α) : Prop where
  /-- No node occurs twice. -/
  nodup : g.nodes.Nodup
  /-- The adjacency knows exactly the nodes. -/
  contains_iff : ∀ a, g.contains a = true ↔ a ∈ g.nodes
  /-- No successor occurs twice. -/
  successors_nodup : ∀ a, (g.successors a).Nodup
  /-- Both ends of an edge are nodes. -/
  leads_mem : ∀ {a b}, g.Leads a b → a ∈ g.nodes ∧ b ∈ g.nodes
  /-- The set of edges has exactly those of the adjacency. -/
  hasEdge_iff : ∀ {a b}, g.hasEdge a b = true ↔ g.Leads a b

/-- The edges of a graph as a list. -/
theorem WellFormed.mem_edges {g : Digraph α} (h : g.WellFormed) {a b : α} :
    (a, b) ∈ g.edges ↔ g.Leads a b := by
  simp only [edges, List.mem_flatMap, List.mem_map, Prod.mk.injEq]
  constructor
  · rintro ⟨_, -, _, hb, rfl, rfl⟩
    exact hb
  · intro hl
    exact ⟨a, (h.leads_mem hl).1, b, hl, rfl, rfl⟩

/-- A walk from a node of the graph ends at one. -/
theorem WellFormed.mem_nodes_of_reaches {g : Digraph α} (h : g.WellFormed) {a b : α}
    (ha : a ∈ g.nodes) (hab : g.Reaches a b) : b ∈ g.nodes := by
  induction hab with
  | refl => exact ha
  | tail _ hl _ => exact (h.leads_mem hl).2

/-- No edge occurs twice. -/
theorem WellFormed.edges_nodup {g : Digraph α} (h : g.WellFormed) : g.edges.Nodup := by
  refine List.nodup_flatMap.2 ⟨fun a _ => ?_, h.nodup.imp fun {a b} hab => ?_⟩
  · exact (h.successors_nodup a).map fun b c heq => congrArg Prod.snd heq
  · -- edges of different sources differ
    intro edge ha hb
    obtain ⟨c, -, rfl⟩ := List.mem_map.1 ha
    obtain ⟨d, -, heq⟩ := List.mem_map.1 hb
    exact hab (congrArg Prod.fst heq).symm

theorem nodeCount_eq (g : Digraph α) : g.nodeCount = g.nodes.length := by
  simp [nodeCount, nodes]

theorem nodes_empty : (empty : Digraph α).nodes = [] := rfl

theorem not_hasEdge_empty {a b : α} : ¬ (empty : Digraph α).hasEdge a b = true := by
  simp [hasEdge, empty]

/-! ## Adding a node -/

theorem hasEdge_addNode (g : Digraph α) (a b c : α) : (g.addNode a).hasEdge b c = g.hasEdge b c := by
  unfold addNode
  split <;> rfl

theorem nodes_addNode (g : Digraph α) (a : α) :
    (g.addNode a).nodes = if g.contains a then g.nodes else g.nodes ++ [a] := by
  unfold addNode
  split <;> simp [nodes]

theorem WellFormed.mem_nodes_addNode {g : Digraph α} (h : g.WellFormed) {a b : α} :
    b ∈ (g.addNode a).nodes ↔ b ∈ g.nodes ∨ b = a := by
  rw [nodes_addNode]
  split
  · rename_i hc
    have ha : a ∈ g.nodes := (h.contains_iff a).1 hc
    constructor
    · exact Or.inl
    · rintro (hb | rfl)
      · exact hb
      · exact ha
  · simp

variable [Std.TransOrd α]

theorem not_leads_empty {a b : α} : ¬ (empty : Digraph α).Leads a b := by
  simp [Leads, successors, empty, Std.TreeMap.getD_emptyc]

theorem WellFormed.empty : (Digraph.empty : Digraph α).WellFormed where
  nodup := by simp [nodes_empty]
  contains_iff a := by
    rw [nodes_empty]
    simp [contains, Digraph.empty, Std.TreeMap.contains_emptyc]
  successors_nodup a := by simp [successors, Digraph.empty, Std.TreeMap.getD_emptyc]
  leads_mem h := absurd h not_leads_empty
  hasEdge_iff := iff_of_false not_hasEdge_empty not_leads_empty

variable [Std.LawfulEqOrd α]

/-- The set of edges has as many as are listed. -/
theorem WellFormed.edgeCount_eq {g : Digraph α} (h : g.WellFormed) :
    g.edgeCount = g.edges.length := by
  have hnodup : g.edgeSet.toList.Nodup :=
    Std.TreeSet.distinct_toList.imp fun hdiffer heq =>
      hdiffer (Std.LawfulEqCmp.compare_eq_iff_eq.2 heq)
  have hset : g.edgeSet.toList.Perm g.edges := by
    refine (List.perm_ext_iff_of_nodup hnodup h.edges_nodup).2 ?_
    rintro ⟨a, b⟩
    rw [Std.TreeSet.mem_toList, h.mem_edges, ← h.hasEdge_iff]
    rfl
  rw [edgeCount, ← Std.TreeSet.length_toList, hset.length_eq]

theorem successors_addNode (g : Digraph α) (a b : α) :
    (g.addNode a).successors b = g.successors b := by
  unfold addNode
  split
  · rfl
  · rename_i hc
    by_cases hb : compare a b = .eq
    · have hab : a = b := Std.LawfulEqOrd.eq_of_compare hb
      subst hab
      have hfall : g.adjacency.getD a #[] = #[] :=
        Std.TreeMap.getD_eq_fallback_of_contains_eq_false (by rwa [contains, Bool.not_eq_true] at hc)
      simp [successors, hfall]
    · simp [successors, Std.TreeMap.getD_insert, hb]

theorem leads_addNode {g : Digraph α} {a b c : α} : (g.addNode a).Leads b c ↔ g.Leads b c := by
  simp [Leads, successors_addNode]

variable [DecidableEq α]

theorem contains_addNode (g : Digraph α) (a b : α) :
    (g.addNode a).contains b = (g.contains b || decide (a = b)) := by
  unfold addNode
  split
  · rename_i hc
    by_cases hab : a = b
    · subst hab
      simp [hc]
    · simp [hab]
  · have hcmp : (compare a b == .eq) = decide (a = b) := by
      by_cases hab : a = b
      · subst hab
        simp
      · have hne : compare a b ≠ .eq := fun he => hab (Std.LawfulEqOrd.eq_of_compare he)
        simp [hab, hne]
    simp [contains, Std.TreeMap.contains_insert, hcmp, Bool.or_comm]

theorem WellFormed.addNode {g : Digraph α} (h : g.WellFormed) (a : α) : (g.addNode a).WellFormed where
  nodup := by
    rw [nodes_addNode]
    split
    · exact h.nodup
    · rename_i hc
      have ha : a ∉ g.nodes := fun ha => hc ((h.contains_iff a).2 ha)
      exact List.nodup_append.2 ⟨h.nodup, List.nodup_singleton a, by
        intro x hx y hy hxy
        rw [List.mem_singleton] at hy
        subst hy hxy
        exact ha hx⟩
  contains_iff b := by
    rw [contains_addNode, h.mem_nodes_addNode, Bool.or_eq_true, h.contains_iff b, decide_eq_true_eq,
      eq_comm]
  successors_nodup b := by
    rw [successors_addNode]
    exact h.successors_nodup b
  leads_mem hl := by
    obtain ⟨hb, hc⟩ := h.leads_mem (leads_addNode.1 hl)
    exact ⟨h.mem_nodes_addNode.2 (.inl hb), h.mem_nodes_addNode.2 (.inl hc)⟩
  hasEdge_iff := by
    intro b c
    rw [hasEdge_addNode, leads_addNode]
    exact h.hasEdge_iff

/-! ## Adding an edge -/

omit [Std.TransOrd α] [Std.LawfulEqOrd α] [DecidableEq α] in
theorem nodes_addEdge (g : Digraph α) (a b : α) :
    (g.addEdge a b).nodes = ((g.addNode a).addNode b).nodes := by
  simp only [addEdge]
  split <;> rfl

/-- A new edge stands behind those that leave its source. -/
theorem successors_addEdge (g : Digraph α) (a b c : α) :
    (g.addEdge a b).successors c
      = if c = a ∧ ¬ g.hasEdge a b = true then g.successors c ++ [b] else g.successors c := by
  have hbase : ∀ x, ((g.addNode a).addNode b).successors x = g.successors x := fun x => by
    rw [successors_addNode, successors_addNode]
  simp only [addEdge, hasEdge_addNode]
  split
  · rename_i hin
    rw [hbase, if_neg fun hc => hc.2 hin]
  · rename_i hnew
    by_cases hca : c = a
    · subst hca
      rw [if_pos ⟨rfl, hnew⟩, ← hbase]
      simp [successors]
    · have hcmp : compare a c ≠ .eq := fun h => hca (Std.LawfulEqOrd.eq_of_compare h).symm
      rw [if_neg fun hc => hca hc.1, ← hbase]
      simp [successors, Std.TreeMap.getD_insert, hcmp]

omit [DecidableEq α] in
theorem hasEdge_addEdge {g : Digraph α} {a b c d : α} :
    (g.addEdge a b).hasEdge c d = true ↔ g.hasEdge c d = true ∨ (c = a ∧ d = b) := by
  simp only [addEdge, hasEdge_addNode]
  split
  · rename_i hin
    rw [hasEdge_addNode, hasEdge_addNode]
    refine ⟨.inl, fun hor => hor.elim id ?_⟩
    rintro ⟨rfl, rfl⟩
    exact hin
  · have hpair : lexOrd.compare (a, b) (c, d) = .eq ↔ c = a ∧ d = b := by
      rw [Std.LawfulEqCmp.compare_eq_iff_eq, Prod.mk.injEq, eq_comm, @eq_comm _ b]
    rw [hasEdge, Std.TreeSet.contains_insert, Bool.or_eq_true, beq_iff_eq, hpair, or_comm,
      ← hasEdge_addNode g a c d, ← hasEdge_addNode _ b c d]
    rfl

theorem WellFormed.leads_addEdge {g : Digraph α} (h : g.WellFormed) {a b c d : α} :
    (g.addEdge a b).Leads c d ↔ g.Leads c d ∨ (c = a ∧ d = b) := by
  rw [Leads, successors_addEdge]
  split
  · rename_i hnew
    rw [List.mem_append, List.mem_singleton, ← Leads, and_iff_right hnew.1]
  · rename_i hold
    constructor
    · exact Or.inl
    · rintro (hl | ⟨rfl, rfl⟩)
      · exact hl
      · exact h.hasEdge_iff.1 (not_not.1 fun hno => hold ⟨rfl, hno⟩)

theorem WellFormed.mem_nodes_addEdge {g : Digraph α} (h : g.WellFormed) {a b c : α} :
    c ∈ (g.addEdge a b).nodes ↔ c ∈ g.nodes ∨ c = a ∨ c = b := by
  rw [nodes_addEdge, (h.addNode a).mem_nodes_addNode, h.mem_nodes_addNode, or_assoc]

theorem WellFormed.addEdge {g : Digraph α} (h : g.WellFormed) (a b : α) :
    (g.addEdge a b).WellFormed where
  nodup := by
    rw [nodes_addEdge]
    exact ((h.addNode a).addNode b).nodup
  contains_iff c := by
    rw [nodes_addEdge, ← ((h.addNode a).addNode b).contains_iff c]
    simp only [Digraph.addEdge]
    split
    · rfl
    · -- the edge is stored under a node that is known by now, so no key is new
      have ha : a ∈ ((g.addNode a).addNode b).adjacency := by
        have hmem : a ∈ ((g.addNode a).addNode b).nodes :=
          (h.addNode a).mem_nodes_addNode.2 (.inl (h.mem_nodes_addNode.2 (.inr rfl)))
        exact (((h.addNode a).addNode b).contains_iff a).2 hmem
      by_cases hac : compare a c = .eq
      · have heq : a = c := Std.LawfulEqOrd.eq_of_compare hac
        subst heq
        simp [contains, Std.TreeMap.contains_insert, Std.TreeMap.contains_iff_mem, ha]
      · simp [contains, Std.TreeMap.contains_insert, hac]
  successors_nodup c := by
    rw [successors_addEdge]
    split
    · rename_i hnew
      have hb : b ∉ g.successors c := fun hin => hnew.2 (h.hasEdge_iff.2 (hnew.1 ▸ hin))
      rw [List.nodup_append_comm]
      exact List.nodup_cons.2 ⟨hb, h.successors_nodup c⟩
    · exact h.successors_nodup c
  leads_mem hl := by
    rcases h.leads_addEdge.1 hl with hl | ⟨rfl, rfl⟩
    · obtain ⟨hc, hd⟩ := h.leads_mem hl
      exact ⟨h.mem_nodes_addEdge.2 (.inl hc), h.mem_nodes_addEdge.2 (.inl hd)⟩
    · exact ⟨h.mem_nodes_addEdge.2 (.inr (.inl rfl)), h.mem_nodes_addEdge.2 (.inr (.inr rfl))⟩
  hasEdge_iff := by
    intro c d
    rw [hasEdge_addEdge, h.leads_addEdge, h.hasEdge_iff]

/-! ## Sequences of mentions -/

/-- The graph with one more mention. -/
def mention (g : Digraph α) : Mention α → Digraph α
  | .node a => g.addNode a
  | .edge a b => g.addEdge a b

/-- The graph of a sequence of mentions. -/
def ofMentions (mentions : List (Mention α)) : Digraph α := mentions.foldl mention empty

theorem WellFormed.mention {g : Digraph α} (h : g.WellFormed) (m : Mention α) :
    (g.mention m).WellFormed := by
  cases m with
  | node a => exact h.addNode a
  | edge a b => exact h.addEdge a b

/-- Every graph that grew by mentions is well formed. -/
theorem wellFormed_ofMentions (mentions : List (Mention α)) : (ofMentions mentions).WellFormed := by
  suffices hrun : ∀ g : Digraph α, g.WellFormed → (mentions.foldl Digraph.mention g).WellFormed from
    hrun _ .empty
  induction mentions with
  | nil => exact fun _ h => h
  | cons m rest ih => exact fun g h => ih (g.mention m) (h.mention m)

omit [Std.TransOrd α] [Std.LawfulEqOrd α] [DecidableEq α] in
theorem ofMentions_append_singleton (mentions : List (Mention α)) (m : Mention α) :
    ofMentions (mentions ++ [m]) = (ofMentions mentions).mention m := by
  simp [ofMentions]

/-- The edges of a graph are those that were mentioned. -/
theorem leads_ofMentions {mentions : List (Mention α)} {a b : α} :
    (ofMentions mentions).Leads a b ↔ .edge a b ∈ mentions := by
  induction mentions using List.reverseRecOn with
  | nil => exact iff_of_false not_leads_empty List.not_mem_nil
  | append_singleton mentions m ih =>
    rw [ofMentions_append_singleton, List.mem_append, List.mem_singleton, ← ih]
    cases m with
    | node c => simp [mention, leads_addNode]
    | edge c d => simp [mention, (wellFormed_ofMentions mentions).leads_addEdge]

/-- The nodes that are mentioned, the ends of edges among them. -/
def Mention.names : Mention α → List α
  | .node a => [a]
  | .edge a b => [a, b]

omit [Std.TransOrd α] [Std.LawfulEqOrd α] in
theorem WellFormed.nodes_addNode_distinct {g : Digraph α} (h : g.WellFormed) {names : List α}
    (hnames : g.nodes = distinct names) (a : α) :
    (g.addNode a).nodes = distinct (names ++ [a]) := by
  have hknown : g.contains a = true ↔ a ∈ names := by
    rw [h.contains_iff, hnames, mem_distinct]
  rw [nodes_addNode, distinct_append_singleton, hnames]
  simp only [hknown]

/-- The nodes of a graph come in the order of their first mention. -/
theorem nodes_ofMentions (mentions : List (Mention α)) :
    (ofMentions mentions).nodes = distinct (mentions.flatMap Mention.names) := by
  induction mentions using List.reverseRecOn with
  | nil => rfl
  | append_singleton mentions m ih =>
    have hwf := wellFormed_ofMentions mentions
    rw [ofMentions_append_singleton, List.flatMap_append, List.flatMap_singleton]
    cases m with
    | node a => exact hwf.nodes_addNode_distinct ih a
    | edge a b =>
      rw [mention, nodes_addEdge,
        (hwf.addNode a).nodes_addNode_distinct (hwf.nodes_addNode_distinct ih a) b,
        List.append_assoc]
      rfl

theorem mem_nodes_ofMentions {mentions : List (Mention α)} {a : α} :
    a ∈ (ofMentions mentions).nodes ↔ ∃ m ∈ mentions, a ∈ m.names := by
  rw [nodes_ofMentions, mem_distinct, List.mem_flatMap]

/-- The target of a mentioned edge, where it leaves the given node. -/
def Mention.targetFrom? (a : α) : Mention α → Option α
  | .node _ => none
  | .edge source target => if source = a then some target else none

/-- The successors of a node are the targets of the edges that leave it, in the order of their first
mention. -/
theorem successors_ofMentions (mentions : List (Mention α)) (a : α) :
    (ofMentions mentions).successors a
      = distinct (mentions.filterMap (Mention.targetFrom? a)) := by
  induction mentions using List.reverseRecOn with
  | nil => simp [ofMentions, successors, empty, Std.TreeMap.getD_emptyc, distinct, distinctFrom]
  | append_singleton mentions m ih =>
    rw [ofMentions_append_singleton, List.filterMap_append]
    cases m with
    | node c =>
      have hlast : [Mention.node c].filterMap (Mention.targetFrom? a) = [] := rfl
      rw [hlast, List.append_nil, mention, successors_addNode, ih]
    | edge c d =>
      rw [mention, successors_addEdge]
      by_cases hca : c = a
      · subst hca
        have hlast : [Mention.edge c d].filterMap (Mention.targetFrom? c) = [d] := by
          simp [Mention.targetFrom?]
        have hknown : (ofMentions mentions).hasEdge c d = true ↔
            d ∈ mentions.filterMap (Mention.targetFrom? c) := by
          rw [(wellFormed_ofMentions mentions).hasEdge_iff, Leads, ih, mem_distinct]
        rw [hlast, distinct_append_singleton, ih]
        by_cases hd : d ∈ mentions.filterMap (Mention.targetFrom? c)
        · rw [if_pos hd, if_neg fun hnew => hnew.2 (hknown.2 hd)]
        · rw [if_neg hd, if_pos ⟨rfl, fun hin => hd (hknown.1 hin)⟩]
      · have hlast : [Mention.edge c d].filterMap (Mention.targetFrom? a) = [] := by
          simp [Mention.targetFrom?, hca]
        rw [hlast, List.append_nil, if_neg fun hnew => hca hnew.1.symm, ih]

omit [Std.TransOrd α] [Std.LawfulEqOrd α] [DecidableEq α] in
/-- What is mentioned again changes nothing. -/
theorem WellFormed.mention_eq_self {g : Digraph α} (h : g.WellFormed) {m : Mention α}
    (hnames : ∀ a ∈ m.names, a ∈ g.nodes) (hleads : ∀ a b, m = .edge a b → g.Leads a b) :
    g.mention m = g := by
  have hnode : ∀ a ∈ m.names, g.addNode a = g := by
    intro a ha
    exact if_pos ((h.contains_iff a).2 (hnames a ha))
  cases m with
  | node a => exact hnode a List.mem_cons_self
  | edge a b =>
    have hedge : g.hasEdge a b = true := h.hasEdge_iff.2 (hleads a b rfl)
    have ha := hnode a List.mem_cons_self
    have hb := hnode b (List.mem_cons_of_mem _ List.mem_cons_self)
    simp [Digraph.mention, Digraph.addEdge, ha, hb, hedge]

theorem ofMentions_append_of_subset {mentions more : List (Mention α)} (h : more ⊆ mentions) :
    ofMentions (mentions ++ more) = ofMentions mentions := by
  induction more using List.reverseRecOn with
  | nil => rw [List.append_nil]
  | append_singleton more m ih =>
    have hmore := ih fun x hx => h (List.mem_append_left _ hx)
    have hm : m ∈ mentions := h (List.mem_append_right _ List.mem_cons_self)
    rw [← List.append_assoc, ofMentions_append_singleton, hmore]
    apply (wellFormed_ofMentions mentions).mention_eq_self
    · intro a ha
      exact mem_nodes_ofMentions.2 ⟨m, hm, ha⟩
    · rintro a b rfl
      exact leads_ofMentions.2 hm

end RoleAudit.Digraph
