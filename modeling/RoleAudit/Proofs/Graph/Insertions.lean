import RoleAudit.Proofs.Error
import RoleAudit.Proofs.Graph.Scan

/-!
# Graphs from lists of insertions

A list of insertions succeeds exactly if no two of its nodes have one id and every edge comes after
both of its ends. Then the graph has gained the nodes and the edges of the list, in order.
-/

namespace RoleAudit

namespace Insertion

/-- The inserted node. -/
def node? : Insertion → Option Node
  | node n => some n
  | edge _ => none

/-- The inserted edge. -/
def edge? : Insertion → Option Edge
  | node _ => none
  | edge e => some e

/-- The nodes of some insertions. -/
def nodesOf (insertions : List Insertion) : List Node := insertions.filterMap node?

/-- The edges of some insertions. -/
def edgesOf (insertions : List Insertion) : List Edge := insertions.filterMap edge?

@[simp]
theorem nodesOf_nil : nodesOf [] = [] := rfl

@[simp]
theorem edgesOf_nil : edgesOf [] = [] := rfl

@[simp]
theorem nodesOf_cons_node (n : Node) (rest : List Insertion) :
    nodesOf (.node n :: rest) = n :: nodesOf rest := rfl

@[simp]
theorem nodesOf_cons_edge (e : Edge) (rest : List Insertion) :
    nodesOf (.edge e :: rest) = nodesOf rest := rfl

@[simp]
theorem edgesOf_cons_node (n : Node) (rest : List Insertion) :
    edgesOf (.node n :: rest) = edgesOf rest := rfl

@[simp]
theorem edgesOf_cons_edge (e : Edge) (rest : List Insertion) :
    edgesOf (.edge e :: rest) = e :: edgesOf rest := rfl

@[simp]
theorem nodesOf_append (a b : List Insertion) : nodesOf (a ++ b) = nodesOf a ++ nodesOf b :=
  List.filterMap_append

@[simp]
theorem edgesOf_append (a b : List Insertion) : edgesOf (a ++ b) = edgesOf a ++ edgesOf b :=
  List.filterMap_append

@[simp]
theorem nodesOf_flatMap {ι : Type} (l : List ι) (f : ι → List Insertion) :
    nodesOf (l.flatMap f) = l.flatMap fun i => nodesOf (f i) := by
  induction l with
  | nil => rfl
  | cons i rest ih => simp [ih]

@[simp]
theorem edgesOf_flatMap {ι : Type} (l : List ι) (f : ι → List Insertion) :
    edgesOf (l.flatMap f) = l.flatMap fun i => edgesOf (f i) := by
  induction l with
  | nil => rfl
  | cons i rest ih => simp [ih]

@[simp]
theorem nodesOf_map_edge (edges : List Edge) : nodesOf (edges.map .edge) = [] := by
  induction edges with
  | nil => rfl
  | cons e rest ih => simpa using ih

@[simp]
theorem edgesOf_map_edge (edges : List Edge) : edgesOf (edges.map .edge) = edges := by
  induction edges with
  | nil => rfl
  | cons e rest ih => simpa using ih

@[simp]
theorem nodesOf_map_node {ι : Type} (l : List ι) (f : ι → Node) :
    nodesOf (l.map fun i => .node (f i)) = l.map f := by
  induction l with
  | nil => rfl
  | cons i rest ih => simpa using ih

@[simp]
theorem edgesOf_map_node {ι : Type} (l : List ι) (f : ι → Node) :
    edgesOf (l.map fun i => .node (f i)) = [] := by
  induction l with
  | nil => rfl
  | cons i rest ih => simpa using ih

/-- Every edge comes after its ends, where the nodes `ids` are there before. -/
def Scoped (ids : List NodeId) : List Insertion → Prop
  | [] => True
  | .node n :: rest => Scoped (ids ++ [n.id]) rest
  | .edge e :: rest => (e.source ∈ ids ∧ e.target ∈ ids) ∧ Scoped ids rest

theorem Scoped.mono {ids more : List NodeId} {l : List Insertion} (h : Scoped ids l)
    (hsub : ids ⊆ more) : Scoped more l := by
  induction l generalizing ids more with
  | nil => trivial
  | cons i rest ih =>
    cases i with
    | node n => exact ih h (List.append_subset.2
        ⟨fun _ hx => List.mem_append_left _ (hsub hx), List.subset_append_right _ _⟩)
    | edge e => exact ⟨⟨hsub h.1.1, hsub h.1.2⟩, ih h.2 hsub⟩

theorem scoped_append {ids : List NodeId} {a b : List Insertion} :
    Scoped ids (a ++ b) ↔ Scoped ids a ∧ Scoped (ids ++ (nodesOf a).map Node.id) b := by
  induction a generalizing ids with
  | nil => simp [Scoped]
  | cons i rest ih =>
    cases i with
    | node n => simp [Scoped, ih, List.append_assoc]
    | edge e => simp [Scoped, ih, and_assoc]

/-- Parts that each need only the nodes of the beginning can follow each other. -/
theorem scoped_flatMap {ι : Type} {ids : List NodeId} {l : List ι} {f : ι → List Insertion}
    (h : ∀ i ∈ l, Scoped ids (f i)) : Scoped ids (l.flatMap f) := by
  induction l with
  | nil => trivial
  | cons i rest ih =>
    rw [List.flatMap_cons, scoped_append]
    refine ⟨h i List.mem_cons_self, ?_⟩
    have hrest := ih fun j hj => h j (List.mem_cons_of_mem _ hj)
    exact hrest.mono (List.subset_append_left _ _)

theorem scoped_map_edge {ids : List NodeId} {edges : List Edge}
    (h : ∀ e ∈ edges, e.source ∈ ids ∧ e.target ∈ ids) : Scoped ids (edges.map .edge) := by
  induction edges with
  | nil => trivial
  | cons e rest ih =>
    exact ⟨h e List.mem_cons_self, ih fun e he => h e (List.mem_cons_of_mem _ he)⟩

theorem scoped_map_node {ι : Type} (ids : List NodeId) (l : List ι) (f : ι → Node) :
    Scoped ids (l.map fun i => .node (f i)) := by
  induction l generalizing ids with
  | nil => trivial
  | cons i rest ih => exact ih _

end Insertion

namespace Graph

open Insertion

variable {g g' : Graph}

theorem addAll_cons (i : Insertion) (rest : List Insertion) :
    g.addAll (i :: rest) = g.add i >>= fun g => g.addAll rest := List.foldlM_cons

/-- What an accepted insertion leaves behind. -/
theorem add_eq_ok {i : Insertion} (h : g.add i = .ok g') :
    g'.metadata = g.metadata ∧ g'.nodes.toList = g.nodes.toList ++ nodesOf [i] ∧
      g'.edges.toList = g.edges.toList ++ edgesOf [i] := by
  cases i with
  | node n =>
    obtain ⟨-, rfl⟩ := addNode_eq_ok h
    simp
  | edge e =>
    obtain ⟨-, -, rfl⟩ := addEdge_eq_ok h
    simp

/-- What a list of accepted insertions leaves behind. -/
theorem Indexed.addAll {insertions : List Insertion} (h : g.Indexed)
    (hok : g.addAll insertions = .ok g') :
    g'.Indexed ∧ g'.metadata = g.metadata ∧ g'.nodes.toList = g.nodes.toList ++ nodesOf insertions ∧
      g'.edges.toList = g.edges.toList ++ edgesOf insertions := by
  induction insertions generalizing g with
  | nil =>
    obtain rfl : g = g' := Except.ok.inj hok
    simp [h]
  | cons i rest ih =>
    rw [addAll_cons] at hok
    cases hadd : g.add i with
    | error err => simp [hadd, bind, Except.bind] at hok
    | ok g₁ =>
      rw [hadd] at hok
      obtain ⟨hmeta₁, hnodes₁, hedges₁⟩ := add_eq_ok hadd
      obtain ⟨hix, hmeta, hnodes, hedges⟩ := ih (h.add hadd) hok
      refine ⟨hix, hmeta.trans hmeta₁, ?_, ?_⟩
      · rw [hnodes, hnodes₁, List.append_assoc, ← nodesOf_append, List.singleton_append]
      · rw [hedges, hedges₁, List.append_assoc, ← edgesOf_append, List.singleton_append]

/-- A node is refused exactly if its id is taken. -/
theorem Indexed.addNode_eq_error_iff (h : g.Indexed) (n : Node) (e : Error) :
    g.addNode n = .error e ↔ n.id ∈ g.nodeIds ∧ e = .duplicateNode n.id := by
  rw [← h.contains_iff, Graph.addNode]
  by_cases hc : g.contains n.id = true
  · simp [hc, @eq_comm _ e]
  · simp [hc]

/-- An edge is refused exactly if one of its ends is no node, and the error names the first such end. -/
theorem Indexed.addEdge_eq_error_iff (h : g.Indexed) (d : Edge) (e : Error) :
    g.addEdge d = .error e ↔
      (d.source ∉ g.nodeIds ∧ e = .danglingEdge d.source d.target d.kind d.source) ∨
      (d.source ∈ g.nodeIds ∧ d.target ∉ g.nodeIds ∧
        e = .danglingEdge d.source d.target d.kind d.target) := by
  rw [← h.contains_iff, ← h.contains_iff, Graph.addEdge]
  by_cases hs : g.contains d.source = true
  · by_cases ht : g.contains d.target = true
    · simp [hs, ht]
    · simp [hs, ht, @eq_comm _ e]
  · simp [hs, @eq_comm _ e]

theorem Indexed.isOk_addNode_iff (h : g.Indexed) (n : Node) :
    (g.addNode n).isOk = true ↔ n.id ∉ g.nodeIds := by
  simp only [Error.isOk_iff, Ne, h.addNode_eq_error_iff]
  simp

theorem Indexed.isOk_addEdge_iff (h : g.Indexed) (e : Edge) :
    (g.addEdge e).isOk = true ↔ e.source ∈ g.nodeIds ∧ e.target ∈ g.nodeIds := by
  simp only [Error.isOk_iff, Ne, h.addEdge_eq_error_iff]
  by_cases hs : e.source ∈ g.nodeIds <;> simp [hs]

/-- A list of insertions succeeds exactly if ids do not clash and no edge dangles. -/
theorem Indexed.isOk_addAll_iff (h : g.Indexed) (insertions : List Insertion) :
    (g.addAll insertions).isOk = true ↔
      (g.nodeIds ++ (nodesOf insertions).map Node.id).Nodup ∧ Scoped g.nodeIds insertions := by
  induction insertions generalizing g with
  | nil => simp [Graph.addAll, Scoped, Except.isOk, Except.toBool, pure, Except.pure, h.nodup]
  | cons i rest ih =>
    rw [addAll_cons]
    cases hadd : g.add i with
    | error err =>
      have hno : ¬ (g.add i).isOk = true := by simp [hadd, Except.isOk, Except.toBool]
      refine iff_of_false (by simp [bind, Except.bind, Except.isOk, Except.toBool]) ?_
      rintro ⟨hnodup, hscoped⟩
      cases i with
      | node n =>
        refine hno ((h.isOk_addNode_iff n).2 fun hin => ?_)
        exact (List.nodup_append.1 hnodup).2.2 n.id hin n.id (by simp) rfl
      | edge e => exact hno ((h.isOk_addEdge_iff e).2 hscoped.1)
    | ok g₁ =>
      obtain ⟨-, hnodes, -⟩ := add_eq_ok hadd
      have hids : g₁.nodeIds = g.nodeIds ++ (nodesOf [i]).map Node.id := by
        rw [nodeIds, hnodes, List.map_append, ← nodeIds]
      show (g₁.addAll rest).isOk = true ↔ _
      rw [ih (h.add hadd), hids]
      cases i with
      | node n => simp [Scoped, List.append_assoc]
      | edge e =>
        have hends := (h.isOk_addEdge_iff e).1 (by
          rw [show g.addEdge e = .ok g₁ from hadd]; rfl)
        simp [Scoped, hends]

/-- The first of some ids that is taken: by `taken`, or by an id before it. -/
def FirstTaken (taken ids : List NodeId) (id : NodeId) : Prop :=
  ∃ before after, ids = before ++ id :: after ∧ (taken ++ before).Nodup ∧ id ∈ taken ++ before

theorem firstTaken_cons_of_mem {taken : List NodeId} (hnodup : taken.Nodup) {first : NodeId}
    (hfirst : first ∈ taken) (rest : List NodeId) (id : NodeId) :
    FirstTaken taken (first :: rest) id ↔ id = first := by
  constructor
  · rintro ⟨before, after, heq, hbefore, -⟩
    cases before with
    | nil => exact (List.cons.inj heq).1.symm
    | cons other before =>
      -- then `first` would be among the ids that are still different
      obtain ⟨rfl, -⟩ := List.cons.inj heq
      exact absurd rfl ((List.nodup_append.1 hbefore).2.2 first hfirst first List.mem_cons_self)
  · rintro rfl
    exact ⟨[], rest, rfl, by simpa using hnodup, by simpa using hfirst⟩

theorem firstTaken_cons_of_not_mem {taken : List NodeId} {first : NodeId} (hfirst : first ∉ taken)
    (rest : List NodeId) (id : NodeId) :
    FirstTaken taken (first :: rest) id ↔ FirstTaken (taken ++ [first]) rest id := by
  constructor
  · rintro ⟨before, after, heq, hbefore, hid⟩
    cases before with
    | nil =>
      obtain ⟨rfl, -⟩ := List.cons.inj heq
      exact absurd (by simpa using hid) hfirst
    | cons other before =>
      obtain ⟨rfl, hrest⟩ := List.cons.inj heq
      exact ⟨before, after, hrest, by simpa using hbefore, by simpa using hid⟩
  · rintro ⟨before, after, rfl, hbefore, hid⟩
    exact ⟨first :: before, after, rfl, by simpa using hbefore, by simpa using hid⟩

/-- Ids are different exactly if none is the first that is taken. -/
theorem exists_firstTaken_iff {taken ids : List NodeId} (hnodup : taken.Nodup) :
    (∃ id, FirstTaken taken ids id) ↔ ¬ (taken ++ ids).Nodup := by
  induction ids generalizing taken with
  | nil =>
    refine iff_of_false ?_ (by simpa using hnodup)
    rintro ⟨id, before, after, heq, -⟩
    simp at heq
  | cons first rest ih =>
    by_cases hfirst : first ∈ taken
    · simp only [firstTaken_cons_of_mem hnodup hfirst, exists_eq, true_iff]
      intro hall
      exact (List.nodup_append.1 hall).2.2 first hfirst first List.mem_cons_self rfl
    · have hmore : (taken ++ [first]).Nodup := by
        rw [List.nodup_append]
        refine ⟨hnodup, List.nodup_singleton first, ?_⟩
        rintro a ha b hb rfl
        rw [List.mem_singleton] at hb
        exact hfirst (hb ▸ ha)
      simp only [firstTaken_cons_of_not_mem hfirst]
      rw [ih hmore, List.append_assoc, List.singleton_append]

/-- A list of insertions in which no edge dangles fails at its first node whose id is taken, and
only there. -/
theorem Indexed.addAll_eq_error_iff (h : g.Indexed) {insertions : List Insertion}
    (hscoped : Scoped g.nodeIds insertions) (e : Error) :
    g.addAll insertions = .error e ↔
      ∃ id, FirstTaken g.nodeIds ((nodesOf insertions).map Node.id) id ∧ e = .duplicateNode id := by
  induction insertions generalizing g with
  | nil =>
    refine iff_of_false (by simp [Graph.addAll, pure, Except.pure]) ?_
    rintro ⟨id, ⟨before, after, heq, -⟩, -⟩
    simp at heq
  | cons i rest ih =>
    rw [addAll_cons]
    cases i with
    | edge ed =>
      obtain ⟨hends, hrest⟩ := hscoped
      obtain ⟨g₁, hadd⟩ := Error.exists_of_isOk ((h.isOk_addEdge_iff ed).2 hends)
      have hok : g.add (.edge ed) = .ok g₁ := hadd
      have hids : g₁.nodeIds = g.nodeIds := by
        rw [nodeIds, (add_eq_ok hok).2.1, List.map_append, ← nodeIds]
        simp
      rw [hok]
      show g₁.addAll rest = .error e ↔ _
      rw [ih (h.add hok) (hids ▸ hrest), hids, nodesOf_cons_edge]
    | node n =>
      rw [nodesOf_cons_node, List.map_cons]
      by_cases htaken : n.id ∈ g.nodeIds
      · have hfail : g.add (.node n) = .error (.duplicateNode n.id) :=
          (h.addNode_eq_error_iff n _).2 ⟨htaken, rfl⟩
        simp only [firstTaken_cons_of_mem h.nodup htaken, exists_eq_left, hfail]
        exact ⟨fun he => (Except.error.inj he).symm, fun he => congrArg Except.error he.symm⟩
      · obtain ⟨g₁, hadd⟩ := Error.exists_of_isOk ((h.isOk_addNode_iff n).2 htaken)
        have hok : g.add (.node n) = .ok g₁ := hadd
        have hids : g₁.nodeIds = g.nodeIds ++ [n.id] := by
          rw [nodeIds, (add_eq_ok hok).2.1, List.map_append, ← nodeIds]
          simp
        rw [hok]
        show g₁.addAll rest = .error e ↔ _
        simp only [firstTaken_cons_of_not_mem htaken]
        rw [ih (h.add hok) (hids ▸ hscoped), hids]

end Graph

end RoleAudit
