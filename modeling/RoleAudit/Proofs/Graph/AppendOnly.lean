import RoleAudit.Proofs.Graph.Insertions

/-!
# Graphs only grow

A graph is given nodes and edges one at a time, and it refuses some of them. What it has accepted stays
where it is: every list that it gives, by whatever look-up, is the beginning of the list that it gives
later. As every look-up is a scan of the nodes or of the edges, it is enough that these two lists only
grow at their ends.
-/

namespace RoleAudit.Graph

variable {g g' : Graph}

/-! ## Lists that are beginnings of others -/

/-- Every list that a graph gives is the beginning of the one that another graph gives. The look-ups
are those of `Indexed`, under the same names, and the list of the types themselves. -/
structure GrowsTo (g g' : Graph) : Prop where
  nodes : g.nodes.toList <+: g'.nodes.toList
  edges : g.edges.toList <+: g'.edges.toList
  outgoing : ∀ id, g.edgesFrom id <+: g'.edgesFrom id
  incoming : ∀ id, g.edgesTo id <+: g'.edgesTo id
  byKind : ∀ kind, g.edgesOfKind kind <+: g'.edgesOfKind kind
  typeNodes : g.types <+: g'.types
  types : g.indexes.types.toList <+: g'.indexes.types.toList
  members : g.indexes.members.toList <+: g'.indexes.members.toList
  byPackage : ∀ package, g.indexes.byPackage.get package <+: g'.indexes.byPackage.get package
  byForm : ∀ form : TypeForm,
    g.indexes.byForm.get form.label <+: g'.indexes.byForm.get form.label
  byAnnotation : ∀ name, g.indexes.byAnnotation.get name <+: g'.indexes.byAnnotation.get name
  declaredMembers : ∀ id,
    g.indexes.declaredMembers.get id <+: g'.indexes.declaredMembers.get id
  subtypes : ∀ id, g.indexes.subtypes.get id <+: g'.indexes.subtypes.get id
  supertypes : ∀ id, g.indexes.supertypes.get id <+: g'.indexes.supertypes.get id
  implementors : ∀ id, g.indexes.implementors.get id <+: g'.indexes.implementors.get id
  implementedInterfaces : ∀ id,
    g.indexes.implementedInterfaces.get id <+: g'.indexes.implementedInterfaces.get id
  fieldsByType : ∀ id, g.indexes.fieldsByType.get id <+: g'.indexes.fieldsByType.get id
  methodsByReturnType : ∀ id,
    g.indexes.methodsByReturnType.get id <+: g'.indexes.methodsByReturnType.get id
  membersByParameterType : ∀ id,
    g.indexes.membersByParameterType.get id <+: g'.indexes.membersByParameterType.get id
  signatureUsers : ∀ id, g.indexes.signatureUsers.get id <+: g'.indexes.signatureUsers.get id
  signatureTypes : ∀ id, g.indexes.signatureTypes.get id <+: g'.indexes.signatureTypes.get id
  signatureProofs : ∀ interface used,
    g.signatureProofs interface used <+: g'.signatureProofs interface used

section Scans

variable (hedges : g.edges.toList <+: g'.edges.toList)

include hedges

theorem distinct_targetsOf_prefix (kind : EdgeKind) (id : NodeId) :
    distinct (g.targetsOf kind id) <+: distinct (g'.targetsOf kind id) :=
  distinct_prefix ((hedges.filter _).map _)

theorem distinct_sourcesOf_prefix (kind : EdgeKind) (id : NodeId) :
    distinct (g.sourcesOf kind id) <+: distinct (g'.sourcesOf kind id) :=
  distinct_prefix ((hedges.filter _).map _)

theorem distinct_proofsOf_prefix (interface used : NodeId) :
    distinct (g.proofsOf interface used) <+: distinct (g'.proofsOf interface used) :=
  distinct_prefix ((hedges.filter _).filterMap _)

end Scans

/-- Where the nodes and the edges are beginnings, all look-ups are: they are scans of them. -/
theorem Indexed.growsTo (h : g.Indexed) (h' : g'.Indexed)
    (hnodes : g.nodes.toList <+: g'.nodes.toList) (hedges : g.edges.toList <+: g'.edges.toList) :
    g.GrowsTo g' where
  nodes := hnodes
  edges := hedges
  outgoing id := by
    rw [h.outgoing, h'.outgoing]
    exact hedges.filter _
  incoming id := by
    rw [h.incoming, h'.incoming]
    exact hedges.filter _
  byKind kind := by
    rw [h.byKind, h'.byKind]
    exact hedges.filter _
  typeNodes := by
    rw [h.types_eq, h'.types_eq]
    exact hnodes.filterMap _
  types := by
    rw [h.types, h'.types]
    exact (hnodes.filter _).map _
  members := by
    rw [h.members, h'.members]
    exact (hnodes.filter _).map _
  byPackage package := by
    rw [h.byPackage, h'.byPackage]
    exact ((hnodes.filterMap _).filter _).map _
  byForm form := by
    rw [h.byForm, h'.byForm]
    exact ((hnodes.filterMap _).filter _).map _
  byAnnotation name := by
    rw [h.byAnnotation, h'.byAnnotation]
    exact (hnodes.filter _).map _
  declaredMembers id := by
    rw [h.declaredMembers, h'.declaredMembers]
    exact distinct_targetsOf_prefix hedges _ id
  subtypes id := by
    rw [h.subtypes, h'.subtypes]
    exact distinct_sourcesOf_prefix hedges _ id
  supertypes id := by
    rw [h.supertypes, h'.supertypes]
    exact distinct_targetsOf_prefix hedges _ id
  implementors id := by
    rw [h.implementors, h'.implementors]
    exact distinct_sourcesOf_prefix hedges _ id
  implementedInterfaces id := by
    rw [h.implementedInterfaces, h'.implementedInterfaces]
    exact distinct_targetsOf_prefix hedges _ id
  fieldsByType id := by
    rw [h.fieldsByType, h'.fieldsByType]
    exact distinct_sourcesOf_prefix hedges _ id
  methodsByReturnType id := by
    rw [h.methodsByReturnType, h'.methodsByReturnType]
    exact distinct_sourcesOf_prefix hedges _ id
  membersByParameterType id := by
    rw [h.membersByParameterType, h'.membersByParameterType]
    exact distinct_sourcesOf_prefix hedges _ id
  signatureUsers id := by
    rw [h.signatureUsers, h'.signatureUsers]
    exact distinct_sourcesOf_prefix hedges _ id
  signatureTypes id := by
    rw [h.signatureTypes, h'.signatureTypes]
    exact distinct_targetsOf_prefix hedges _ id
  signatureProofs interface used := by
    rw [h.signatureProofs, h'.signatureProofs]
    exact distinct_proofsOf_prefix hedges interface used

/-! ## One call -/

theorem attempt_of_ok {i : Insertion} (h : g.add i = .ok g') : g.attempt i = g' := by
  rw [attempt, h]

theorem attempt_of_error {i : Insertion} {e : Error} (h : g.add i = .error e) :
    g.attempt i = g := by
  rw [attempt, h]

/-- A call leaves the nodes and edges that are there where they are. -/
theorem prefix_attempt (g : Graph) (i : Insertion) :
    g.nodes.toList <+: (g.attempt i).nodes.toList ∧
      g.edges.toList <+: (g.attempt i).edges.toList := by
  cases hadd : g.add i with
  | ok g₁ =>
    obtain ⟨-, hnodes, hedges⟩ := add_eq_ok hadd
    rw [attempt_of_ok hadd, hnodes, hedges]
    exact ⟨List.prefix_append _ _, List.prefix_append _ _⟩
  | error e =>
    rw [attempt_of_error hadd]
    exact ⟨List.prefix_refl _, List.prefix_refl _⟩

/-! ## Runs of calls -/

/-- A run of calls leaves the nodes and edges that are there where they are. -/
theorem prefix_foldl_attempt (g : Graph) (calls : List Insertion) :
    g.nodes.toList <+: (calls.foldl attempt g).nodes.toList ∧
      g.edges.toList <+: (calls.foldl attempt g).edges.toList := by
  induction calls generalizing g with
  | nil => exact ⟨List.prefix_refl _, List.prefix_refl _⟩
  | cons i calls ih =>
    obtain ⟨hnodes, hedges⟩ := g.prefix_attempt i
    obtain ⟨hnodes', hedges'⟩ := ih (g.attempt i)
    exact ⟨hnodes.trans hnodes', hedges.trans hedges'⟩

theorem Indexed.growsTo_foldl_attempt (h : g.Indexed) (calls : List Insertion) :
    g.GrowsTo (calls.foldl Graph.attempt g) := by
  obtain ⟨hnodes, hedges⟩ := g.prefix_foldl_attempt calls
  exact h.growsTo (h.foldl_attempt calls) hnodes hedges

/-- Graphs only grow, and only by what they accept. For the graph after any calls: a node is refused
exactly if a node has its id; an edge is refused exactly if one of its ends is no node, and its source
is the one named if both are none; a refused call leaves the graph as it is; an accepted one puts its
one node or edge at the end and no other; and whatever calls follow, accepted or refused, every list
that the graph gives is the beginning of the list that it gives then. -/
theorem calls_only_append (metadata : Metadata) (calls : List Insertion) :
    let g := calls.foldl attempt (withMetadata metadata)
    (∀ n e, g.addNode n = .error e ↔ (∃ m ∈ g.nodes, m.id = n.id) ∧ e = .duplicateNode n.id) ∧
    (∀ d e, g.addEdge d = .error e ↔
      ((¬ ∃ m ∈ g.nodes, m.id = d.source) ∧
        e = .danglingEdge d.source d.target d.kind d.source) ∨
      ((∃ m ∈ g.nodes, m.id = d.source) ∧ (¬ ∃ m ∈ g.nodes, m.id = d.target) ∧
        e = .danglingEdge d.source d.target d.kind d.target)) ∧
    (∀ i e, g.add i = .error e → g.attempt i = g) ∧
    (∀ n g', g.addNode n = .ok g' → g.attempt (.node n) = g' ∧
      g'.nodes.toList = g.nodes.toList ++ [n] ∧ g'.edges = g.edges) ∧
    (∀ d g', g.addEdge d = .ok g' → g.attempt (.edge d) = g' ∧
      g'.nodes = g.nodes ∧ g'.edges.toList = g.edges.toList ++ [d]) ∧
    ∀ more : List Insertion, g.GrowsTo (more.foldl attempt g) := by
  intro g
  have h : g.Indexed := (Indexed.withMetadata metadata).foldl_attempt calls
  have hids : ∀ id, (∃ m ∈ g.nodes, m.id = id) ↔ id ∈ g.nodeIds := by
    intro id
    simp [nodeIds]
  simp only [hids]
  refine ⟨h.addNode_eq_error_iff, h.addEdge_eq_error_iff, fun i e => attempt_of_error,
    fun n g' hok => ?_, fun d g' hok => ?_, h.growsTo_foldl_attempt⟩
  · obtain ⟨-, rfl⟩ := addNode_eq_ok hok
    exact ⟨attempt_of_ok hok, by simp, rfl⟩
  · obtain ⟨-, -, rfl⟩ := addEdge_eq_ok hok
    exact ⟨attempt_of_ok hok, rfl, by simp⟩

/-- A class and one that extends it. -/
def baseAndDerived : List Insertion :=
  [.node (.type (.ofName "shop.Base" .plainClass)),
    .node (.type (.ofName "shop.Derived" .plainClass)),
    .edge (.raw (.ofType "shop.Derived") (.ofType "shop.Base") .extends)]

/-- A name that is taken and an edge to a class that is missing are refused, and what was there before
them is still there, at the same place, when a third class has been accepted. -/
theorem refused_calls_leave_no_trace :
    let g := baseAndDerived.foldl attempt (withMetadata .empty)
    let again : Node := .type (.ofName "shop.Base" .interface)
    let dangling := Edge.raw (.ofType "shop.Base") (.ofType "shop.Missing") .extends
    let more := [.node again, .edge dangling, .node (.type (.ofName "shop.Other" .plainClass))]
    g.addNode again = .error (.duplicateNode again.id) ∧ g.attempt (.node again) = g ∧
    g.addEdge dangling
      = .error (.danglingEdge dangling.source dangling.target .extends dangling.target) ∧
    g.attempt (.edge dangling) = g ∧ g.GrowsTo (more.foldl attempt g) := by
  intro g again dangling more
  obtain ⟨hnode, hedge, hrefused, -, -, hgrows⟩ := calls_only_append .empty baseAndDerived
  have hids : g.nodes.toList.map Node.id = [.ofType "shop.Base", .ofType "shop.Derived"] := by
    decide +kernel
  have hmem : ∀ id, (∃ m ∈ g.nodes, m.id = id) ↔
      id = .ofType "shop.Base" ∨ id = .ofType "shop.Derived" := by
    intro id
    rw [← List.mem_pair, ← hids]
    simp
  have hagain : g.addNode again = .error (.duplicateNode again.id) :=
    (hnode again _).2 ⟨(hmem _).2 (.inl rfl), rfl⟩
  have hdangling : g.addEdge dangling
      = .error (.danglingEdge dangling.source dangling.target .extends dangling.target) :=
    (hedge dangling _).2 (.inr ⟨(hmem _).2 (.inl rfl), mt (hmem _).1 (by decide), rfl⟩)
  exact ⟨hagain, hrefused (.node again) _ hagain, hdangling, hrefused (.edge dangling) _ hdangling,
    hgrows more⟩

end RoleAudit.Graph
