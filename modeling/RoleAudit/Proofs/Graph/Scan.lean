import Mathlib
import RoleAudit.Graph.Query

/-!
# Look-ups are scans

A graph keeps some twenty look-ups beside its nodes and edges, and every accepted node or edge changes
several of them. `Indexed` says what each one has to be: a scan of the nodes or edges, in the order of
their arrival. Both ways of growing keep it, so it holds of every graph that any sequence of calls
makes, refused calls included.
-/

namespace RoleAudit

namespace Multimap

variable {κ β : Type} [Ord κ] [Std.TransOrd κ] [Std.LawfulEqOrd κ] [DecidableEq κ] [DecidableEq β]

/-- A look-up that keeps first occurrences goes on doing so when a value is put in under a
condition. -/
theorem get_insert_if {m : Multimap κ β} {scan : κ → List β} (h : ∀ k, m.get k = distinct (scan k))
    (p : Prop) [Decidable p] (key : κ) (value : β) (k : κ) :
    (if p then m.insert key value else m).get k
      = distinct (scan k ++ if p ∧ key = k then [value] else []) := by
  by_cases hp : p
  · rw [if_pos hp, get_insert, h k]
    by_cases hk : key = k
    · rw [if_pos (And.intro hp hk), distinct_append_singleton]
      by_cases hv : value ∈ scan k <;> simp [hk, hv]
    · simp [hk]
  · rw [if_neg hp, h k]
    simp [hp]

/-- Putting one value under many keys adds it once to each. -/
theorem get_foldl_insert {ι : Type} (m : Multimap κ β) (items : List ι) (key : ι → κ) (value : β)
    (k : κ) :
    (items.foldl (fun m i => m.insert (key i) value) m).get k
      = if (items.any fun i => key i = k) ∧ value ∉ m.get k then m.get k ++ [value]
        else m.get k := by
  induction items generalizing m with
  | nil => simp
  | cons i rest ih =>
    rw [List.foldl_cons, ih, get_insert]
    by_cases hv : value ∈ m.get k
    · simp [hv]
    · by_cases hk : key i = k
      · simp [hv, hk]
      · simp [hv, hk]

end Multimap

theorem EdgeKind.label_injective {a b : EdgeKind} (h : a.label = b.label) : a = b := by
  cases a <;> cases b <;> first | rfl | exact absurd h (by decide)

theorem TypeForm.label_injective {a b : TypeForm} (h : a.label = b.label) : a = b := by
  cases a <;> cases b <;> first | rfl | exact absurd h (by decide)

namespace Indexes

variable (ix : Indexes) (n : Node) (e : Edge)

/-! ## What a node changes -/

theorem types_addNode :
    (ix.addNode n).types.toList = ix.types.toList ++ if n.isMember then [] else [n.id] := by
  cases n <;> simp [addNode, Node.isMember, Node.id]

theorem members_addNode :
    (ix.addNode n).members.toList = ix.members.toList ++ if n.isMember then [n.id] else [] := by
  cases n <;> simp [addNode, Node.isMember, Node.id]

theorem byPackage_addNode (package : String) :
    (ix.addNode n).byPackage.get package
      = match n.type? with
        | some t => (ix.byPackage.insert t.package t.id).get package
        | none => ix.byPackage.get package := by
  cases n <;> rfl

theorem byForm_addNode (label : String) :
    (ix.addNode n).byForm.get label
      = match n.type? with
        | some t => (ix.byForm.insert t.form.label t.id).get label
        | none => ix.byForm.get label := by
  cases n <;> rfl

theorem byAnnotation_addNode :
    Indexes.byAnnotation (ix.addNode n)
      = n.annotations.foldl (fun m a => m.insert a.name n.id) ix.byAnnotation := by
  cases n <;> rfl

/-! ## What an edge changes -/

theorem declaredMembers_addEdge :
    (ix.addEdge e).declaredMembers
      = if e.kind = .declares then ix.declaredMembers.insert e.source e.target
        else ix.declaredMembers := by
  cases hk : e.kind <;> simp [addEdge, hk]

theorem declaringType_addEdge :
    (ix.addEdge e).declaringType
      = if e.kind = .declares then ix.declaringType.insert e.target e.source
        else ix.declaringType := by
  cases hk : e.kind <;> simp [addEdge, hk]

theorem subtypes_addEdge :
    (ix.addEdge e).subtypes
      = if e.kind = .extends then ix.subtypes.insert e.target e.source else ix.subtypes := by
  cases hk : e.kind <;> simp [addEdge, hk]

theorem supertypes_addEdge :
    (ix.addEdge e).supertypes
      = if e.kind = .extends then ix.supertypes.insert e.source e.target else ix.supertypes := by
  cases hk : e.kind <;> simp [addEdge, hk]

theorem implementors_addEdge :
    (ix.addEdge e).implementors
      = if e.kind = .implements then ix.implementors.insert e.target e.source
        else ix.implementors := by
  cases hk : e.kind <;> simp [addEdge, hk]

theorem implementedInterfaces_addEdge :
    (ix.addEdge e).implementedInterfaces
      = if e.kind = .implements then ix.implementedInterfaces.insert e.source e.target
        else ix.implementedInterfaces := by
  cases hk : e.kind <;> simp [addEdge, hk]

theorem fieldsByType_addEdge :
    (ix.addEdge e).fieldsByType
      = if e.kind = .fieldType then ix.fieldsByType.insert e.target e.source
        else ix.fieldsByType := by
  cases hk : e.kind <;> simp [addEdge, hk]

theorem methodsByReturnType_addEdge :
    (ix.addEdge e).methodsByReturnType
      = if e.kind = .returnType then ix.methodsByReturnType.insert e.target e.source
        else ix.methodsByReturnType := by
  cases hk : e.kind <;> simp [addEdge, hk]

theorem membersByParameterType_addEdge :
    (ix.addEdge e).membersByParameterType
      = if e.kind = .parameterType then ix.membersByParameterType.insert e.target e.source
        else ix.membersByParameterType := by
  cases hk : e.kind <;> simp [addEdge, hk]

theorem signatureUsers_addEdge :
    (ix.addEdge e).signatureUsers
      = if e.kind = .usesInSignature then ix.signatureUsers.insert e.target e.source
        else ix.signatureUsers := by
  cases hk : e.kind <;> simp [addEdge, hk]

theorem signatureTypes_addEdge :
    (ix.addEdge e).signatureTypes
      = if e.kind = .usesInSignature then ix.signatureTypes.insert e.source e.target
        else ix.signatureTypes := by
  cases hk : e.kind <;> simp [addEdge, hk]

theorem signatureProofs_addEdge :
    (ix.addEdge e).signatureProofs
      = match e.proof with
        | some proof => if e.kind = .usesInSignature
            then ix.signatureProofs.insert (e.source, e.target) proof else ix.signatureProofs
        | none => ix.signatureProofs := by
  cases hk : e.kind <;> cases hp : e.proof <;> simp [addEdge, hk, hp]

/-- The look-ups by property do not change with an edge. -/
theorem properties_addEdge :
    (ix.addEdge e).types = ix.types ∧ (ix.addEdge e).members = ix.members ∧
    (ix.addEdge e).byPackage = ix.byPackage ∧ (ix.addEdge e).byForm = ix.byForm ∧
    Indexes.byAnnotation (ix.addEdge e) = ix.byAnnotation := by
  cases hk : e.kind <;> simp [addEdge, hk]

end Indexes

namespace Graph

/-! ## Scans of nodes and edges -/

section Scans

variable (g : Graph)

/-- The ids of the nodes, oldest first. -/
def nodeIds : List NodeId := g.nodes.toList.map Node.id

/-- The types among the nodes, oldest first. -/
def typeNodes : List TypeNode := g.nodes.toList.filterMap Node.type?

/-- The targets of the edges of a relation that leave a node, oldest edge first. -/
def targetsOf (kind : EdgeKind) (id : NodeId) : List NodeId :=
  (g.edges.toList.filter fun e => e.kind = kind ∧ e.source = id).map (·.target)

/-- The sources of the edges of a relation that enter a node, oldest edge first. -/
def sourcesOf (kind : EdgeKind) (id : NodeId) : List NodeId :=
  (g.edges.toList.filter fun e => e.kind = kind ∧ e.target = id).map (·.source)

/-- The proofs that the edges of use in signatures between two nodes carry, oldest edge first. -/
def proofsOf (interface used : NodeId) : List EdgeProof :=
  (g.edges.toList.filter fun e =>
    e.kind = .usesInSignature ∧ e.source = interface ∧ e.target = used).filterMap (·.proof)

theorem targetsOf_eq_outgoing (kind : EdgeKind) (id : NodeId) : g.targetsOf kind id
    = ((g.edges.toList.filter (·.source = id)).filter (·.kind = kind)).map (·.target) := by
  rw [targetsOf, List.filter_filter]
  simp

theorem sourcesOf_eq_incoming (kind : EdgeKind) (id : NodeId) : g.sourcesOf kind id
    = ((g.edges.toList.filter (·.target = id)).filter (·.kind = kind)).map (·.source) := by
  rw [sourcesOf, List.filter_filter]
  simp

theorem proofsOf_eq_outgoing (interface used : NodeId) : g.proofsOf interface used
    = ((g.edges.toList.filter (·.source = interface)).filter fun e =>
        e.kind = .usesInSignature ∧ e.target = used).filterMap (·.proof) := by
  rw [proofsOf, List.filter_filter]
  congr 2
  funext e
  simp [Bool.and_comm, Bool.and_left_comm]

end Scans

/-- Every look-up of a graph is a scan of its nodes or edges. -/
structure Indexed (g : Graph) : Prop where
  /-- No two nodes have one id. -/
  nodup : g.nodeIds.Nodup
  /-- Both ends of an edge are nodes. -/
  ends : ∀ e ∈ g.edges, e.source ∈ g.nodeIds ∧ e.target ∈ g.nodeIds
  /-- The node of an id. -/
  node : ∀ id, g.node? id = g.nodes.toList.find? (·.id = id)
  /-- The edges that leave a node. -/
  outgoing : ∀ id, g.edgesFrom id = g.edges.toList.filter (·.source = id)
  /-- The edges that enter a node. -/
  incoming : ∀ id, g.edgesTo id = g.edges.toList.filter (·.target = id)
  /-- The edges of a relation. -/
  byKind : ∀ kind, g.edgesOfKind kind = g.edges.toList.filter (·.kind = kind)
  /-- The types. -/
  types : g.indexes.types.toList = (g.nodes.toList.filter fun n => !n.isMember).map Node.id
  /-- The members. -/
  members : g.indexes.members.toList = (g.nodes.toList.filter Node.isMember).map Node.id
  /-- The types of a package. -/
  byPackage : ∀ package, g.indexes.byPackage.get package
    = (g.typeNodes.filter (·.package = package)).map (·.id)
  /-- The types of a form. -/
  byForm : ∀ form : TypeForm, g.indexes.byForm.get form.label
    = (g.typeNodes.filter (·.form = form)).map (·.id)
  /-- The nodes with an annotation. -/
  byAnnotation : ∀ name, g.indexes.byAnnotation.get name
    = (g.nodes.toList.filter fun n => n.annotations.any (·.name = name)).map Node.id
  /-- The members that a type declares. -/
  declaredMembers : ∀ id, g.indexes.declaredMembers.get id = distinct (g.targetsOf .declares id)
  /-- The type that declares a member is the last one. -/
  declaringType : ∀ id, g.indexes.declaringType.get? id = (g.sourcesOf .declares id).getLast?
  /-- The types that extend a type. -/
  subtypes : ∀ id, g.indexes.subtypes.get id = distinct (g.sourcesOf .extends id)
  /-- The types that a type extends. -/
  supertypes : ∀ id, g.indexes.supertypes.get id = distinct (g.targetsOf .extends id)
  /-- The types that implement an interface. -/
  implementors : ∀ id, g.indexes.implementors.get id = distinct (g.sourcesOf .implements id)
  /-- The interfaces that a type implements. -/
  implementedInterfaces : ∀ id,
    g.indexes.implementedInterfaces.get id = distinct (g.targetsOf .implements id)
  /-- The fields whose type mentions a type. -/
  fieldsByType : ∀ id, g.indexes.fieldsByType.get id = distinct (g.sourcesOf .fieldType id)
  /-- The methods whose result mentions a type. -/
  methodsByReturnType : ∀ id,
    g.indexes.methodsByReturnType.get id = distinct (g.sourcesOf .returnType id)
  /-- The methods and constructors with a parameter that mentions a type. -/
  membersByParameterType : ∀ id,
    g.indexes.membersByParameterType.get id = distinct (g.sourcesOf .parameterType id)
  /-- The interfaces whose signatures mention a type. -/
  signatureUsers : ∀ id,
    g.indexes.signatureUsers.get id = distinct (g.sourcesOf .usesInSignature id)
  /-- The types that the signatures of an interface mention. -/
  signatureTypes : ∀ id,
    g.indexes.signatureTypes.get id = distinct (g.targetsOf .usesInSignature id)
  /-- The places where the signatures of an interface mention a type. -/
  signatureProofs : ∀ interface used,
    g.signatureProofs interface used = distinct (g.proofsOf interface used)

/-! ## Accepted nodes -/

section Node

variable {g g' : Graph} {n : Node}

/-- What is known of a node that was accepted. -/
theorem addNode_eq_ok (h : g.addNode n = .ok g') :
    g.contains n.id = false ∧
    g' = { g with
      nodes := g.nodes.push n
      byId := g.byId.insert n.id n
      indexes := g.indexes.addNode n } := by
  unfold addNode at h
  split at h
  · exact absurd h (by simp)
  · rename_i hc
    exact ⟨by simpa using hc, (Except.ok.inj h).symm⟩

theorem Indexed.contains_iff (h : g.Indexed) (id : NodeId) : g.contains id = true ↔ id ∈ g.nodeIds := by
  have hsome : g.contains id = (g.node? id).isSome := by
    rw [contains, node?, Std.TreeMap.get?_eq_getElem?, Std.TreeMap.isSome_getElem?_eq_contains]
  rw [hsome, h.node id, List.find?_isSome, nodeIds, List.mem_map]
  simp only [decide_eq_true_eq]

theorem typeNodes_push (g : Graph) (n : Node) :
    ({ g with nodes := g.nodes.push n } : Graph).typeNodes = g.typeNodes ++ n.type?.toList := by
  cases n <;> simp [typeNodes, Node.type?]

/-- The ids of some of the nodes do not have one that is no node's. -/
theorem not_mem_of_fresh {id : NodeId} (hfresh : id ∉ g.nodeIds) (p : Node → Bool) :
    id ∉ (g.nodes.toList.filter p).map Node.id := by
  intro hin
  obtain ⟨m, hm, hid⟩ := List.mem_map.1 hin
  exact hfresh (List.mem_map.2 ⟨m, (List.mem_filter.1 hm).1, hid⟩)

theorem not_mem_typeNodes_of_fresh {id : NodeId} (hfresh : id ∉ g.nodeIds) (p : TypeNode → Bool) :
    id ∉ (g.typeNodes.filter p).map (·.id) := by
  intro hin
  obtain ⟨t, ht, hid⟩ := List.mem_map.1 hin
  obtain ⟨m, hm, hmt⟩ := List.mem_filterMap.1 (List.mem_filter.1 ht).1
  cases m with
  | type u =>
    obtain rfl : u = t := Option.some.inj hmt
    exact hfresh (List.mem_map.2 ⟨.type u, hm, hid⟩)
  | field _ => simp [Node.type?] at hmt
  | method _ => simp [Node.type?] at hmt
  | constructor _ => simp [Node.type?] at hmt

/-- A look-up of types by a property goes on being a scan when a node is accepted. -/
theorem get_insert_type {κ : Type} [Ord κ] [Std.TransOrd κ] [Std.LawfulEqOrd κ] [DecidableEq κ]
    {m : Multimap κ NodeId} {property : TypeNode → κ} {key : κ}
    (h : m.get key = (g.typeNodes.filter (property · = key)).map (·.id))
    (hfresh : n.id ∉ g.nodeIds) :
    (match n.type? with
      | some t => (m.insert (property t) t.id).get key
      | none => m.get key)
      = ((g.typeNodes ++ n.type?.toList).filter (property · = key)).map (·.id) := by
  cases n with
  | type t =>
    have hnot : t.id ∉ m.get key := by
      rw [h]
      exact not_mem_typeNodes_of_fresh hfresh _
    show (m.insert (property t) t.id).get key = _
    rw [Multimap.get_insert, Node.type?, Option.toList_some, List.filter_append, List.map_append, ← h]
    by_cases hk : property t = key
    · simp [hk, hnot]
    · simp [hk]
  | field f => simpa [Node.type?] using h
  | method f => simpa [Node.type?] using h
  | constructor f => simpa [Node.type?] using h

/-- The look-up by id goes on being a scan when a node is accepted. -/
theorem get?_insert_node {m : Std.TreeMap NodeId Node} {id : NodeId}
    (h : m.get? id = g.nodes.toList.find? (·.id = id)) (hfresh : n.id ∉ g.nodeIds) :
    (m.insert n.id n).get? id = (g.nodes.push n).toList.find? (·.id = id) := by
  rw [Std.TreeMap.get?_eq_getElem?] at h ⊢
  simp only [Array.toList_push, List.find?_append, Std.TreeMap.getElem?_insert, h]
  by_cases hid : n.id = id
  · have hnone : g.nodes.toList.find? (·.id = id) = none := by
      rw [List.find?_eq_none]
      intro m hm
      rw [decide_eq_true_eq]
      intro he
      exact hfresh (List.mem_map.2 ⟨m, hm, by rw [he, hid]⟩)
    rw [hnone, if_pos (Std.LawfulEqCmp.compare_eq_iff_eq.2 hid)]
    simp [hid]
  · rw [if_neg (fun he => hid (Std.LawfulEqCmp.compare_eq_iff_eq.1 he))]
    simp [hid]

/-- The look-up by annotation goes on being a scan when a node is accepted. -/
theorem get_insert_annotations {m : Multimap String NodeId} {name : String}
    (h : m.get name
      = (g.nodes.toList.filter fun n => n.annotations.any (·.name = name)).map Node.id)
    (hfresh : n.id ∉ g.nodeIds) :
    (n.annotations.foldl (fun m a => m.insert a.name n.id) m).get name
      = ((g.nodes.push n).toList.filter fun n => n.annotations.any (·.name = name)).map Node.id := by
  have hnot : n.id ∉ m.get name := by
    rw [h]
    exact not_mem_of_fresh hfresh _
  rw [Multimap.get_foldl_insert, Array.toList_push, List.filter_append, List.map_append, ← h]
  by_cases hany : (n.annotations.any fun a => decide (a.name = name)) = true
  · rw [if_pos ⟨hany, hnot⟩, List.filter_singleton, hany]
    rfl
  · rw [if_neg (fun hand => hany hand.1), List.filter_singleton, Bool.eq_false_iff.2 hany]
    simp

/-- An accepted node keeps every look-up a scan. -/
theorem Indexed.addNode (h : g.Indexed) (hok : g.addNode n = .ok g') : g'.Indexed := by
  obtain ⟨hc, rfl⟩ := addNode_eq_ok hok
  have hfresh : n.id ∉ g.nodeIds := fun hin => by
    rw [(h.contains_iff n.id).2 hin] at hc
    exact absurd hc (by simp)
  have hids : ({ g with
      nodes := g.nodes.push n
      byId := g.byId.insert n.id n
      indexes := g.indexes.addNode n } : Graph).nodeIds = g.nodeIds ++ [n.id] := by
    simp [nodeIds]
  refine
    { nodup := ?_
      ends := ?_
      node := ?_
      outgoing := h.outgoing
      incoming := h.incoming
      byKind := h.byKind
      types := ?_
      members := ?_
      byPackage := ?_
      byForm := ?_
      byAnnotation := ?_
      -- a node changes none of the look-ups by relation
      declaredMembers := by cases n <;> exact h.declaredMembers
      declaringType := by cases n <;> exact h.declaringType
      subtypes := by cases n <;> exact h.subtypes
      supertypes := by cases n <;> exact h.supertypes
      implementors := by cases n <;> exact h.implementors
      implementedInterfaces := by cases n <;> exact h.implementedInterfaces
      fieldsByType := by cases n <;> exact h.fieldsByType
      methodsByReturnType := by cases n <;> exact h.methodsByReturnType
      membersByParameterType := by cases n <;> exact h.membersByParameterType
      signatureUsers := by cases n <;> exact h.signatureUsers
      signatureTypes := by cases n <;> exact h.signatureTypes
      signatureProofs := by cases n <;> exact h.signatureProofs }
  · -- nodup
    rw [hids]
    refine List.nodup_append.2 ⟨h.nodup, List.nodup_singleton _, ?_⟩
    intro a ha b hb hab
    rw [List.mem_singleton] at hb
    subst hb hab
    exact hfresh ha
  · -- ends
    intro e he
    rw [hids]
    obtain ⟨hs, ht⟩ := h.ends e he
    exact ⟨List.mem_append_left _ hs, List.mem_append_left _ ht⟩
  · -- node
    intro id
    exact get?_insert_node (h.node id) hfresh
  · -- types
    rw [Indexes.types_addNode, h.types, Array.toList_push, List.filter_append, List.map_append]
    cases n <;> rfl
  · -- members
    rw [Indexes.members_addNode, h.members, Array.toList_push, List.filter_append, List.map_append]
    cases n <;> rfl
  · -- byPackage
    intro package
    rw [Indexes.byPackage_addNode]
    exact (get_insert_type (h.byPackage package) hfresh).trans (by rw [← typeNodes_push]; rfl)
  · -- byForm: labels tell forms apart
    intro form
    have hlabel : ∀ t : TypeNode, decide (t.form.label = form.label) = decide (t.form = form) :=
      fun t => decide_eq_decide.2 ⟨TypeForm.label_injective, fun he => by rw [he]⟩
    have hold := h.byForm form
    simp only [← hlabel] at hold ⊢
    rw [Indexes.byForm_addNode]
    exact (get_insert_type hold hfresh).trans (by rw [← typeNodes_push]; rfl)
  · -- byAnnotation
    intro name
    rw [Indexes.byAnnotation_addNode]
    exact get_insert_annotations (h.byAnnotation name) hfresh

end Node

/-! ## Accepted edges -/

section Edge

variable {g g' : Graph} {e : Edge}

/-- What is known of an edge that was accepted. -/
theorem addEdge_eq_ok (h : g.addEdge e = .ok g') :
    g.contains e.source = true ∧ g.contains e.target = true ∧
    g' = { g with
      edges := g.edges.push e
      outgoing := g.outgoing.push e.source e
      incoming := g.incoming.push e.target e
      byKind := g.byKind.push e.kind.label e
      indexes := g.indexes.addEdge e } := by
  unfold addEdge at h
  split at h
  · exact absurd h (by simp)
  · split at h
    · exact absurd h (by simp)
    · rename_i hs ht
      exact ⟨by simpa using hs, by simpa using ht, (Except.ok.inj h).symm⟩

variable (hedges : g'.edges = g.edges.push e)

include hedges

theorem targetsOf_push (kind : EdgeKind) (id : NodeId) :
    g'.targetsOf kind id
      = g.targetsOf kind id ++ if e.kind = kind ∧ e.source = id then [e.target] else [] := by
  rw [targetsOf, hedges, Array.toList_push, List.filter_append, List.map_append, ← targetsOf]
  by_cases he : e.kind = kind ∧ e.source = id <;> simp [he]

theorem sourcesOf_push (kind : EdgeKind) (id : NodeId) :
    g'.sourcesOf kind id
      = g.sourcesOf kind id ++ if e.kind = kind ∧ e.target = id then [e.source] else [] := by
  rw [sourcesOf, hedges, Array.toList_push, List.filter_append, List.map_append, ← sourcesOf]
  by_cases he : e.kind = kind ∧ e.target = id <;> simp [he]

theorem proofsOf_push (interface used : NodeId) :
    g'.proofsOf interface used
      = g.proofsOf interface used
        ++ if e.kind = .usesInSignature ∧ (e.source, e.target) = (interface, used)
          then e.proof.toList else [] := by
  rw [proofsOf, hedges, Array.toList_push, List.filter_append, List.filterMap_append, ← proofsOf]
  by_cases he : e.kind = .usesInSignature ∧ e.source = interface ∧ e.target = used
  · obtain ⟨hk, hs, ht⟩ := he
    cases hp : e.proof <;> simp [hk, hs, ht, hp]
  · simp [he]

/-- A look-up of targets goes on being a scan when an edge is put into it. -/
theorem get_insert_target {m : Multimap NodeId NodeId} {kind : EdgeKind}
    (h : ∀ id, m.get id = distinct (g.targetsOf kind id)) (id : NodeId) :
    (if e.kind = kind then m.insert e.source e.target else m).get id
      = distinct (g'.targetsOf kind id) := by
  rw [targetsOf_push hedges]
  exact Multimap.get_insert_if h _ _ _ _

/-- A look-up of sources goes on being a scan when an edge is put into it. -/
theorem get_insert_source {m : Multimap NodeId NodeId} {kind : EdgeKind}
    (h : ∀ id, m.get id = distinct (g.sourcesOf kind id)) (id : NodeId) :
    (if e.kind = kind then m.insert e.target e.source else m).get id
      = distinct (g'.sourcesOf kind id) := by
  rw [sourcesOf_push hedges]
  exact Multimap.get_insert_if h _ _ _ _

/-- A look-up of edges by an end or a label goes on being a scan when an edge is put into it. -/
theorem get_push_edge {κ : Type} [Ord κ] [Std.TransOrd κ] [Std.LawfulEqOrd κ] [DecidableEq κ]
    {m : Multimap κ Edge} {property : Edge → κ} {key : κ}
    (h : m.get key = g.edges.toList.filter (property · = key)) :
    (m.push (property e) e).get key = g'.edges.toList.filter (property · = key) := by
  rw [Multimap.get_push, hedges, Array.toList_push, List.filter_append, h]
  by_cases hk : property e = key <;> simp [hk]

/-- The look-up of the declaring type goes on giving the last one when an edge is put into it. -/
theorem get?_insert_declaring {m : Std.TreeMap NodeId NodeId} {id : NodeId}
    (h : m.get? id = (g.sourcesOf .declares id).getLast?) :
    (if e.kind = .declares then m.insert e.target e.source else m).get? id
      = (g'.sourcesOf .declares id).getLast? := by
  rw [sourcesOf_push hedges]
  by_cases hk : e.kind = .declares
  · rw [if_pos hk, Std.TreeMap.get?_eq_getElem?, Std.TreeMap.getElem?_insert,
      ← Std.TreeMap.get?_eq_getElem?, h]
    by_cases hid : e.target = id
    · rw [if_pos (Std.LawfulEqCmp.compare_eq_iff_eq.2 hid), if_pos ⟨hk, hid⟩]
      simp
    · rw [if_neg (fun he => hid (Std.LawfulEqCmp.compare_eq_iff_eq.1 he)),
        if_neg (fun hand => hid hand.2), List.append_nil]
  · rw [if_neg hk, h, if_neg (fun hand => hk hand.1), List.append_nil]

omit hedges

/-- An accepted edge keeps every look-up a scan. -/
theorem Indexed.addEdge (h : g.Indexed) (hok : g.addEdge e = .ok g') : g'.Indexed := by
  obtain ⟨hsource, htarget, hg'⟩ := addEdge_eq_ok hok
  have hedges : g'.edges = g.edges.push e := by rw [hg']
  have hnodes : g'.nodes = g.nodes := by rw [hg']
  have hids : g'.nodeIds = g.nodeIds := by rw [nodeIds, hnodes, ← nodeIds]
  have htypes : g'.typeNodes = g.typeNodes := by rw [typeNodes, hnodes, ← typeNodes]
  have hix : g'.indexes = g.indexes.addEdge e := by rw [hg']
  obtain ⟨htypes_ix, hmembers_ix, hpackage_ix, hform_ix, hannotation_ix⟩ :=
    g.indexes.properties_addEdge e
  refine
    { nodup := ?_
      ends := ?_
      node := ?_
      outgoing := ?_
      incoming := ?_
      byKind := ?_
      types := by rw [hix, htypes_ix, hnodes, h.types]
      members := by rw [hix, hmembers_ix, hnodes, h.members]
      byPackage := fun package => by rw [hix, hpackage_ix, htypes, h.byPackage package]
      byForm := fun form => by rw [hix, hform_ix, htypes, h.byForm form]
      byAnnotation := fun name => by rw [hix, hannotation_ix, hnodes, h.byAnnotation name]
      declaredMembers := ?_
      declaringType := ?_
      subtypes := ?_
      supertypes := ?_
      implementors := ?_
      implementedInterfaces := ?_
      fieldsByType := ?_
      methodsByReturnType := ?_
      membersByParameterType := ?_
      signatureUsers := ?_
      signatureTypes := ?_
      signatureProofs := ?_ }
  · -- nodup
    rw [hids]
    exact h.nodup
  · -- ends
    intro d hd
    rw [hedges, Array.mem_push] at hd
    rw [hids]
    rcases hd with hd | rfl
    · exact h.ends d hd
    · exact ⟨(h.contains_iff _).1 hsource, (h.contains_iff _).1 htarget⟩
  · -- node
    intro id
    rw [hnodes, ← h.node id, hg']
    rfl
  · -- outgoing
    intro id
    rw [← get_push_edge hedges (h.outgoing id), hg']
    rfl
  · -- incoming
    intro id
    rw [← get_push_edge hedges (h.incoming id), hg']
    rfl
  · -- byKind: labels tell relations apart
    intro kind
    have hlabel : ∀ d : Edge, decide (d.kind.label = kind.label) = decide (d.kind = kind) :=
      fun d => decide_eq_decide.2 ⟨EdgeKind.label_injective, fun he => by rw [he]⟩
    have hold := h.byKind kind
    simp only [← hlabel] at hold ⊢
    rw [← get_push_edge hedges hold, hg']
    rfl
  · -- declaredMembers
    rw [hix, Indexes.declaredMembers_addEdge]
    exact get_insert_target hedges h.declaredMembers
  · -- declaringType
    intro id
    rw [hix, Indexes.declaringType_addEdge]
    exact get?_insert_declaring hedges (h.declaringType id)
  · -- subtypes
    rw [hix, Indexes.subtypes_addEdge]
    exact get_insert_source hedges h.subtypes
  · -- supertypes
    rw [hix, Indexes.supertypes_addEdge]
    exact get_insert_target hedges h.supertypes
  · -- implementors
    rw [hix, Indexes.implementors_addEdge]
    exact get_insert_source hedges h.implementors
  · -- implementedInterfaces
    rw [hix, Indexes.implementedInterfaces_addEdge]
    exact get_insert_target hedges h.implementedInterfaces
  · -- fieldsByType
    rw [hix, Indexes.fieldsByType_addEdge]
    exact get_insert_source hedges h.fieldsByType
  · -- methodsByReturnType
    rw [hix, Indexes.methodsByReturnType_addEdge]
    exact get_insert_source hedges h.methodsByReturnType
  · -- membersByParameterType
    rw [hix, Indexes.membersByParameterType_addEdge]
    exact get_insert_source hedges h.membersByParameterType
  · -- signatureUsers
    rw [hix, Indexes.signatureUsers_addEdge]
    exact get_insert_source hedges h.signatureUsers
  · -- signatureTypes
    rw [hix, Indexes.signatureTypes_addEdge]
    exact get_insert_target hedges h.signatureTypes
  · -- signatureProofs: an edge without a proof adds none
    intro interface used
    rw [Graph.signatureProofs, hix, Indexes.signatureProofs_addEdge, proofsOf_push hedges]
    have hold : ∀ k : NodeId × NodeId,
        g.indexes.signatureProofs.get k = distinct (g.proofsOf k.1 k.2) :=
      fun k => h.signatureProofs k.1 k.2
    cases hp : e.proof with
    | none => simpa using hold (interface, used)
    | some proof => exact Multimap.get_insert_if hold _ _ _ _

end Edge

/-! ## Sequences of calls -/

/-- Without nodes and edges every look-up is empty. -/
theorem Indexed.withMetadata (metadata : Metadata) : (Graph.withMetadata metadata).Indexed where
  nodup := List.nodup_nil
  ends _ he := absurd he (by simp [Graph.withMetadata])
  node _ := by simp [node?, Graph.withMetadata]
  outgoing _ := by simp [edgesFrom, Graph.withMetadata]
  incoming _ := by simp [edgesTo, Graph.withMetadata]
  byKind _ := by simp [edgesOfKind, Graph.withMetadata]
  types := rfl
  members := rfl
  byPackage _ := Multimap.get_empty _
  byForm _ := Multimap.get_empty _
  byAnnotation _ := Multimap.get_empty _
  declaredMembers _ := Multimap.get_empty _
  declaringType _ := by simp [sourcesOf, Graph.withMetadata]
  subtypes _ := Multimap.get_empty _
  supertypes _ := Multimap.get_empty _
  implementors _ := Multimap.get_empty _
  implementedInterfaces _ := Multimap.get_empty _
  fieldsByType _ := Multimap.get_empty _
  methodsByReturnType _ := Multimap.get_empty _
  membersByParameterType _ := Multimap.get_empty _
  signatureUsers _ := Multimap.get_empty _
  signatureTypes _ := Multimap.get_empty _
  signatureProofs _ _ := Multimap.get_empty _

theorem Indexed.add {g g' : Graph} {i : Insertion} (h : g.Indexed) (hok : g.add i = .ok g') :
    g'.Indexed := by
  cases i with
  | node n => exact h.addNode hok
  | edge e => exact h.addEdge hok

/-- The graph after a call: a refused node or edge leaves it as it is. -/
def attempt (g : Graph) (i : Insertion) : Graph :=
  match g.add i with
  | .ok g' => g'
  | .error _ => g

/-- The graph after a sequence of calls, accepted or not. -/
def ofAttempts (calls : List Insertion) : Graph := calls.foldl attempt empty

theorem ofAttempts_append_singleton (calls : List Insertion) (i : Insertion) :
    ofAttempts (calls ++ [i]) = (ofAttempts calls).attempt i := by
  simp [ofAttempts]

theorem Indexed.attempt {g : Graph} (h : g.Indexed) (i : Insertion) : (g.attempt i).Indexed := by
  unfold Graph.attempt
  split
  · rename_i g' hok
    exact h.add hok
  · exact h

/-- Look-ups stay scans through any sequence of calls. -/
theorem Indexed.foldl_attempt {g : Graph} (h : g.Indexed) (calls : List Insertion) :
    (calls.foldl Graph.attempt g).Indexed := by
  induction calls generalizing g with
  | nil => exact h
  | cons i calls ih => exact ih (h.attempt i)

theorem Indexed.ofAttempts (calls : List Insertion) : (Graph.ofAttempts calls).Indexed :=
  (Indexed.withMetadata .empty).foldl_attempt calls

/-- The nodes after a call: one more if a node was accepted. -/
theorem mem_nodes_attempt {g : Graph} {i : Insertion} {n : Node} :
    n ∈ (g.attempt i).nodes ↔ n ∈ g.nodes ∨ (i = .node n ∧ (g.addNode n).isOk = true) := by
  cases i with
  | node m =>
    cases hadd : g.addNode m with
    | ok g' =>
      have hg' : g.attempt (.node m) = g' := by simp [attempt, add, hadd]
      obtain ⟨-, rfl⟩ := addNode_eq_ok hadd
      rw [hg', Array.mem_push]
      refine or_congr_right ⟨?_, fun hn => (Insertion.node.inj hn.1).symm⟩
      rintro rfl
      exact ⟨rfl, by rw [hadd]; rfl⟩
    | error err =>
      have hg' : g.attempt (.node m) = g := by simp [attempt, add, hadd]
      rw [hg']
      refine ⟨.inl, fun hn => hn.resolve_right ?_⟩
      rintro ⟨hm, hok⟩
      rw [← Insertion.node.inj hm, hadd] at hok
      exact absurd hok (by simp [Except.isOk, Except.toBool])
  | edge e =>
    have hnodes : (g.attempt (.edge e)).nodes = g.nodes := by
      cases hadd : g.addEdge e with
      | ok g' =>
        obtain ⟨-, -, rfl⟩ := addEdge_eq_ok hadd
        simp [attempt, add, hadd]
      | error err => simp [attempt, add, hadd]
    rw [hnodes]
    simp

/-- The nodes are those that were accepted. -/
theorem mem_nodes_ofAttempts {calls : List Insertion} {n : Node} :
    n ∈ (ofAttempts calls).nodes ↔ ∃ before after, calls = before ++ .node n :: after ∧
      ((ofAttempts before).addNode n).isOk = true := by
  induction calls using List.reverseRecOn with
  | nil => simp [ofAttempts, empty]
  | append_singleton calls i ih =>
    rw [ofAttempts_append_singleton, mem_nodes_attempt, ih]
    constructor
    · rintro (⟨before, after, rfl, hok⟩ | ⟨rfl, hok⟩)
      · exact ⟨before, after ++ [i], by simp, hok⟩
      · exact ⟨calls, [], rfl, hok⟩
    · rintro ⟨before, after, hcalls, hok⟩
      rcases List.eq_nil_or_concat after with rfl | ⟨after, j, rfl⟩
      · obtain ⟨rfl, hi⟩ := List.append_inj' hcalls rfl
        exact .inr ⟨List.cons.inj hi |>.1, hok⟩
      · rw [List.concat_eq_append, ← List.cons_append, ← List.append_assoc] at hcalls
        obtain ⟨rfl, -⟩ := List.append_inj' hcalls rfl
        exact .inl ⟨before, after, rfl, hok⟩

theorem Indexed.node?_eq_some {g : Graph} (h : g.Indexed) {id : NodeId} {n : Node} :
    g.node? id = some n ↔ n ∈ g.nodes ∧ n.id = id := by
  rw [h.node id]
  constructor
  · intro hfind
    exact ⟨Array.mem_toList_iff.1 (List.mem_of_find?_eq_some hfind),
      by simpa using List.find?_some hfind⟩
  · rintro ⟨hn, rfl⟩
    have hsome : (g.nodes.toList.find? (·.id = n.id)).isSome := by
      rw [List.find?_isSome]
      exact ⟨n, Array.mem_toList_iff.2 hn, by simp⟩
    obtain ⟨m, hm⟩ := Option.isSome_iff_exists.1 hsome
    have hid : m.id = n.id := by simpa using List.find?_some hm
    rw [hm, List.inj_on_of_nodup_map h.nodup (List.mem_of_find?_eq_some hm)
      (Array.mem_toList_iff.2 hn) hid]

theorem Indexed.typeIds_nodup {g : Graph} (h : g.Indexed) : g.indexes.types.toList.Nodup := by
  rw [h.types]
  exact (List.filter_sublist.map Node.id).nodup h.nodup

theorem Indexed.mem_typeIds {g : Graph} (h : g.Indexed) {id : NodeId}
    (hid : (g.type? id).isSome = true) : id ∈ g.indexes.types.toList := by
  obtain ⟨t, ht⟩ := Option.isSome_iff_exists.1 hid
  obtain ⟨n, hn, hnt⟩ := Option.bind_eq_some_iff.1 ht
  obtain ⟨hmem, rfl⟩ := h.node?_eq_some.1 hn
  rw [h.types]
  refine List.mem_map_of_mem (List.mem_filter.2 ⟨Array.mem_toList_iff.2 hmem, ?_⟩)
  cases n <;> simp_all [Node.type?, Node.isMember]

theorem Indexed.type?_of_mem {g : Graph} (h : g.Indexed) {n : Node} (hn : n ∈ g.nodes) :
    g.type? n.id = n.type? := by
  rw [type?, h.node?_eq_some.2 ⟨hn, rfl⟩, Option.bind_some]

/-- The types are those among the nodes. -/
theorem Indexed.types_eq {g : Graph} (h : g.Indexed) : g.types = g.typeNodes := by
  rw [Graph.types, resolveTypes, h.types, List.filterMap_map, List.filterMap_filter, typeNodes]
  refine List.filterMap_congr fun n hn => ?_
  rw [Function.comp_apply, h.type?_of_mem (Array.mem_toList_iff.1 hn)]
  cases n <;> rfl

theorem Indexed.typeNodes_nodup {g : Graph} (h : g.Indexed) :
    (g.typeNodes.map (·.id)).Nodup := by
  have hids : g.typeNodes.map (·.id) = g.indexes.types.toList := by
    rw [h.types, typeNodes, List.map_filterMap, ← List.filterMap_eq_filter, List.map_filterMap]
    refine List.filterMap_congr fun n _ => ?_
    cases n <;> rfl
  rw [hids]
  exact h.typeIds_nodup

/-- The type of an id is the one among the nodes that has it. -/
theorem Indexed.type?_eq_some {g : Graph} (h : g.Indexed) {id : NodeId} {t : TypeNode} :
    g.type? id = some t ↔ t ∈ g.typeNodes ∧ t.id = id := by
  constructor
  · intro ht
    obtain ⟨n, hn, hnt⟩ := Option.bind_eq_some_iff.1 ht
    obtain ⟨hmem, hid⟩ := h.node?_eq_some.1 hn
    refine ⟨List.mem_filterMap.2 ⟨n, Array.mem_toList_iff.2 hmem, hnt⟩, ?_⟩
    cases n <;> simp_all [Node.type?, Node.id]
  · rintro ⟨ht, rfl⟩
    obtain ⟨n, hn, hnt⟩ := List.mem_filterMap.1 ht
    have hid : n.id = t.id := by cases n <;> simp_all [Node.type?, Node.id]
    rw [← hid, h.type?_of_mem (Array.mem_toList_iff.1 hn), hnt]

theorem Indexed.type?_of_mem_types {g : Graph} (h : g.Indexed) {t : TypeNode} (ht : t ∈ g.types) :
    g.type? t.id = some t :=
  h.type?_eq_some.2 ⟨h.types_eq ▸ ht, rfl⟩

theorem Indexed.node?_of_mem_types {g : Graph} (h : g.Indexed) {t : TypeNode} (ht : t ∈ g.types) :
    g.node? t.id = some (.type t) := by
  rw [h.types_eq] at ht
  obtain ⟨n, hn, hnt⟩ := List.mem_filterMap.1 ht
  obtain rfl : n = .type t := by cases n <;> simp_all [Node.type?]
  exact h.node?_eq_some.2 ⟨Array.mem_toList_iff.1 hn, rfl⟩

/-- The interfaces are those among the types. -/
theorem Indexed.interfaces_eq {g : Graph} (h : g.Indexed) :
    g.interfaces = g.typeNodes.filter (·.isInterface) := by
  rw [interfaces, typesOfForm, h.byForm, resolveTypes, List.filterMap_map]
  have hfind : ∀ t ∈ g.typeNodes.filter (·.form = .interface), (g.type? ∘ (·.id)) t = some t :=
    fun t ht => h.type?_eq_some.2 ⟨(List.mem_filter.1 ht).1, rfl⟩
  rw [List.filterMap_congr hfind, List.filterMap_some]
  rfl

/-- Nodes are found again by their ids. -/
theorem Indexed.resolve_map_id {g : Graph} (h : g.Indexed) {nodes : List Node}
    (hnodes : ∀ n ∈ nodes, n ∈ g.nodes) : g.resolve (nodes.map Node.id) = nodes := by
  rw [resolve, List.filterMap_map]
  have hfind : ∀ n ∈ nodes, (g.node? ∘ Node.id) n = some n := fun n hn =>
    h.node?_eq_some.2 ⟨hnodes n hn, rfl⟩
  rw [List.filterMap_congr hfind, List.filterMap_some]

/-- A type that is found by an id is found by its own. -/
theorem Indexed.type?_of_mem_resolveTypes {g : Graph} (h : g.Indexed) {ids : List NodeId}
    {t : TypeNode} (ht : t ∈ g.resolveTypes ids) : t.id ∈ ids ∧ g.type? t.id = some t := by
  obtain ⟨id, hid, htype⟩ := List.mem_filterMap.1 ht
  obtain rfl : t.id = id := (h.type?_eq_some.1 htype).2
  exact ⟨hid, htype⟩

/-- The types of some ids come in the order of the ids. -/
theorem Indexed.resolveTypes_sublist {g : Graph} (h : g.Indexed) (ids : List NodeId) :
    ((g.resolveTypes ids).map (·.id)).Sublist ids := by
  induction ids with
  | nil => exact .slnil
  | cons id rest ih =>
    cases htype : g.type? id with
    | none =>
      rw [resolveTypes, List.filterMap_cons_none htype]
      exact ih.cons id
    | some t =>
      rw [resolveTypes, List.filterMap_cons_some htype, List.map_cons, (h.type?_eq_some.1 htype).2]
      exact ih.cons_cons id

/-- Whatever nodes and edges a graph is given, and whichever of them it refuses: ids stay different,
edges have both their ends, every look-up is the scan of the nodes or edges that it stands for, and
the node of an id is the one that was accepted with it. -/
theorem lookups_eq_scans (calls : List Insertion) :
    (ofAttempts calls).Indexed ∧
    ∀ id n, (ofAttempts calls).node? id = some n ↔
      n.id = id ∧ ∃ before after, calls = before ++ .node n :: after ∧
        ((ofAttempts before).addNode n).isOk = true := by
  have h := Indexed.ofAttempts calls
  refine ⟨h, fun id n => ?_⟩
  rw [h.node?_eq_some, mem_nodes_ofAttempts, and_comm]

end Graph

end RoleAudit
