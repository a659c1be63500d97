import RoleAudit.Model.Build
import RoleAudit.Proofs.Graph.Insertions

/-!
# The graph of a model

A model has a graph exactly if no two of its declarations have one id. The graph then has the nodes
`Model.nodes` and the edges `Model.edges`, and every edge leaves the type that states it or one of
the members of that type.
-/

namespace RoleAudit

open Insertion

/-- Where only one item gives a list that is not empty, that list is all. -/
theorem flatMap_eq_of_forall_ne {ι β : Type} {l : List ι} {f : ι → List β} {i : ι} (hl : l.Nodup)
    (hi : i ∈ l) (h : ∀ j ∈ l, j ≠ i → f j = []) : l.flatMap f = f i := by
  obtain ⟨before, after, rfl⟩ := List.append_of_mem hi
  have hni : i ∉ before ++ after := (List.nodup_middle.1 hl).notMem
  have hnil : ∀ j ∈ before ++ after, f j = [] := by
    intro j hj
    refine h j ?_ fun hji => hni (hji ▸ hj)
    rcases List.mem_append.1 hj with hj | hj <;> simp [hj]
  have hbefore : before.flatMap f = [] :=
    List.flatMap_eq_nil_iff.2 fun j hj => hnil j (List.mem_append_left _ hj)
  have hafter : after.flatMap f = [] :=
    List.flatMap_eq_nil_iff.2 fun j hj => hnil j (List.mem_append_right _ hj)
  rw [List.flatMap_append, List.flatMap_cons, hbefore, hafter, List.nil_append, List.append_nil]

/-- Only the items that give something count. -/
theorem flatMap_filter_eq {ι β : Type} {l : List ι} {c : ι → Bool} {f : ι → List β}
    (h : ∀ i ∈ l, c i = false → f i = []) : l.flatMap f = (l.filter c).flatMap f := by
  induction l with
  | nil => rfl
  | cons i rest ih =>
    have hrest := ih fun j hj => h j (List.mem_cons_of_mem i hj)
    cases hc : c i with
    | true => rw [List.filter_cons_of_pos hc, List.flatMap_cons, List.flatMap_cons, hrest]
    | false =>
      rw [List.filter_cons_of_neg (by simp [hc]), List.flatMap_cons, h i List.mem_cons_self hc,
        hrest, List.nil_append]

/-- Lists without repeats follow each other without repeats if a key of their items tells which list
an item is from. -/
theorem nodup_flatMap_of_key {ι β κ : Type} {l : List ι} {f : ι → List β} {name : ι → κ}
    (key : β → κ) (hnames : (l.map name).Nodup) (heach : ∀ i ∈ l, (f i).Nodup)
    (hkey : ∀ i ∈ l, ∀ b ∈ f i, key b = name i) : (l.flatMap f).Nodup := by
  refine List.nodup_flatMap.2 ⟨heach, ?_⟩
  refine (List.pairwise_map.1 hnames).imp_of_mem fun {i j} hi hj hne => ?_
  intro b hbi hbj
  exact hne ((hkey i hi b hbi).symm.trans (hkey j hj b hbj))

/-- A reference mentions a name as its own or inside one of its arguments. -/
inductive TypeRef.Mentions : TypeRef → String → Prop
  /-- Its own name. -/
  | own (name : String) (arguments : List TypeRef) : Mentions ⟨name, arguments⟩ name
  /-- A name that an argument mentions. -/
  | argument {name mentioned : String} {arguments : List TypeRef} {a : TypeRef}
    (ha : a ∈ arguments) (h : Mentions a mentioned) : Mentions ⟨name, arguments⟩ mentioned

theorem TypeRef.Mentions.mem_names {r : TypeRef} {name : String} (h : r.Mentions name) :
    name ∈ r.names := by
  induction h with
  | own name arguments => exact List.mem_cons_self
  | argument ha _ ih =>
    rw [names, namesOfAll_eq_flatMap]
    exact List.mem_cons_of_mem _ (List.mem_flatMap.2 ⟨_, ha, ih⟩)

theorem TypeRef.Mentions.of_mem_names (r : TypeRef) (name : String) (h : name ∈ r.names) :
    r.Mentions name := by
  match r with
  | ⟨first, arguments⟩ =>
    rw [names, namesOfAll_eq_flatMap, List.mem_cons, List.mem_flatMap] at h
    rcases h with rfl | ⟨a, ha, hname⟩
    · exact .own _ _
    · exact .argument ha (of_mem_names a name hname)
termination_by sizeOf r
decreasing_by
  have := List.sizeOf_lt_of_mem ha
  simp
  omega

/-- The names of a reference are those that it mentions. -/
theorem TypeRef.mem_names_iff {r : TypeRef} {name : String} : name ∈ r.names ↔ r.Mentions name :=
  ⟨.of_mem_names r name, fun h => h.mem_names⟩

theorem TypeRef.mem_namesOfAll {refs : List TypeRef} {name : String} :
    name ∈ TypeRef.namesOfAll refs ↔ ∃ r ∈ refs, name ∈ r.names := by
  rw [namesOfAll_eq_flatMap, List.mem_flatMap]

theorem NodeId.ofType_injective {a b : String} (h : NodeId.ofType a = NodeId.ofType b) : a = b :=
  (String.append_right_inj _).1 (NodeId.mk.inj h)

/-- The edges from a member to the known types that it mentions. -/
def Node.uses (known : String → Bool) : Node → List Edge
  | .type _ => []
  | .field f => usageEdges known f.id .fieldType [f.type]
  | .method m =>
    usageEdges known m.id .returnType (if m.returnType.isVoid then [] else [m.returnType])
      ++ usageEdges known m.id .parameterType (m.parameters.map (·.type))
  | .constructor c => usageEdges known c.id .parameterType (c.parameters.map (·.type))

theorem mem_knownNames {known : String → Bool} {refs : List TypeRef} {name : String} :
    name ∈ knownNames known refs ↔ name ∈ TypeRef.namesOfAll refs ∧ known name = true := by
  rw [knownNames, mem_distinct, List.mem_filter]

theorem mem_usageEdges {known : String → Bool} {member : NodeId} {kind : EdgeKind}
    {refs : List TypeRef} {e : Edge} :
    e ∈ usageEdges known member kind refs ↔
      ∃ name ∈ TypeRef.namesOfAll refs, known name = true ∧ e = .raw member (.ofType name) kind := by
  simp only [usageEdges, List.mem_map, mem_knownNames]
  constructor
  · rintro ⟨name, ⟨hname, hknown⟩, rfl⟩
    exact ⟨name, hname, hknown, rfl⟩
  · rintro ⟨name, hname, hknown, rfl⟩
    exact ⟨name, ⟨hname, hknown⟩, rfl⟩

/-- The edges of a member leave it, enter a known type and say that it mentions the type. -/
theorem Node.of_mem_uses {known : String → Bool} {n : Node} {e : Edge} (h : e ∈ n.uses known) :
    e.source = n.id ∧ (∃ name, known name = true ∧ e.target = .ofType name) ∧
      e.kind.isTypeUsage = true := by
  cases n with
  | type t => exact absurd h List.not_mem_nil
  | field f =>
    obtain ⟨name, -, hknown, rfl⟩ := mem_usageEdges.1 h
    exact ⟨rfl, ⟨name, hknown, rfl⟩, rfl⟩
  | method m =>
    rcases List.mem_append.1 h with h | h <;> obtain ⟨name, -, hknown, rfl⟩ := mem_usageEdges.1 h
    · exact ⟨rfl, ⟨name, hknown, rfl⟩, rfl⟩
    · exact ⟨rfl, ⟨name, hknown, rfl⟩, rfl⟩
  | constructor c =>
    obtain ⟨name, -, hknown, rfl⟩ := mem_usageEdges.1 h
    exact ⟨rfl, ⟨name, hknown, rfl⟩, rfl⟩

theorem Node.kind_of_mem_uses {known : String → Bool} {n : Node} {e : Edge} (h : e ∈ n.uses known) :
    e.kind ≠ .declares := by
  intro hkind
  have husage := (of_mem_uses h).2.2
  rw [hkind] at husage
  exact absurd husage (by simp [EdgeKind.isTypeUsage])

namespace SourceType

variable (known : String → Bool) (t : SourceType)

/-- The nodes of the members, in the order of the insertions. -/
def memberNodes : List Node :=
  t.fields.map (fun f => .field (t.fieldNode f))
    ++ t.methods.map (fun m => .method (t.methodNode m))
    ++ t.constructors.map fun c => .constructor (t.constructorNode c)

variable {t} in
theorem type?_eq_none {n : Node} (h : n ∈ t.memberNodes) : n.type? = none := by
  simp only [memberNodes, List.mem_append, List.mem_map] at h
  obtain (⟨_, -, rfl⟩ | ⟨_, -, rfl⟩) | ⟨_, -, rfl⟩ := h <;> rfl

variable {t} in
theorem owner?_of_mem_memberNodes {n : Node} (h : n ∈ t.memberNodes) : n.owner? = some t.id := by
  simp only [memberNodes, List.mem_append, List.mem_map] at h
  obtain (⟨_, -, rfl⟩ | ⟨_, -, rfl⟩) | ⟨_, -, rfl⟩ := h <;> rfl

/-- The ids of the type and its members. -/
def nodeIds : List NodeId := t.id :: t.memberNodes.map Node.id

/-- The edges that the declaration of the type states. -/
def bodyEdges : List Edge :=
  t.hierarchyEdges known
    ++ t.memberNodes.flatMap fun n => .raw t.id n.id .declares :: n.uses known

theorem methodNode_parameterTypes (m : SourceMethod) :
    (t.methodNode m).parameters.map (·.type) = m.parameters.map (·.type) := by
  simp [methodNode, SourceParameter.toParameter, Function.comp_def]

theorem constructorNode_parameterTypes (c : SourceConstructor) :
    (t.constructorNode c).parameters.map (·.type) = c.parameters.map (·.type) := by
  simp [constructorNode, SourceParameter.toParameter, Function.comp_def]

theorem methodInsertions_eq (m : SourceMethod) :
    t.methodInsertions known m
      = t.memberInsertions (.method (t.methodNode m)) ((Node.method (t.methodNode m)).uses known) := by
  rw [Node.uses, methodNode_parameterTypes]
  rfl

theorem constructorInsertions_eq (c : SourceConstructor) :
    t.constructorInsertions known c
      = t.memberInsertions (.constructor (t.constructorNode c))
        ((Node.constructor (t.constructorNode c)).uses known) := by
  rw [Node.uses, constructorNode_parameterTypes]
  rfl

/-- A declaration adds the edges of its hierarchy, then its members one after the other. -/
theorem bodyInsertions_eq :
    t.bodyInsertions known = (t.hierarchyEdges known).map .edge
      ++ t.memberNodes.flatMap fun n => t.memberInsertions n (n.uses known) := by
  rw [bodyInsertions, funext (t.methodInsertions_eq known),
    funext (t.constructorInsertions_eq known), memberNodes]
  simp only [List.flatMap_append, List.flatMap_map, List.append_assoc]
  rfl

theorem nodesOf_bodyInsertions : nodesOf (t.bodyInsertions known) = t.memberNodes := by
  rw [bodyInsertions_eq, nodesOf_append, nodesOf_map_edge, List.nil_append, nodesOf_flatMap]
  simp [memberInsertions, List.flatMap_singleton']

theorem edgesOf_bodyInsertions : edgesOf (t.bodyInsertions known) = t.bodyEdges known := by
  rw [bodyInsertions_eq, edgesOf_append, edgesOf_map_edge, edgesOf_flatMap, bodyEdges]
  simp [memberInsertions]

variable {known t}

theorem of_mem_hierarchyEdges {e : Edge} (h : e ∈ t.hierarchyEdges known) :
    e.source = t.id ∧ (∃ name, known name = true ∧ e.target = .ofType name) ∧
      (e.kind = .extends ∨ e.kind = .implements) := by
  rcases List.mem_append.1 h with h | h <;> obtain ⟨r, hr, rfl⟩ := List.mem_map.1 h
  · exact ⟨rfl, ⟨r.name, (List.mem_filter.1 hr).2, rfl⟩, Or.inl rfl⟩
  · exact ⟨rfl, ⟨r.name, (List.mem_filter.1 hr).2, rfl⟩, Or.inr rfl⟩

/-- What a declaration states leaves the type or one of its members. -/
theorem source_mem_of_mem_bodyEdges {e : Edge} (h : e ∈ t.bodyEdges known) :
    e.source ∈ t.nodeIds := by
  rcases List.mem_append.1 h with h | h
  · rw [(of_mem_hierarchyEdges h).1]
    exact List.mem_cons_self
  · obtain ⟨n, hn, he⟩ := List.mem_flatMap.1 h
    rcases List.mem_cons.1 he with rfl | he
    · exact List.mem_cons_self
    · rw [(Node.of_mem_uses he).1]
      exact List.mem_cons_of_mem _ (List.mem_map_of_mem hn)

/-- Only the type declares its members. -/
theorem source_of_mem_bodyEdges {e : Edge} (h : e ∈ t.bodyEdges known) (hkind : e.kind = .declares) :
    e.source = t.id := by
  rcases List.mem_append.1 h with h | h
  · exact (of_mem_hierarchyEdges h).1
  · obtain ⟨n, -, he⟩ := List.mem_flatMap.1 h
    rcases List.mem_cons.1 he with rfl | he
    · rfl
    · exact absurd hkind (Node.kind_of_mem_uses he)

/-- The members are declared in order, each once. -/
theorem filter_declares_bodyEdges (known : String → Bool) (t : SourceType) :
    (t.bodyEdges known).filter (fun e => e.kind = .declares ∧ e.source = t.id)
      = t.memberNodes.map fun n => .raw t.id n.id .declares := by
  have hhierarchy : (t.hierarchyEdges known).filter
      (fun e => e.kind = .declares ∧ e.source = t.id) = [] := by
    refine List.filter_eq_nil_iff.2 fun e he hdecl => ?_
    rcases (of_mem_hierarchyEdges he).2.2 with hk | hk <;> simp [hk] at hdecl
  have hmember : ∀ n : Node, (Edge.raw t.id n.id .declares :: n.uses known).filter
      (fun e => e.kind = .declares ∧ e.source = t.id) = [.raw t.id n.id .declares] := by
    intro n
    rw [List.filter_cons_of_pos (by simp [Edge.raw])]
    refine congrArg _ (List.filter_eq_nil_iff.2 fun e he hdecl => ?_)
    exact Node.kind_of_mem_uses he (of_decide_eq_true hdecl).1
  rw [bodyEdges, List.filter_append, hhierarchy, List.nil_append, List.filter_flatMap,
    funext hmember, List.map_eq_flatMap]

/-- The derived edges of an interface: for each method and place, the other known types that are
mentioned there. -/
theorem mem_signatureEdges_iff {e : Edge} :
    e ∈ t.signatureEdges known ↔ t.form = .interface ∧ ∃ k ∈ t.methods,
      ∃ place ∈ k.positions, ∃ name ∈ place.2.names, known name = true ∧ name ≠ t.name ∧
        e = .signatureUse t.id (.ofType name) ⟨(t.methodNode k).id, place.1⟩ := by
  have hplace : ∀ (method : NodeId) (place : SignaturePosition × TypeRef),
      e ∈ t.positionEdges known method place.1 place.2 ↔
        ∃ name ∈ place.2.names, known name = true ∧ name ≠ t.name ∧
          e = .signatureUse t.id (.ofType name) ⟨method, place.1⟩ := by
    intro method place
    simp only [positionEdges, List.mem_map, List.mem_filter, mem_knownNames, TypeRef.mem_namesOfAll,
      List.mem_singleton, exists_eq_left, decide_eq_true_eq, and_assoc, @eq_comm _ _ e]
  unfold signatureEdges
  split
  · rename_i hform
    simp only [hform, true_and, List.mem_flatMap, methodSignatureEdges, hplace]
  · rename_i hform
    simp [hform]

/-- The derived edges of a type leave it, enter another known type and carry their proof. -/
theorem of_mem_signatureEdges {e : Edge} (h : e ∈ t.signatureEdges known) :
    e.source = t.id ∧ (∃ name, known name = true ∧ e.target = .ofType name) ∧
      e.kind = .usesInSignature := by
  obtain ⟨-, k, -, place, -, name, -, hknown, -, rfl⟩ := mem_signatureEdges_iff.1 h
  exact ⟨rfl, ⟨name, hknown, rfl⟩, rfl⟩

theorem provenance_of_mem_signatureEdges {e : Edge} (h : e ∈ t.signatureEdges known) :
    e.provenance = .derived := by
  obtain ⟨-, k, -, place, -, name, -, -, -, rfl⟩ := mem_signatureEdges_iff.1 h
  rfl

end SourceType

namespace Model

variable (m : Model)

/-- All nodes: the types, then the members type by type. -/
def nodes : List Node :=
  m.types.map (fun t => .type t.toNode) ++ m.types.flatMap SourceType.memberNodes

/-- All edges, with the derived ones or without. -/
def edges (derived : Bool) : List Edge :=
  m.types.flatMap (·.bodyEdges m.declares) ++ if derived then m.signatureEdges else []

theorem of_mem_derived {m : Model} {derived : Bool} {e : Edge}
    (h : e ∈ if derived then m.signatureEdges else []) :
    (∃ t ∈ m.types, e ∈ t.signatureEdges m.declares) ∧ e.kind = .usesInSignature := by
  cases derived with
  | false => exact absurd h List.not_mem_nil
  | true =>
    obtain ⟨t, ht, het⟩ := List.mem_flatMap.1 h
    exact ⟨⟨t, ht, het⟩, (SourceType.of_mem_signatureEdges het).2.2⟩

theorem declares_iff {name : String} : m.declares name = true ↔ ∃ t ∈ m.types, t.name = name := by
  unfold declares
  rw [Std.TreeSet.contains_ofList, List.contains_iff_mem, typeNames, List.mem_map]

theorem declares_of_mem {m : Model} {t : SourceType} (ht : t ∈ m.types) : m.declares t.name = true :=
  m.declares_iff.2 ⟨t, ht, rfl⟩

theorem nodesOf_insertions (derived : Bool) : nodesOf (m.insertions derived) = m.nodes := by
  cases derived <;>
    simp [insertions, rawInsertions, nodes, SourceType.nodesOf_bodyInsertions,
      nodesOf_map_node m.types fun t => Node.type t.toNode]

theorem edgesOf_insertions (derived : Bool) : edgesOf (m.insertions derived) = m.edges derived := by
  cases derived <;>
    simp [insertions, rawInsertions, edges, SourceType.edgesOf_bodyInsertions,
      edgesOf_map_node m.types fun t => Node.type t.toNode]

/-- The ids of the types. -/
def typeIds : List NodeId := m.types.map (·.id)

variable {m}

theorem mem_typeIds_of_declares {name : String} (h : m.declares name = true) :
    NodeId.ofType name ∈ m.typeIds := by
  obtain ⟨t, ht, rfl⟩ := m.declares_iff.1 h
  exact List.mem_map_of_mem ht

/-- The declaration of a type needs no more than the nodes of all types. -/
theorem scoped_bodyInsertions {t : SourceType} (ht : t ∈ m.types) :
    Scoped m.typeIds (t.bodyInsertions m.declares) := by
  have htype : t.id ∈ m.typeIds := List.mem_map_of_mem ht
  rw [SourceType.bodyInsertions_eq, scoped_append, nodesOf_map_edge, List.map_nil, List.append_nil]
  refine ⟨scoped_map_edge fun e he => ?_, scoped_flatMap fun n _ => ?_⟩
  · obtain ⟨hsource, ⟨name, hname, htarget⟩, -⟩ := SourceType.of_mem_hierarchyEdges he
    rw [hsource, htarget]
    exact ⟨htype, mem_typeIds_of_declares hname⟩
  · -- the member comes first, then the edge to it, then the edges from it
    refine ⟨⟨List.mem_append_left _ htype, List.mem_append_right _ List.mem_cons_self⟩,
      scoped_map_edge fun e he => ?_⟩
    obtain ⟨hsource, ⟨name, hname, htarget⟩, -⟩ := Node.of_mem_uses he
    rw [hsource, htarget]
    exact ⟨by simp, List.mem_append_left _ (mem_typeIds_of_declares hname)⟩

/-- No insertion of a model dangles. -/
theorem scoped_insertions (m : Model) (derived : Bool) : Scoped [] (m.insertions derived) := by
  have hids : (nodesOf (m.types.map fun t => Insertion.node (.type t.toNode))).map Node.id
      = m.typeIds := by
    rw [nodesOf_map_node m.types fun t => Node.type t.toNode, List.map_map]
    rfl
  have hraw : Scoped [] m.rawInsertions := by
    rw [rawInsertions, scoped_append, hids, List.nil_append]
    exact ⟨scoped_map_node [] m.types fun t => Node.type t.toNode,
      scoped_flatMap fun t ht => scoped_bodyInsertions ht⟩
  rw [insertions, scoped_append, List.nil_append]
  refine ⟨hraw, ?_⟩
  cases derived with
  | false => trivial
  | true =>
    have hsub : m.typeIds ⊆ (nodesOf m.rawInsertions).map Node.id := by
      rw [rawInsertions, nodesOf_append, List.map_append, hids]
      exact List.subset_append_left _ _
    refine scoped_map_edge fun e he => ?_
    obtain ⟨t, ht, het⟩ := List.mem_flatMap.1 he
    obtain ⟨hsource, ⟨name, hname, htarget⟩, -⟩ := SourceType.of_mem_signatureEdges het
    rw [hsource, htarget]
    exact ⟨hsub (List.mem_map_of_mem ht), hsub (mem_typeIds_of_declares hname)⟩

/-- A model has a graph exactly if no two declarations have one id. -/
theorem isOk_buildWith_iff (m : Model) (derived : Bool) :
    (m.buildWith derived).isOk = true ↔ (m.nodes.map Node.id).Nodup := by
  rw [buildWith, (Graph.Indexed.withMetadata m.metadata).isOk_addAll_iff, nodesOf_insertions]
  exact and_iff_left (m.scoped_insertions derived)

/-- What the graph of a model is. -/
structure Builds (m : Model) (derived : Bool) (g : Graph) : Prop where
  /-- Its look-ups are scans. -/
  indexed : g.Indexed
  /-- It has the nodes of the model. -/
  nodes : g.nodes.toList = m.nodes
  /-- It has the edges of the model. -/
  edges : g.edges.toList = m.edges derived
  /-- It keeps what is known of the application. -/
  metadata : g.metadata = m.metadata

theorem builds_of_buildWith {derived : Bool} {g : Graph} (h : m.buildWith derived = .ok g) :
    m.Builds derived g := by
  obtain ⟨hix, hmeta, hnodes, hedges⟩ := (Graph.Indexed.withMetadata m.metadata).addAll h
  rw [nodesOf_insertions] at hnodes
  rw [edgesOf_insertions] at hedges
  exact ⟨hix, hnodes, hedges, hmeta⟩

theorem build_eq_ok (h : (m.nodes.map Node.id).Nodup) :
    m.build = .ok (m.build.toOption.getD .empty) := by
  obtain ⟨g, hg⟩ := Error.exists_of_isOk ((m.isOk_buildWith_iff true).2 h)
  rw [build, hg]
  rfl

theorem builds_build (h : (m.nodes.map Node.id).Nodup) :
    m.Builds true (m.build.toOption.getD .empty) :=
  builds_of_buildWith (build_eq_ok h)

/-- Type by type, the nodes are the same up to order. -/
theorem nodes_perm (m : Model) : (m.nodes.map Node.id).Perm (m.types.flatMap (·.nodeIds)) := by
  rw [nodes]
  induction m.types with
  | nil => exact List.Perm.nil
  | cons t rest ih =>
    simp only [List.map_append, List.map_cons, List.flatMap_cons, SourceType.nodeIds,
      List.cons_append] at ih ⊢
    refine List.Perm.cons t.id ?_
    refine (List.perm_append_comm_assoc _ _ _).trans ?_
    exact List.Perm.append_left _ ih

section Built

variable {derived : Bool} {g : Graph} (h : m.Builds derived g)

include h

theorem Builds.nodeIds_nodup : (m.types.flatMap (·.nodeIds)).Nodup := by
  have hnodup := h.indexed.nodup
  rw [Graph.nodeIds, h.nodes] at hnodup
  exact m.nodes_perm.nodup_iff.1 hnodup

/-- The declarations of two types have no id in common. -/
theorem Builds.disjoint : m.types.Pairwise fun t u => List.Disjoint t.nodeIds u.nodeIds :=
  (List.nodup_flatMap.1 h.nodeIds_nodup).2

theorem Builds.types_nodup : m.types.Nodup := by
  refine h.disjoint.imp fun {t u} hdisjoint heq => ?_
  exact hdisjoint List.mem_cons_self (heq ▸ List.mem_cons_self)

theorem Builds.memberIds_nodup {t : SourceType} (ht : t ∈ m.types) :
    (t.memberNodes.map Node.id).Nodup :=
  (List.nodup_cons.1 ((List.nodup_flatMap.1 h.nodeIds_nodup).1 t ht)).2

/-- An id belongs to one declaration only. -/
theorem Builds.eq_of_mem_nodeIds {t u : SourceType} (ht : t ∈ m.types) (hu : u ∈ m.types)
    (id : NodeId) (hidt : id ∈ t.nodeIds) (hidu : id ∈ u.nodeIds) : t = u := by
  by_contra hne
  have : Std.Symm fun t u : SourceType => List.Disjoint t.nodeIds u.nodeIds :=
    ⟨fun _ _ hdisjoint => hdisjoint.symm⟩
  exact h.disjoint.forall ht hu hne hidt hidu

theorem Builds.eq_of_id_eq {t u : SourceType} (ht : t ∈ m.types) (hu : u ∈ m.types)
    (hid : t.id = u.id) : t = u :=
  h.eq_of_mem_nodeIds ht hu t.id List.mem_cons_self (hid ▸ List.mem_cons_self)

theorem Builds.mem_nodes {n : Node} : n ∈ g.nodes ↔ n ∈ m.nodes := by
  rw [← h.nodes, Array.mem_toList_iff]

theorem Builds.mem_nodeIds {id : NodeId} : id ∈ g.nodeIds ↔ ∃ t ∈ m.types, id ∈ t.nodeIds := by
  rw [Graph.nodeIds, h.nodes, m.nodes_perm.mem_iff, List.mem_flatMap]

/-- The types are those of the model, in order. -/
theorem Builds.types_eq : g.types = m.types.map SourceType.toNode := by
  have hmembers : (m.types.flatMap SourceType.memberNodes).filterMap Node.type? = [] := by
    refine List.filterMap_eq_nil_iff.2 fun n hn => ?_
    obtain ⟨t, -, hmember⟩ := List.mem_flatMap.1 hn
    exact SourceType.type?_eq_none hmember
  rw [h.indexed.types_eq, Graph.typeNodes, h.nodes, Model.nodes, List.filterMap_append, hmembers,
    List.append_nil, List.filterMap_map]
  exact congrFun List.filterMap_eq_map _

/-- The types are found by their ids. -/
theorem Builds.type?_eq_some {id : NodeId} {n : TypeNode} :
    g.type? id = some n ↔ ∃ t ∈ m.types, t.id = id ∧ t.toNode = n := by
  rw [Graph.type?, Option.bind_eq_some_iff]
  constructor
  · rintro ⟨node, hnode, hn⟩
    obtain ⟨hin, hid⟩ := h.indexed.node?_eq_some.1 hnode
    rcases List.mem_append.1 (h.mem_nodes.1 hin) with hin | hin
    · obtain ⟨t, ht, rfl⟩ := List.mem_map.1 hin
      exact ⟨t, ht, hid, Option.some.inj hn⟩
    · -- members are no types
      obtain ⟨t, -, hmember⟩ := List.mem_flatMap.1 hin
      rw [SourceType.type?_eq_none hmember] at hn
      exact absurd hn (by simp)
  · rintro ⟨t, ht, rfl, rfl⟩
    refine ⟨.type t.toNode, h.indexed.node?_eq_some.2 ⟨h.mem_nodes.2 ?_, rfl⟩, rfl⟩
    exact List.mem_append_left _ (List.mem_map_of_mem ht)

theorem Builds.mem_types {t : SourceType} (ht : t ∈ m.types) : t.toNode ∈ g.types := by
  rw [h.types_eq]
  exact List.mem_map_of_mem ht

theorem Builds.mem_typeNodes {t : SourceType} (ht : t ∈ m.types) : t.toNode ∈ g.typeNodes := by
  rw [← h.indexed.types_eq]
  exact h.mem_types ht

theorem Builds.type?_isSome {id : NodeId} : (g.type? id).isSome = true ↔ id ∈ m.typeIds := by
  rw [Option.isSome_iff_exists, Model.typeIds, List.mem_map]
  constructor
  · rintro ⟨n, hn⟩
    obtain ⟨t, ht, hid, -⟩ := h.type?_eq_some.1 hn
    exact ⟨t, ht, hid⟩
  · rintro ⟨t, ht, hid⟩
    exact ⟨t.toNode, h.type?_eq_some.2 ⟨t, ht, hid, rfl⟩⟩

/-- Derived edges aside, what leaves a type or one of its members is stated by the type. -/
theorem Builds.filter_edges_eq {t : SourceType} (ht : t ∈ m.types) {p : Edge → Bool}
    (hp : ∀ e, p e = true → e.source ∈ t.nodeIds ∧ e.kind ≠ .usesInSignature) :
    g.edges.toList.filter p = (t.bodyEdges m.declares).filter p := by
  have hother : ∀ u ∈ m.types, u ≠ t → (u.bodyEdges m.declares).filter p = [] := by
    intro u hu hne
    refine List.filter_eq_nil_iff.2 fun e he hpe => hne ?_
    have hsource := SourceType.source_mem_of_mem_bodyEdges he
    exact h.eq_of_mem_nodeIds hu ht e.source hsource (hp e hpe).1
  have hderived : (if derived then m.signatureEdges else []).filter p = [] := by
    refine List.filter_eq_nil_iff.2 fun e he hpe => ?_
    exact (hp e hpe).2 (of_mem_derived he).2
  rw [h.edges, Model.edges, List.filter_append, List.filter_flatMap,
    flatMap_eq_of_forall_ne h.types_nodup ht hother, hderived, List.append_nil]

/-- Of the edges that a type states, those that leave its node are found by its id. -/
theorem Builds.targetsOf_declares {t : SourceType} (ht : t ∈ m.types) :
    g.targetsOf .declares t.id = t.memberNodes.map Node.id := by
  have hown : ∀ e : Edge, decide (e.kind = .declares ∧ e.source = t.id) = true →
      e.source ∈ t.nodeIds ∧ e.kind ≠ .usesInSignature := by
    intro e hdecl
    obtain ⟨hkind, hsource⟩ := of_decide_eq_true hdecl
    rw [hkind, hsource]
    exact ⟨List.mem_cons_self, by simp⟩
  rw [Graph.targetsOf, h.filter_edges_eq ht hown, t.filter_declares_bodyEdges, List.map_map]
  rfl

/-- The members of a type are those of its declaration, in order. -/
theorem Builds.membersOf_eq {t : SourceType} (ht : t ∈ m.types) :
    g.membersOf t.id = t.memberNodes := by
  rw [Graph.membersOf, h.indexed.declaredMembers, h.targetsOf_declares ht,
    distinct_eq_self (h.memberIds_nodup ht)]
  refine h.indexed.resolve_map_id fun n hn => ?_
  rw [h.mem_nodes]
  exact List.mem_append_right _ (List.mem_flatMap.2 ⟨t, ht, hn⟩)

/-- What is no type has no members. -/
theorem Builds.membersOf_eq_nil {id : NodeId} (hid : id ∉ m.typeIds) : g.membersOf id = [] := by
  have htargets : g.targetsOf .declares id = [] := by
    rw [Graph.targetsOf, h.edges, List.map_eq_nil_iff, List.filter_eq_nil_iff]
    intro e he hdecl
    obtain ⟨hkind, hsource⟩ := of_decide_eq_true hdecl
    rcases List.mem_append.1 he with he | he
    · obtain ⟨t, ht, het⟩ := List.mem_flatMap.1 he
      rw [SourceType.source_of_mem_bodyEdges het hkind] at hsource
      exact hid (List.mem_map.2 ⟨t, ht, hsource⟩)
    · rw [(of_mem_derived he).2] at hkind
      exact absurd hkind (by simp)
  rw [Graph.membersOf, h.indexed.declaredMembers, htargets]
  rfl

theorem Builds.fieldsOf_eq {t : SourceType} (ht : t ∈ m.types) :
    g.fieldsOf t.id = t.fields.map t.fieldNode := by
  rw [Graph.fieldsOf, h.membersOf_eq ht, SourceType.memberNodes]
  simp [List.filterMap_append, List.filterMap_map, Function.comp_def, Node.field?]

theorem Builds.methodsOf_eq {t : SourceType} (ht : t ∈ m.types) :
    g.methodsOf t.id = t.methods.map t.methodNode := by
  rw [Graph.methodsOf, h.membersOf_eq ht, SourceType.memberNodes]
  simp [List.filterMap_append, List.filterMap_map, Function.comp_def, Node.method?]

theorem Builds.constructorsOf_eq {t : SourceType} (ht : t ∈ m.types) :
    g.constructorsOf t.id = t.constructors.map t.constructorNode := by
  rw [Graph.constructorsOf, h.membersOf_eq ht, SourceType.memberNodes]
  simp [List.filterMap_append, List.filterMap_map, Function.comp_def, Node.constructor?]

end Built

end Model

end RoleAudit
