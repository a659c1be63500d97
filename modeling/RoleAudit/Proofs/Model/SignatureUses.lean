import RoleAudit.Proofs.Model.StatedEdges

/-!
# Derived edges

Where a signature of an interface mentions another type of the model, the graph has a derived edge
for the place. The derived edges are made from the declarations here. They can also be read back from
the graph without them, by asking for its interfaces and their methods and dropping repeats at the
end; `Graph.signatureUses` does so, and the two lists are the same. What makes them the same is that
the look-ups give each interface all its methods, and that the ends and the proof of an edge tell the
place that it is for, so that a repeat can only come from within one place.
-/

namespace RoleAudit

/-- Lists that a key tells apart lose their repeats each on its own. -/
theorem distinct_flatMap_of_key {ι β κ : Type} [DecidableEq β] {l : List ι} {f : ι → List β}
    {name : ι → κ} (key : β → κ) (hnames : (l.map name).Nodup)
    (hkey : ∀ i ∈ l, ∀ b ∈ f i, key b = name i) :
    distinct (l.flatMap f) = l.flatMap fun i => distinct (f i) := by
  induction l with
  | nil => rfl
  | cons i rest ih =>
    rw [List.map_cons, List.nodup_cons] at hnames
    have hrest := ih hnames.2 fun j hj => hkey j (List.mem_cons_of_mem i hj)
    have hapart : ∀ b ∈ f i, b ∉ rest.flatMap f := by
      intro b hb hin
      obtain ⟨j, hj, hbj⟩ := List.mem_flatMap.1 hin
      have hname : name j = name i := by
        rw [← hkey j (List.mem_cons_of_mem i hj) b hbj, hkey i List.mem_cons_self b hb]
      exact hnames.1 (hname ▸ List.mem_map_of_mem hj)
    rw [List.flatMap_cons, List.flatMap_cons, distinct_append_of_disjoint hapart, hrest]

/-! ## Places of a signature -/

/-- A name is mentioned at a place of a signature. -/
def SourceMethod.MentionsAt (k : SourceMethod) : SignaturePosition → String → Prop
  | .return, name => k.returnType.Mentions name
  | .parameter i, name => ∃ p, k.parameters[i]? = some p ∧ p.type.Mentions name

theorem SourceMethod.mentionsAt_iff {k : SourceMethod} {position : SignaturePosition}
    {name : String} :
    k.MentionsAt position name ↔ ∃ type, (position, type) ∈ k.positions ∧ name ∈ type.names := by
  simp only [positions, List.mem_cons, List.mem_map, Prod.mk.injEq, Prod.exists,
    List.mem_zipIdx_iff_getElem?, TypeRef.mem_names_iff]
  match position with
  | .return => simp [MentionsAt]
  | .parameter i =>
    constructor
    · rintro ⟨p, hp, hmentions⟩
      exact ⟨p.type, .inr ⟨p, i, hp, rfl, rfl⟩, hmentions⟩
    · rintro ⟨type, hplace | ⟨p, j, hp, hij, rfl⟩, hmentions⟩
      · exact SignaturePosition.noConfusion hplace.1
      · obtain rfl : j = i := SignaturePosition.parameter.inj hij
        exact ⟨p, hp, hmentions⟩

/-- No place of a signature comes twice. -/
theorem SourceMethod.nodup_positions (k : SourceMethod) : (k.positions.map Prod.fst).Nodup := by
  have hindices : (k.parameters.zipIdx.map fun x => SignaturePosition.parameter x.2).Nodup := by
    have hmap : (k.parameters.zipIdx.map fun x => SignaturePosition.parameter x.2)
        = (k.parameters.zipIdx.map Prod.snd).map .parameter := by rw [List.map_map]; rfl
    rw [hmap, List.zipIdx_map_snd]
    exact (List.nodup_range' ..).map fun i j hij => SignaturePosition.parameter.inj hij
  rw [positions, List.map_cons, List.map_map, List.nodup_cons]
  refine ⟨?_, hindices⟩
  intro hin
  obtain ⟨x, -, hx⟩ := List.mem_map.1 hin
  exact SignaturePosition.noConfusion hx

/-- The places of a signature with the types that stand there. -/
def MethodNode.positions (k : MethodNode) : List (SignaturePosition × TypeRef) :=
  (.return, k.returnType) :: k.parameters.zipIdx.map fun (p, i) => (.parameter i, p.type)

theorem SourceType.positions_methodNode (t : SourceType) (k : SourceMethod) :
    (t.methodNode k).positions = k.positions := by
  simp only [MethodNode.positions, SourceMethod.positions, methodNode, List.zipIdx_map, List.map_map]
  rfl

/-! ## Reading derived edges back from a graph -/

namespace Graph

variable (g : Graph)

/-- What a place of a signature of an interface mentions: other nodes of the graph, with repeats. -/
def mentionsAt (i : TypeNode) (k : MethodNode) (place : SignaturePosition × TypeRef) : List Edge :=
  ((place.2.names.map NodeId.ofType).filter fun used => used ≠ i.id ∧ g.contains used = true).map
    fun used => .signatureUse i.id used ⟨k.id, place.1⟩

/-- What the signatures of an interface mention. -/
def signatureMentions (i : TypeNode) : List Edge :=
  (g.methodsOf i.id).flatMap fun k => k.positions.flatMap (g.mentionsAt i k)

/-- What the signatures of all interfaces mention, each once. -/
def signatureUses : List Edge := distinct (g.interfaces.flatMap g.signatureMentions)

variable {g} {i : TypeNode} {k : MethodNode} {place : SignaturePosition × TypeRef} {e : Edge}

theorem of_mem_mentionsAt (h : e ∈ g.mentionsAt i k place) :
    e.source = i.id ∧ e.proof = some ⟨k.id, place.1⟩ := by
  obtain ⟨used, -, rfl⟩ := List.mem_map.1 h
  exact ⟨rfl, rfl⟩

end Graph

namespace Model

section Built

variable {m : Model} {derived : Bool} {g : Graph} (h : m.Builds derived g)

include h

/-- An id of a type is that of a node exactly if the type is declared. -/
theorem Builds.contains_ofType (name : String) :
    g.contains (.ofType name) = m.declares name := by
  rw [Bool.eq_iff_iff, h.indexed.contains_iff, Graph.nodeIds, h.nodes, ← map_id_declarations,
    declares_iff]
  constructor
  · intro hin
    obtain ⟨d, hd, hid⟩ := List.mem_map.1 hin
    rcases List.mem_append.1 hd with hd | hd
    · obtain ⟨t, ht, rfl⟩ := List.mem_map.1 hd
      exact ⟨t, ht, NodeId.ofType_injective hid⟩
    · -- a member has an id of another kind
      have hkind : d.kind = .type :=
        Declaration.kind_eq_of_id_eq (b := .type { name, form := .plainClass }) hid
      obtain ⟨t, -, hmember⟩ := List.mem_flatMap.1 hd
      simp only [SourceType.members, List.mem_append, List.mem_map] at hmember
      obtain (⟨_, -, rfl⟩ | ⟨_, -, rfl⟩) | ⟨_, -, rfl⟩ := hmember <;>
        exact NodeKind.noConfusion hkind
  · rintro ⟨t, ht, rfl⟩
    exact List.mem_map_of_mem (List.mem_append_left _ (List.mem_map_of_mem ht))

/-- A place of a signature, read back, gives what it gives in the declaration, once repeats are
dropped. -/
theorem Builds.distinct_mentionsAt (t : SourceType) (k : SourceMethod)
    (place : SignaturePosition × TypeRef) :
    distinct (g.mentionsAt t.toNode (t.methodNode k) place)
      = t.positionEdges m.declares (t.methodNode k).id place.1 place.2 := by
  have htest : ∀ name, decide (NodeId.ofType name ≠ t.toNode.id ∧ g.contains (.ofType name) = true)
      = (decide (name ≠ t.name) && m.declares name) := by
    intro name
    have hid : NodeId.ofType name = t.toNode.id ↔ name = t.name :=
      ⟨NodeId.ofType_injective, fun heq => congrArg NodeId.ofType heq⟩
    rw [h.contains_ofType, Bool.eq_iff_iff]
    simp [hid]
  have hmentions : g.mentionsAt t.toNode (t.methodNode k) place
      = ((place.2.names.filter m.declares).filter (· ≠ t.name)).map fun name =>
        .signatureUse t.id (.ofType name) ⟨(t.methodNode k).id, place.1⟩ := by
    rw [Graph.mentionsAt, List.filter_map, List.map_map, List.filter_filter]
    refine congrArg _ (List.filter_congr fun name _ => ?_)
    exact htest name
  have hinjective : ∀ a b : String,
      Edge.signatureUse t.id (.ofType a) ⟨(t.methodNode k).id, place.1⟩
        = .signatureUse t.id (.ofType b) ⟨(t.methodNode k).id, place.1⟩ → a = b := by
    intro a b heq
    exact NodeId.ofType_injective (congrArg Edge.target heq)
  rw [hmentions, distinct_map hinjective, distinct_filter, SourceType.positionEdges, knownNames,
    TypeRef.namesOfAll, TypeRef.namesOfAll, List.append_nil]

theorem Builds.methodIds_nodup {t : SourceType} (ht : t ∈ m.types) :
    (t.methods.map fun k => (t.methodNode k).id).Nodup := by
  have hids := h.memberIds_nodup ht
  rw [SourceType.memberNodes, List.map_append, List.map_append] at hids
  have hmiddle := (List.nodup_append.1 (List.nodup_append.1 hids).1).2.1
  rwa [List.map_map] at hmiddle

/-- An interface, read back, has the edges of its declaration. -/
theorem Builds.distinct_signatureMentions {t : SourceType} (ht : t ∈ m.types)
    (hform : t.form = .interface) :
    distinct (g.signatureMentions t.toNode) = t.signatureEdges m.declares := by
  have hmethods : (t.methods.map fun k => some (t.methodNode k).id).Nodup := by
    have hsome : (t.methods.map fun k => some (t.methodNode k).id)
        = (t.methods.map fun k => (t.methodNode k).id).map some := by rw [List.map_map]; rfl
    rw [hsome]
    exact (h.methodIds_nodup ht).map (Option.some_injective _)
  have hmentions : g.signatureMentions t.toNode = t.methods.flatMap fun k =>
      k.positions.flatMap (g.mentionsAt t.toNode (t.methodNode k)) := by
    have hfound : g.methodsOf t.toNode.id = t.methods.map t.methodNode := h.methodsOf_eq ht
    rw [Graph.signatureMentions, hfound, List.flatMap_map]
    simp only [t.positions_methodNode]
  rw [hmentions, SourceType.signatureEdges, if_pos hform]
  -- the method in the proof of an edge tells the methods apart
  rw [distinct_flatMap_of_key (fun e => e.proof.map EdgeProof.method) hmethods]
  · refine List.flatMap_congr fun k _ => ?_
    -- and the position tells the places of one method apart
    rw [distinct_flatMap_of_key (fun e => (e.proof.map EdgeProof.position).getD .return)
      k.nodup_positions, SourceType.methodSignatureEdges]
    · exact List.flatMap_congr fun place _ => h.distinct_mentionsAt t k place
    · intro place _ e he
      rw [(Graph.of_mem_mentionsAt he).2]
      rfl
  · intro k _ e he
    obtain ⟨place, -, hplace⟩ := List.mem_flatMap.1 he
    rw [(Graph.of_mem_mentionsAt hplace).2]
    rfl

theorem Builds.typeIds_nodup : m.typeIds.Nodup := by
  have hnodup := h.indexed.nodup
  rw [Graph.nodeIds, h.nodes, Model.nodes, List.map_append, List.map_map] at hnodup
  exact (List.nodup_append.1 hnodup).1

/-- The derived edges, read back from a graph of the model, are those of its declarations. -/
theorem Builds.signatureUses_eq : g.signatureUses = m.signatureEdges := by
  have hinterfaces : g.interfaces
      = (m.types.filter (·.form = .interface)).map SourceType.toNode := by
    rw [h.indexed.interfaces_eq, ← h.indexed.types_eq, h.types_eq, List.filter_map]
    rfl
  have hids : ((m.types.filter (·.form = .interface)).map SourceType.id).Nodup :=
    (List.filter_sublist.map SourceType.id).nodup h.typeIds_nodup
  have hskip : ∀ t ∈ m.types, decide (t.form = .interface) = false →
      t.signatureEdges m.declares = [] := by
    intro t _ hform
    rw [SourceType.signatureEdges, if_neg (of_decide_eq_false hform)]
  rw [Graph.signatureUses, hinterfaces, List.flatMap_map,
    distinct_flatMap_of_key Edge.source hids, signatureEdges, flatMap_filter_eq hskip]
  · refine List.flatMap_congr fun t ht => ?_
    obtain ⟨ht, hform⟩ := List.mem_filter.1 ht
    exact h.distinct_signatureMentions ht (of_decide_eq_true hform)
  · intro t _ e he
    obtain ⟨k, -, hk⟩ := List.mem_flatMap.1 he
    obtain ⟨place, -, hplace⟩ := List.mem_flatMap.1 hk
    exact (Graph.of_mem_mentionsAt hplace).1

theorem Builds.signatureEdges_nodup : m.signatureEdges.Nodup := by
  rw [← h.signatureUses_eq]
  exact nodup_distinct _

end Built

/-! ## What derived edges say -/

/-- A method of an interface mentions another type, the proof saying which method and where. -/
def UsesInSignature (m : Model) (interface used : NodeId) (proof : EdgeProof) : Prop :=
  ∃ t ∈ m.types, ∃ k ∈ t.methods, ∃ u ∈ m.types,
    t.form = .interface ∧ u.id ≠ t.id ∧ k.MentionsAt proof.position u.name ∧
    interface = t.id ∧ used = u.id ∧ proof.method = (Declaration.method t k).id

theorem mem_signatureEdges_iff {m : Model} {e : Edge} :
    e ∈ m.signatureEdges ↔ ∃ interface used proof,
      m.UsesInSignature interface used proof ∧ e = .signatureUse interface used proof := by
  simp only [signatureEdges, List.mem_flatMap, SourceType.mem_signatureEdges_iff]
  constructor
  · rintro ⟨t, ht, hform, k, hk, ⟨position, type⟩, hplace, name, hname, hknown, hne, rfl⟩
    obtain ⟨u, hu, rfl⟩ := m.declares_iff.1 hknown
    have hother : u.id ≠ t.id := fun hid => hne (NodeId.ofType_injective hid)
    have hmentions : k.MentionsAt position u.name :=
      SourceMethod.mentionsAt_iff.2 ⟨type, hplace, hname⟩
    exact ⟨t.id, u.id, ⟨_, position⟩, ⟨t, ht, k, hk, u, hu, hform, hother, hmentions, rfl, rfl, rfl⟩,
      rfl⟩
  · rintro ⟨_, _, ⟨method, position⟩,
      ⟨t, ht, k, hk, u, hu, hform, hother, hmentions, rfl, rfl, hmethod⟩, rfl⟩
    obtain rfl : method = (t.methodNode k).id := hmethod
    obtain ⟨type, hplace, hname⟩ := SourceMethod.mentionsAt_iff.1 hmentions
    have hne : u.name ≠ t.name := fun heq => hother (congrArg NodeId.ofType heq)
    exact ⟨t, ht, hform, k, hk, (position, type), hplace, u.name, hname, declares_of_mem hu, hne, rfl⟩

theorem provenance_of_mem_bodyEdges {m : Model} {e : Edge}
    (he : e ∈ m.types.flatMap (·.bodyEdges m.declares)) : e.provenance = .raw := by
  obtain ⟨source, kind, target, -, rfl⟩ := m.mem_bodyEdges_iff.1 he
  rfl

/-- No declaration states a use in a signature. -/
theorem kind_of_mem_bodyEdges {m : Model} {e : Edge}
    (he : e ∈ m.types.flatMap (·.bodyEdges m.declares)) : e.kind ≠ .usesInSignature := by
  obtain ⟨source, kind, target, hstates, rfl⟩ := m.mem_bodyEdges_iff.1 he
  cases hstates <;> exact nofun

theorem provenance_of_mem_signatureEdges {m : Model} {e : Edge} (he : e ∈ m.signatureEdges) :
    e.provenance = .derived := by
  obtain ⟨_, _, _, -, rfl⟩ := mem_signatureEdges_iff.1 he
  rfl

/-- The edges without the derived ones are the raw ones. -/
theorem filter_raw_edges (m : Model) :
    (m.edges true).filter (·.provenance = .raw) = m.edges false := by
  have hbody : (m.types.flatMap (·.bodyEdges m.declares)).filter (·.provenance = .raw)
      = m.types.flatMap (·.bodyEdges m.declares) :=
    List.filter_eq_self.2 fun e he => decide_eq_true (provenance_of_mem_bodyEdges he)
  have hderived : m.signatureEdges.filter (·.provenance = .raw) = [] := by
    refine List.filter_eq_nil_iff.2 fun e he hraw => ?_
    have hprovenance := of_decide_eq_true hraw
    rw [provenance_of_mem_signatureEdges he] at hprovenance
    exact Provenance.noConfusion hprovenance
  rw [edges, edges, List.filter_append, hbody, if_pos rfl, hderived]
  rfl

/-- Where a model has a graph with derived edges, these are the uses of types in the signatures of
interfaces, each once for every place, and all other edges are raw. Without derived edges the model
has a graph with the same nodes and, in the same order, the raw edges; and what the look-ups of that
graph give back are the derived edges. -/
theorem derived_edges_are_signature_uses {m : Model} {g : Graph}
    (hbuild : m.buildWith true = .ok g) :
    (∀ e, e ∈ g.edges ∧ e.provenance = .derived ↔ ∃ interface used proof,
      m.UsesInSignature interface used proof ∧ e = .signatureUse interface used proof) ∧
    (∀ interface used proof, m.UsesInSignature interface used proof →
      g.edges.toList.count (.signatureUse interface used proof) = 1) ∧
    ∃ g₀, m.buildWith false = .ok g₀ ∧ g₀.nodes = g.nodes ∧
      g₀.edges.toList = g.edges.toList.filter (·.provenance = .raw) ∧
      g.edges.toList = g₀.edges.toList ++ g₀.signatureUses := by
  have h := builds_of_buildWith hbuild
  have hedges : g.edges.toList = m.types.flatMap (·.bodyEdges m.declares) ++ m.signatureEdges :=
    h.edges
  refine ⟨?_, ?_, ?_⟩
  · intro e
    rw [← Array.mem_toList_iff, hedges, List.mem_append, ← mem_signatureEdges_iff]
    constructor
    · rintro ⟨he | he, hprovenance⟩
      · rw [provenance_of_mem_bodyEdges he] at hprovenance
        exact Provenance.noConfusion hprovenance
      · exact he
    · intro he
      exact ⟨.inr he, provenance_of_mem_signatureEdges he⟩
  · intro interface used proof huses
    have hmem := mem_signatureEdges_iff.2 ⟨interface, used, proof, huses, rfl⟩
    have hbody : (m.types.flatMap (·.bodyEdges m.declares)).count
        (.signatureUse interface used proof) = 0 := by
      refine List.count_eq_zero.2 fun hin => ?_
      exact Provenance.noConfusion (provenance_of_mem_bodyEdges hin)
    rw [hedges, List.count_append, hbody, Nat.zero_add]
    exact List.count_eq_one_of_mem h.signatureEdges_nodup hmem
  · have hok : (m.buildWith true).isOk = true := by rw [hbuild]; rfl
    obtain ⟨g₀, hg₀⟩ := Error.exists_of_isOk
      ((m.isOk_buildWith_iff false).2 ((m.isOk_buildWith_iff true).1 hok))
    have h₀ := builds_of_buildWith hg₀
    refine ⟨g₀, hg₀, Array.toList_inj.1 (h₀.nodes.trans h.nodes.symm), ?_, ?_⟩
    · rw [h₀.edges, h.edges, m.filter_raw_edges]
    · have hedges₀ : g₀.edges.toList = m.types.flatMap (·.bodyEdges m.declares) :=
        h₀.edges.trans (List.append_nil _)
      rw [hedges, hedges₀, h₀.signatureUses_eq]

/-- In the fleet a signature mentions ships twice in its result; this is one edge. The map of its
second parameter is another, though it mentions the interface itself before. -/
theorem fleet_signature_uses :
    ∃ g, fleet.buildWith true = .ok g ∧
      g.edges.toList.count (.signatureUse tracked.id ship.id
        ⟨(Declaration.method tracked follow).id, .return⟩) = 1 ∧
      g.edges.toList.count (.signatureUse tracked.id ship.id
        ⟨(Declaration.method tracked follow).id, .parameter 1⟩) = 1 := by
  obtain ⟨g, hg⟩ := Error.exists_of_isOk ((fleet.isOk_buildWith_iff true).2 (by decide))
  obtain ⟨-, honce, -⟩ := derived_edges_are_signature_uses hg
  have hship : ship ∈ fleet.types := by simp [fleet]
  have htracked : tracked ∈ fleet.types := by simp [fleet]
  have huses : ∀ position, follow.MentionsAt position ship.name →
      fleet.UsesInSignature tracked.id ship.id
        ⟨(Declaration.method tracked follow).id, position⟩ := fun position hmentions =>
    ⟨tracked, htracked, follow, List.mem_cons_self, ship, hship, rfl, by decide, hmentions, rfl, rfl,
      rfl⟩
  have hresult : follow.MentionsAt .return ship.name := .argument List.mem_cons_self (.own _ _)
  have hsince : follow.MentionsAt (.parameter 1) ship.name :=
    ⟨_, rfl, .argument (List.mem_cons_of_mem _ List.mem_cons_self) (.own _ _)⟩
  exact ⟨g, hg, honce _ _ _ (huses _ hresult), honce _ _ _ (huses _ hsince)⟩

end Model

end RoleAudit
