import RoleAudit.Proofs.Graph.Part
import RoleAudit.Proofs.Model.Build

/-!
# Excerpts of a model

A base of a model has some of its types, in order, such that no reference leads from one of them to
another type of the model. What a type adds to the graph depends on the names that it mentions only, so
a type of the base adds the same in both graphs, and the graph of the base is a base of the graph of the
model. An excerpt is a base such that no reference leads back to it either, and its graph is a part of
the graph of the model.
-/

namespace RoleAudit

theorem TypeRef.name_mem_names (r : TypeRef) : r.name ∈ r.names := by
  cases r with
  | mk name arguments => exact List.mem_cons_self

/-! ## What a declaration mentions -/

/-- The references of a member. -/
def Node.refs : Node → List TypeRef
  | .type _ => []
  | .field f => [f.type]
  | .method m => m.returnType :: m.parameters.map (·.type)
  | .constructor c => c.parameters.map (·.type)

/-- The references of a declaration: the superclass, the interfaces, and the types of fields, results
and parameters. -/
def SourceType.refs (t : SourceType) : List TypeRef :=
  t.superType.toList ++ t.interfaces ++ t.fields.map (·.type)
    ++ t.methods.flatMap (fun m => m.returnType :: m.parameters.map (·.type))
    ++ t.constructors.flatMap fun c => c.parameters.map (·.type)

theorem SourceType.refs_of_mem_memberNodes {t : SourceType} {n : Node} (hn : n ∈ t.memberNodes) :
    n.owner? = some t.id ∧ n.refs ⊆ t.refs := by
  simp only [memberNodes, List.mem_append, List.mem_map] at hn
  obtain (⟨f, hf, rfl⟩ | ⟨m, hm, rfl⟩) | ⟨c, hc, rfl⟩ := hn
  · refine ⟨rfl, fun r hr => ?_⟩
    rw [List.mem_singleton.1 hr]
    simp only [refs, List.mem_append, List.mem_map]
    exact .inl (.inl (.inr ⟨f, hf, rfl⟩))
  · refine ⟨rfl, fun r hr => ?_⟩
    rw [Node.refs, t.methodNode_parameterTypes] at hr
    simp only [refs, List.mem_append, List.mem_flatMap]
    exact .inl (.inr ⟨m, hm, hr⟩)
  · refine ⟨rfl, fun r hr => ?_⟩
    rw [Node.refs, t.constructorNode_parameterTypes] at hr
    simp only [refs, List.mem_append, List.mem_flatMap]
    exact .inr ⟨c, hc, hr⟩

theorem Node.of_mem_soughtTypes {n : Node} {id : NodeId} (h : id ∈ n.soughtTypes) :
    n.owner? = some id ∨ ∃ r ∈ n.refs, id = .ofType r.name := by
  cases n with
  | type t => exact absurd h List.not_mem_nil
  | field f =>
    rcases List.mem_cons.1 h with rfl | h
    · exact .inl rfl
    · exact .inr ⟨f.type, List.mem_singleton_self _, List.mem_singleton.1 h⟩
  | method m => exact .inl (congrArg some (List.mem_singleton.1 h).symm)
  | constructor c =>
    rcases List.mem_cons.1 h with rfl | h
    · exact .inl rfl
    · obtain ⟨parameter, hparameter, rfl⟩ := List.mem_map.1 h
      exact .inr ⟨parameter.type, List.mem_map_of_mem hparameter, rfl⟩

/-! ## Edges depend on the names that are mentioned -/

section Known

variable {known known' : String → Bool}

theorem knownNames_congr {refs : List TypeRef}
    (h : ∀ r ∈ refs, ∀ name ∈ r.names, known name = known' name) :
    knownNames known refs = knownNames known' refs := by
  rw [knownNames, knownNames]
  refine congrArg distinct (List.filter_congr fun name hname => ?_)
  obtain ⟨r, hr, hname⟩ := TypeRef.mem_namesOfAll.1 hname
  exact h r hr name hname

theorem usageEdges_congr (member : NodeId) (kind : EdgeKind) {refs : List TypeRef}
    (h : ∀ r ∈ refs, ∀ name ∈ r.names, known name = known' name) :
    usageEdges known member kind refs = usageEdges known' member kind refs := by
  rw [usageEdges, usageEdges, knownNames_congr h]

theorem Node.uses_congr {n : Node} (h : ∀ r ∈ n.refs, ∀ name ∈ r.names, known name = known' name) :
    n.uses known = n.uses known' := by
  cases n with
  | type t => rfl
  | field f => exact usageEdges_congr _ _ h
  | method m =>
    rw [refs, List.forall_mem_cons] at h
    have hreturned : ∀ r ∈ (if m.returnType.isVoid then [] else [m.returnType]),
        ∀ name ∈ r.names, known name = known' name := by
      intro r hr
      split at hr
      · exact absurd hr List.not_mem_nil
      · rw [List.mem_singleton.1 hr]
        exact h.1
    rw [uses, uses, usageEdges_congr _ _ hreturned, usageEdges_congr _ _ h.2]
  | constructor c => exact usageEdges_congr _ _ h

namespace SourceType

variable {t : SourceType}

theorem hierarchyEdges_congr (h : ∀ r ∈ t.refs, ∀ name ∈ r.names, known name = known' name) :
    t.hierarchyEdges known = t.hierarchyEdges known' := by
  have hsuper : t.superType.toList.filter (fun s => known s.name)
      = t.superType.toList.filter fun s => known' s.name :=
    List.filter_congr fun s hs => h s (by simp [refs, hs]) _ s.name_mem_names
  have hinterfaces : t.interfaces.filter (fun i => known i.name)
      = t.interfaces.filter fun i => known' i.name :=
    List.filter_congr fun i hi => h i (by simp [refs, hi]) _ i.name_mem_names
  simp only [hierarchyEdges, hsuper, hinterfaces]

theorem bodyEdges_congr (h : ∀ r ∈ t.refs, ∀ name ∈ r.names, known name = known' name) :
    t.bodyEdges known = t.bodyEdges known' := by
  rw [bodyEdges, bodyEdges, hierarchyEdges_congr h]
  refine congrArg _ (List.flatMap_congr fun n hn => ?_)
  rw [Node.uses_congr fun r hr => h r ((refs_of_mem_memberNodes hn).2 hr)]

theorem type_mem_refs_of_mem_positions {m : SourceMethod} (hm : m ∈ t.methods)
    {position : SignaturePosition} {type : TypeRef} (h : (position, type) ∈ m.positions) :
    type ∈ t.refs := by
  have hmethod : type ∈ m.returnType :: m.parameters.map (·.type) := by
    rcases List.mem_cons.1 h with h | h
    · obtain ⟨-, rfl⟩ := Prod.mk.inj h
      exact List.mem_cons_self
    · obtain ⟨⟨parameter, i⟩, hparameter, h⟩ := List.mem_map.1 h
      obtain ⟨-, rfl⟩ := Prod.mk.inj h
      exact List.mem_cons_of_mem _ (List.mem_map_of_mem (List.fst_mem_of_mem_zipIdx hparameter))
  simp only [refs, List.mem_append, List.mem_flatMap]
  exact .inl (.inr ⟨m, hm, hmethod⟩)

theorem signatureEdges_congr (h : ∀ r ∈ t.refs, ∀ name ∈ r.names, known name = known' name) :
    t.signatureEdges known = t.signatureEdges known' := by
  rw [signatureEdges, signatureEdges]
  split
  · refine List.flatMap_congr fun m hm => List.flatMap_congr fun place hplace => ?_
    have hnames : knownNames known [place.2] = knownNames known' [place.2] := by
      refine knownNames_congr fun r hr => ?_
      rw [List.mem_singleton.1 hr]
      exact h place.2 (type_mem_refs_of_mem_positions hm hplace)
    simp only [positionEdges, hnames]
  · rfl

/-- An edge that a declaration states enters one of its members or a known type. -/
theorem target_of_mem_bodyEdges {e : Edge} (h : e ∈ t.bodyEdges known) :
    e.target ∈ t.nodeIds ∨ ∃ name, known name = true ∧ e.target = .ofType name := by
  rcases List.mem_append.1 h with h | h
  · exact .inr (of_mem_hierarchyEdges h).2.1
  · obtain ⟨n, hn, he⟩ := List.mem_flatMap.1 h
    rcases List.mem_cons.1 he with rfl | he
    · exact .inl (List.mem_cons_of_mem _ (List.mem_map_of_mem hn))
    · exact .inr (Node.of_mem_uses he).2.1

end SourceType

end Known

namespace Model

/-- The first model has some of the types of the second, in order, and no reference leads from them to
the other types. -/
structure Base (q m : Model) : Prop where
  types : m.types.filter (fun t => q.declares t.name) = q.types
  inside : ∀ t ∈ q.types, ∀ r ∈ t.refs, ∀ name ∈ r.names, m.declares name = true →
    q.declares name = true

/-- No reference leads back to the first model either. -/
structure Excerpt (q m : Model) : Prop extends Base q m where
  outside : ∀ t ∈ m.types, q.declares t.name = false → ∀ r ∈ t.refs, ∀ name ∈ r.names,
    m.declares name = true → q.declares name = false

namespace Base

variable {q m : Model} (h : q.Base m)

include h

theorem mem_types {t : SourceType} : t ∈ q.types ↔ t ∈ m.types ∧ q.declares t.name = true := by
  rw [← h.types, List.mem_filter]

theorem declares_of_declares {name : String} (hname : q.declares name = true) :
    m.declares name = true := by
  obtain ⟨t, ht, rfl⟩ := q.declares_iff.1 hname
  exact m.declares_iff.2 ⟨t, (h.mem_types.1 ht).1, rfl⟩

/-- A type of the base knows the same of the names that it mentions in both models. -/
theorem known_inside {t : SourceType} (ht : t ∈ q.types) :
    ∀ r ∈ t.refs, ∀ name ∈ r.names, m.declares name = q.declares name := by
  intro r hr name hname
  cases hm : m.declares name with
  | true => rw [h.inside t ht r hr name hname hm]
  | false =>
    cases hq : q.declares name with
    | true => exact absurd (h.declares_of_declares hq) (by simp [hm])
    | false => rfl

theorem nodes_sublist : q.nodes.Sublist m.nodes := by
  have hsub : q.types.Sublist m.types := h.types ▸ List.filter_sublist
  exact (hsub.map _).append (hsub.flatMap _)

theorem isOk_buildWith {derived : Bool} {g : Graph} (hg : m.Builds derived g) :
    (q.buildWith derived).isOk = true := by
  have hnodup := hg.indexed.nodup
  rw [Graph.nodeIds, hg.nodes] at hnodup
  rw [isOk_buildWith_iff]
  exact (h.nodes_sublist.map _).nodup hnodup

section Built

variable {derived : Bool} {p g : Graph} (hp : q.Builds derived p) (hg : m.Builds derived g)

include hp hg

/-- The ids of a type are in the graph of the base if the type is one of the base. -/
theorem mem_nodeIds_iff {t : SourceType} (ht : t ∈ m.types) {id : NodeId} (hid : id ∈ t.nodeIds) :
    id ∈ p.nodeIds ↔ q.declares t.name = true := by
  constructor
  · intro hin
    obtain ⟨u, hu, hidu⟩ := hp.mem_nodeIds.1 hin
    obtain ⟨hmem, hdeclares⟩ := h.mem_types.1 hu
    obtain rfl := hg.eq_of_mem_nodeIds hmem ht id hidu hid
    exact hdeclares
  · intro hdeclares
    exact hp.mem_nodeIds.2 ⟨t, h.mem_types.2 ⟨ht, hdeclares⟩, hid⟩

theorem not_mem_nodeIds {t : SourceType} (ht : t ∈ m.types) (hout : q.declares t.name = false)
    {id : NodeId} (hid : id ∈ t.nodeIds) : id ∉ p.nodeIds := by
  rw [h.mem_nodeIds_iff hp hg ht hid, hout]
  exact Bool.false_ne_true

/-- Edges that are asked for in a way that leaves out those of the other types are those of the base. -/
theorem filter_edges {P : Edge → Bool}
    (hP : ∀ t ∈ m.types, q.declares t.name = false → ∀ e,
      e ∈ t.bodyEdges m.declares ∨ e ∈ t.signatureEdges m.declares → P e = false) :
    g.edges.toList.filter P = p.edges.toList.filter P := by
  have hflat : ∀ f f' : SourceType → List Edge,
      (∀ t ∈ m.types, q.declares t.name = false → ∀ e ∈ f t, P e = false) →
      (∀ t ∈ q.types, f t = f' t) → (m.types.flatMap f).filter P = (q.types.flatMap f').filter P := by
    intro f f' hout hin
    have hnone : ∀ t ∈ m.types, q.declares t.name = false → (f t).filter P = [] := by
      intro t ht htout
      refine List.filter_eq_nil_iff.2 fun e he => ?_
      rw [hout t ht htout e he]
      exact Bool.false_ne_true
    rw [List.filter_flatMap, List.filter_flatMap, flatMap_filter_eq hnone, h.types]
    exact List.flatMap_congr fun t ht => by rw [hin t ht]
  rw [hg.edges, hp.edges, edges, edges, List.filter_append, List.filter_append]
  congr 1
  · exact hflat _ _ (fun t ht hout e he => hP t ht hout e (.inl he))
      fun t ht => SourceType.bodyEdges_congr (h.known_inside ht)
  · cases derived with
    | false => simp only [Bool.false_eq_true, if_false]
    | true =>
      simp only [if_true, signatureEdges]
      exact hflat _ _ (fun t ht hout e he => hP t ht hout e (.inr he))
        fun t ht => SourceType.signatureEdges_congr (h.known_inside ht)

/-- The edges that leave the base are its own. -/
theorem filter_source :
    g.edges.toList.filter (·.source ∈ p.nodeIds) = p.edges.toList := by
  have hedges : g.edges.toList.filter (·.source ∈ p.nodeIds)
      = p.edges.toList.filter (·.source ∈ p.nodeIds) := by
    refine h.filter_edges hp hg fun t ht hout e he => ?_
    have hsource : e.source ∈ t.nodeIds := by
      rcases he with he | he
      · exact SourceType.source_mem_of_mem_bodyEdges he
      · rw [(SourceType.of_mem_signatureEdges he).1]
        exact List.mem_cons_self
    exact decide_eq_false (h.not_mem_nodeIds hp hg ht hout hsource)
  rw [hedges]
  exact List.filter_eq_self.2 fun e he =>
    decide_eq_true (hp.indexed.ends e (Array.mem_toList_iff.1 he)).1

/-- A name that is not one of the other types finds the same in both graphs. -/
theorem type?_eq {name : String} (hname : m.declares name = true → q.declares name = true) :
    g.type? (.ofType name) = p.type? (.ofType name) := by
  refine Option.ext fun n => ?_
  rw [hg.type?_eq_some, hp.type?_eq_some]
  refine exists_congr fun t => ?_
  rw [h.mem_types]
  constructor
  · rintro ⟨ht, hid, hn⟩
    obtain rfl := NodeId.ofType_injective hid
    exact ⟨⟨ht, hname (m.declares_iff.2 ⟨t, ht, rfl⟩)⟩, hid, hn⟩
  · rintro ⟨⟨ht, -⟩, hid, hn⟩
    exact ⟨ht, hid, hn⟩

/-- The graph of a base is a base of the graph of the model. -/
theorem base : p.Base g where
  indexed := hp.indexed
  whole := hg.indexed
  nodes n hn := hg.mem_nodes.2 (h.nodes_sublist.subset (hp.mem_nodes.1 hn))
  edges := h.filter_source hp hg
  owners n hn owner howner := by
    rcases List.mem_append.1 (hg.mem_nodes.1 hn) with hn | hn
    · obtain ⟨t, -, rfl⟩ := List.mem_map.1 hn
      exact nomatch howner
    · obtain ⟨t, ht, hmember⟩ := List.mem_flatMap.1 hn
      obtain rfl : t.id = owner :=
        Option.some.inj ((t.owner?_of_mem_memberNodes hmember).symm.trans howner)
      rw [h.mem_nodeIds_iff hp hg ht List.mem_cons_self,
        h.mem_nodeIds_iff hp hg ht (List.mem_cons_of_mem _ (List.mem_map_of_mem hmember))]
  closed n hn id hid := by
    rcases List.mem_append.1 (hp.mem_nodes.1 hn) with hn | hn
    · obtain ⟨t, -, rfl⟩ := List.mem_map.1 hn
      exact absurd hid List.not_mem_nil
    · obtain ⟨t, ht, hmember⟩ := List.mem_flatMap.1 hn
      obtain ⟨howner, hrefs⟩ := SourceType.refs_of_mem_memberNodes hmember
      rcases Node.of_mem_soughtTypes hid with hsought | ⟨r, hr, rfl⟩
      · obtain rfl : t.id = id := Option.some.inj (howner.symm.trans hsought)
        exact h.type?_eq hp hg fun _ => (h.mem_types.1 ht).2
      · refine h.type?_eq hp hg fun hdeclared => ?_
        rwa [← h.known_inside ht r (hrefs hr) r.name r.name_mem_names]

end Built

end Base

namespace Excerpt

variable {q m : Model} (h : q.Excerpt m)

include h

/-- Another type knows no name of the excerpt among those that it mentions. -/
theorem known_outside {t : SourceType} (ht : t ∈ m.types) (hout : q.declares t.name = false) :
    ∀ r ∈ t.refs, ∀ name ∈ r.names,
      m.declares name = (m.declares name && !q.declares name) := by
  intro r hr name hname
  cases hm : m.declares name with
  | true => rw [h.outside t ht hout r hr name hname hm]; rfl
  | false => rfl

section Built

variable {derived : Bool} {p g : Graph} (hp : q.Builds derived p) (hg : m.Builds derived g)

include hp hg

theorem ofType_not_mem_nodeIds {name : String} (hm : m.declares name = true)
    (hq : q.declares name = false) : NodeId.ofType name ∉ p.nodeIds := by
  obtain ⟨t, ht, rfl⟩ := m.declares_iff.1 hm
  exact h.not_mem_nodeIds hp hg ht hq List.mem_cons_self

/-- The edges that another type adds do not enter the part. -/
theorem target_outside {t : SourceType} (ht : t ∈ m.types) (hout : q.declares t.name = false)
    {e : Edge} (he : e ∈ t.bodyEdges m.declares ∨ e ∈ t.signatureEdges m.declares) :
    e.target ∉ p.nodeIds := by
  have hknown := h.known_outside ht hout
  rw [SourceType.bodyEdges_congr hknown, SourceType.signatureEdges_congr hknown] at he
  have hname : ∀ name, (m.declares name && !q.declares name) = true →
      NodeId.ofType name ∉ p.nodeIds := by
    intro name hname
    rw [Bool.and_eq_true, Bool.not_eq_true'] at hname
    exact h.ofType_not_mem_nodeIds hp hg hname.1 hname.2
  rcases he with he | he
  · rcases SourceType.target_of_mem_bodyEdges he with htarget | ⟨name, hdeclared, htarget⟩
    · exact h.not_mem_nodeIds hp hg ht hout htarget
    · rw [htarget]
      exact hname name hdeclared
  · obtain ⟨-, ⟨name, hdeclared, htarget⟩, -⟩ := SourceType.of_mem_signatureEdges he
    rw [htarget]
    exact hname name hdeclared

/-- The graph of an excerpt is a part of the graph of the model. -/
theorem part : p.Part g where
  toBase := h.base hp hg
  incoming id hid := by
    refine h.filter_edges hp hg fun t ht hout e he => ?_
    rw [decide_eq_false_iff_not]
    rintro rfl
    exact h.target_outside hp hg ht hout he hid

end Built

end Excerpt

end Model

end RoleAudit
