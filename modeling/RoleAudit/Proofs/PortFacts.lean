import RoleAudit.PortFacts
import RoleAudit.Proofs.Graph.Reorder

/-!
# Anchors and facts by id

Anchors and facts are kept in maps that are filled type by type. As every type has an id of its own,
what the maps hold for an id is what its type says, whatever order they were filled in.
-/

namespace RoleAudit

/-- A map that is filled from a list without repeated keys holds what the list says. -/
theorem get?_foldl_insert_eq_some {ι β : Type} {key : ι → NodeId} {value : ι → β} {l : List ι}
    (hnodup : (l.map key).Nodup) {k : NodeId} {v : β} :
    (l.foldl (fun m i => m.insert (key i) (value i)) (Std.TreeMap.empty : Std.TreeMap NodeId β)).get? k
      = some v ↔ ∃ i ∈ l, key i = k ∧ value i = v := by
  induction l using List.reverseRecOn with
  | nil => simp
  | append_singleton l i ih =>
    rw [List.map_append, List.nodup_append] at hnodup
    rw [List.foldl_append, List.foldl_cons, List.foldl_nil, Std.TreeMap.get?_eq_getElem?,
      Std.TreeMap.getElem?_insert, ← Std.TreeMap.get?_eq_getElem?]
    by_cases hk : key i = k
    · have hnot : ∀ j ∈ l, key j ≠ k := fun j hj hji =>
        hnodup.2.2 _ (List.mem_map_of_mem hj) _ (List.mem_map_of_mem List.mem_cons_self)
          (hji.trans hk.symm)
      rw [if_pos (by simp [hk])]
      constructor
      · intro hv
        exact ⟨i, List.mem_append_right _ List.mem_cons_self, hk, Option.some.inj hv⟩
      · rintro ⟨j, hj, hjk, hjv⟩
        rcases List.mem_append.1 hj with hj | hj
        · exact absurd hjk (hnot j hj)
        · rw [← List.mem_singleton.1 hj, hjv]
    · rw [if_neg fun hcmp => hk (Std.LawfulEqOrd.eq_of_compare hcmp), ih hnodup.1]
      constructor
      · rintro ⟨j, hj, hjk, hjv⟩
        exact ⟨j, List.mem_append_left _ hj, hjk, hjv⟩
      · rintro ⟨j, hj, hjk, hjv⟩
        rcases List.mem_append.1 hj with hj | hj
        · exact ⟨j, hj, hjk, hjv⟩
        · rw [List.mem_singleton.1 hj] at hjk
          exact absurd hjk hk

/-- A set that is filled from a list has the members of the list. -/
theorem contains_foldl_insert {ι : Type} {key : ι → NodeId} {l : List ι} {k : NodeId} :
    (l.foldl (fun s i => s.insert (key i)) (Std.TreeSet.empty : Std.TreeSet NodeId)).contains k
      = true ↔ ∃ i ∈ l, key i = k := by
  induction l using List.reverseRecOn with
  | nil => simp
  | append_singleton l i ih =>
    rw [List.foldl_append, List.foldl_cons, List.foldl_nil, Std.TreeSet.contains_insert,
      Bool.or_eq_true, ih, beq_iff_eq, Std.LawfulEqCmp.compare_eq_iff_eq]
    constructor
    · rintro (hk | ⟨j, hj, hjk⟩)
      · exact ⟨i, List.mem_append_right _ List.mem_cons_self, hk⟩
      · exact ⟨j, List.mem_append_left _ hj, hjk⟩
    · rintro ⟨j, hj, hjk⟩
      rcases List.mem_append.1 hj with hj | hj
      · exact Or.inr ⟨j, hj, hjk⟩
      · rw [List.mem_singleton.1 hj] at hjk
        exact Or.inl hjk

variable {g g' : Graph}

theorem nodup_filter_types (h : g.Indexed) (p : TypeNode → Bool) :
    ((g.types.filter p).map (·.id)).Nodup := by
  rw [h.types_eq]
  exact (List.filter_sublist.map _).nodup h.typeNodes_nodup

theorem mem_filter_types_iff (h : g.Indexed) {p : TypeNode → Bool} {id : NodeId} {t : TypeNode} :
    t ∈ g.types.filter p ∧ t.id = id ↔ g.type? id = some t ∧ p t = true := by
  rw [List.mem_filter, h.types_eq, h.type?_eq_some, and_right_comm]

/-- The anchor of an id is that of its type. -/
theorem Anchors.get?_ofGraph (h : g.Indexed) (id : NodeId) :
    (Anchors.ofGraph g).get? id
      = (g.type? id).bind fun t => if t.isInterface then none else some (Anchor.ofType g t) := by
  refine Option.ext fun a => ?_
  rw [Anchors.get?, Anchors.ofGraph, get?_foldl_insert_eq_some (nodup_filter_types h _),
    Option.bind_eq_some_iff]
  refine exists_congr fun t => ?_
  rw [← and_assoc, mem_filter_types_iff h, and_assoc]
  cases t.isInterface <;> simp

/-- Whether an id is that of a core class is what its type says. -/
theorem Anchors.isCore_ofGraph (h : g.Indexed) (id : NodeId) :
    (Anchors.ofGraph g).isCore id = (g.type? id).any (Anchors.isCoreType g) := by
  rw [Bool.eq_iff_iff, Anchors.isCore, Anchors.ofGraph, contains_foldl_insert,
    Option.any_eq_true]
  refine exists_congr fun t => ?_
  rw [mem_filter_types_iff h]

/-- What makes a type core. -/
theorem Anchors.isCore_ofGraph_iff (h : g.Indexed) {id : NodeId} :
    (Anchors.ofGraph g).isCore id = true ↔ ∃ t, g.type? id = some t ∧ t.isInterface = false ∧
      Anchor.ofType g t = .domain ∧ t.isTestCode = false ∧ g.dependsOnInterface t = true := by
  rw [isCore_ofGraph h, Option.any_eq_true]
  simp only [isCoreType, Bool.and_eq_true, Bool.not_eq_true', decide_eq_true_eq, and_assoc]

/-- The facts on an id are those on its type. -/
theorem PortFactsIndex.get?_ofGraph (h : g.Indexed) (anchors : Anchors) (id : NodeId) :
    (PortFactsIndex.ofGraph g anchors).get? id
      = (g.type? id).bind fun t =>
        if t.isInterface && !t.isPlatformType then some (PortFacts.ofInterface g anchors t)
        else none := by
  have hinterfaces : g.interfaces.filter (!·.isPlatformType)
      = g.types.filter fun t => t.isInterface && !t.isPlatformType := by
    rw [h.interfaces_eq, h.types_eq, List.filter_filter]
    simp only [Bool.and_comm]
  have hnodup : (((g.types.filter fun t => t.isInterface && !t.isPlatformType).map
      (PortFacts.ofInterface g anchors)).map (·.interface)).Nodup := by
    rw [List.map_map]
    exact nodup_filter_types h _
  refine Option.ext fun f => ?_
  rw [PortFactsIndex.get?, PortFactsIndex.ofGraph, PortFactsIndex.ofList, hinterfaces,
    get?_foldl_insert_eq_some hnodup, Option.bind_eq_some_iff]
  constructor
  · rintro ⟨_, hf, hid, rfl⟩
    obtain ⟨t, ht, rfl⟩ := List.mem_map.1 hf
    obtain ⟨htype, hp⟩ := (mem_filter_types_iff h).1 ⟨ht, hid⟩
    exact ⟨t, htype, if_pos hp⟩
  · rintro ⟨t, htype, hf⟩
    split at hf
    · rename_i hp
      obtain ⟨ht, hid⟩ := (mem_filter_types_iff (p := fun t => t.isInterface && !t.isPlatformType)
        h).2 ⟨htype, hp⟩
      exact ⟨_, List.mem_map_of_mem ht, hid, Option.some.inj hf⟩
    · exact absurd hf (by simp)

/-- An entry holds the facts on an interface that does not belong to the platform. -/
theorem PortFactsIndex.get?_ofGraph_eq_some (h : g.Indexed) {anchors : Anchors} {id : NodeId}
    {f : PortFacts} : (PortFactsIndex.ofGraph g anchors).get? id = some f ↔
    ∃ t ∈ g.types, t.id = id ∧ t.isInterface = true ∧ t.isPlatformType = false ∧
      PortFacts.ofInterface g anchors t = f := by
  rw [get?_ofGraph h, Option.bind_eq_some_iff]
  refine exists_congr fun t => ?_
  rw [h.types_eq, ← and_assoc, ← h.type?_eq_some]
  refine and_congr_right fun _ => ?_
  cases t.isInterface <;> cases t.isPlatformType <;> simp

namespace Graph.Reordered

variable (h : Graph.Reordered g g')

include h

theorem anchorOf_eq (t : TypeNode) : Anchor.ofType g' t = Anchor.ofType g t := by
  rw [Anchor.ofType, Anchor.ofType, h.fieldsOf_eq]

theorem isCoreType_eq (t : TypeNode) : Anchors.isCoreType g' t = Anchors.isCoreType g t := by
  rw [Anchors.isCoreType, Anchors.isCoreType, h.anchorOf_eq, dependsOnInterface,
    dependsOnInterface, h.fieldsOf_eq, h.constructorsOf_eq]
  simp only [h.type?_eq]

theorem anchors_get?_eq (id : NodeId) :
    (Anchors.ofGraph g').get? id = (Anchors.ofGraph g).get? id := by
  rw [Anchors.get?_ofGraph h.indexed', Anchors.get?_ofGraph h.indexed, h.type?_eq]
  simp only [h.anchorOf_eq]

theorem isDomain_eq (id : NodeId) :
    (Anchors.ofGraph g').isDomain id = (Anchors.ofGraph g).isDomain id := by
  rw [Anchors.isDomain, Anchors.isDomain, h.anchors_get?_eq]

theorem isInfrastructure_eq (id : NodeId) :
    (Anchors.ofGraph g').isInfrastructure id = (Anchors.ofGraph g).isInfrastructure id := by
  rw [Anchors.isInfrastructure, Anchors.isInfrastructure, h.anchors_get?_eq]

theorem isCore_eq (id : NodeId) :
    (Anchors.ofGraph g').isCore id = (Anchors.ofGraph g).isCore id := by
  rw [Anchors.isCore_ofGraph h.indexed', Anchors.isCore_ofGraph h.indexed, h.type?_eq,
    funext h.isCoreType_eq]

theorem portFacts_eq (t : TypeNode) :
    PortFacts.ofInterface g' (Anchors.ofGraph g') t
      = PortFacts.ofInterface g (Anchors.ofGraph g) t := by
  have himplementors : (g'.productionImplementors t.id).Perm (g.productionImplementors t.id) :=
    (h.implementorsOf_perm t.id).filter _
  simp only [PortFacts.ofInterface, himplementors.length_eq, himplementors.isEmpty_eq,
    himplementors.all_eq, himplementors.any_eq, (h.typesInjecting_perm t.id).any_eq, h.isDomain_eq, h.isInfrastructure_eq, h.isCore_eq]

theorem facts_get?_eq (id : NodeId) :
    (PortFactsIndex.ofGraph g' (Anchors.ofGraph g')).get? id
      = (PortFactsIndex.ofGraph g (Anchors.ofGraph g)).get? id := by
  rw [PortFactsIndex.get?_ofGraph h.indexed', PortFactsIndex.get?_ofGraph h.indexed, h.type?_eq]
  simp only [h.portFacts_eq]

end Graph.Reordered

end RoleAudit
