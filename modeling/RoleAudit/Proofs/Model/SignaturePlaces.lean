import RoleAudit.Proofs.Model.SignatureUses

/-!
# Places of signatures

The edges from an interface to a type that its signatures mention carry the places as their proofs. What
these places are is read off the declaration of the interface: the result and the parameters that mention
the type at any depth, each once. A method that mentions a type in several places counts for each of them,
so the number of places is that of the methods only where no method does so.
-/

namespace RoleAudit

namespace SourceMethod

/-- The places of a signature that mention a name. -/
def placesOf (k : SourceMethod) (name : String) : List SignaturePosition :=
  (k.positions.filter fun place => name ∈ place.2.names).map Prod.fst

/-- They are the places where the name is mentioned, at whatever depth. -/
theorem mem_placesOf_iff {k : SourceMethod} {position : SignaturePosition} {name : String} :
    position ∈ k.placesOf name ↔ k.MentionsAt position name := by
  rw [mentionsAt_iff, placesOf, List.mem_map]
  constructor
  · rintro ⟨⟨_, type⟩, hplace, rfl⟩
    obtain ⟨hplace, hname⟩ := List.mem_filter.1 hplace
    exact ⟨type, hplace, of_decide_eq_true hname⟩
  · rintro ⟨type, hplace, hname⟩
    exact ⟨(position, type), List.mem_filter.2 ⟨hplace, decide_eq_true hname⟩, rfl⟩

theorem nodup_placesOf (k : SourceMethod) (name : String) : (k.placesOf name).Nodup :=
  (List.filter_sublist.map Prod.fst).nodup k.nodup_positions

end SourceMethod

namespace SourceType

variable {t : SourceType} {known : String → Bool} {name : String}

/-- In how many places the signatures of a type mention a name. -/
def placeCount (t : SourceType) (name : String) : Nat :=
  (t.methods.map fun k => (k.placesOf name).length).sum

/-- The methods of a type whose signatures mention a name. -/
def methodsMentioning (t : SourceType) (name : String) : List SourceMethod :=
  t.methods.filter fun k => k.placesOf name ≠ []

/-- A method counts once, in however many places it mentions the name. -/
theorem length_methodsMentioning (t : SourceType) (name : String) :
    (t.methodsMentioning name).length
      = (t.methods.map fun k => min (k.placesOf name).length 1).sum := by
  rw [methodsMentioning]
  induction t.methods with
  | nil => rfl
  | cons k rest ih =>
    rw [List.map_cons, List.sum_cons, ← ih]
    by_cases hk : k.placesOf name = []
    · rw [List.filter_cons_of_neg (by simp [hk]), hk, List.length_nil, Nat.zero_min, Nat.zero_add]
    · have hplace := List.length_pos_iff.2 hk
      rw [List.filter_cons_of_pos (by simp [hk]), List.length_cons, Nat.min_eq_right hplace,
        Nat.add_comm]

theorem length_methodsMentioning_le (t : SourceType) (name : String) :
    (t.methodsMentioning name).length ≤ t.placeCount name := by
  rw [length_methodsMentioning]
  exact List.sum_le_sum fun k _ => Nat.min_le_left _ _

/-- Where no method mentions a name in two places, counting places is counting methods. -/
theorem length_methodsMentioning_eq
    (hsingle : ∀ k ∈ t.methods, (k.placesOf name).length ≤ 1) :
    (t.methodsMentioning name).length = t.placeCount name := by
  rw [length_methodsMentioning, placeCount]
  exact congrArg List.sum (List.map_congr_left fun k hk => Nat.min_eq_left (hsingle k hk))

/-! ## Proofs of derived edges -/

/-- A place proves the use of a name that it mentions, once. -/
theorem proofs_positionEdges (hknown : known name = true) (hother : name ≠ t.name) (method : NodeId)
    (position : SignaturePosition) (type : TypeRef) :
    ((t.positionEdges known method position type).filter (·.target = .ofType name)).filterMap
      (·.proof) = if name ∈ type.names then [⟨method, position⟩] else [] := by
  have htarget : ∀ used : String, (NodeId.ofType used = NodeId.ofType name) = (used = name) :=
    fun used => propext ⟨fun hid => NodeId.ofType_injective hid, congrArg _⟩
  have hnodup : ((knownNames known [type]).filter (· ≠ t.name)).Nodup :=
    (nodup_distinct _).filter _
  have hmem : name ∈ (knownNames known [type]).filter (· ≠ t.name) ↔ name ∈ type.names := by
    simp [knownNames, TypeRef.namesOfAll, hknown, hother]
  rw [positionEdges, List.filter_map, List.filterMap_map]
  simp only [Function.comp_def, Edge.signatureUse, htarget]
  rw [List.filter_eq, hnodup.count]
  simp only [hmem]
  split <;> rfl

/-- The proofs of the use of a name are the places that mention it, method by method. -/
theorem proofs_signatureEdges (hform : t.form = .interface) (hknown : known name = true)
    (hother : name ≠ t.name) :
    ((t.signatureEdges known).filter (·.target = .ofType name)).filterMap (·.proof)
      = t.methods.flatMap fun k => (k.placesOf name).map fun position =>
          ⟨(t.methodNode k).id, position⟩ := by
  rw [signatureEdges, if_pos hform, List.filter_flatMap, List.filterMap_flatMap]
  refine List.flatMap_congr fun k _ => ?_
  rw [methodSignatureEdges, List.filter_flatMap, List.filterMap_flatMap, SourceMethod.placesOf]
  simp only [proofs_positionEdges hknown hother]
  induction k.positions with
  | nil => rfl
  | cons place rest ih =>
    rw [List.flatMap_cons, ih]
    by_cases hname : name ∈ place.2.names
    · rw [if_pos hname, List.filter_cons_of_pos (by simp [hname])]
      rfl
    · rw [if_neg hname, List.filter_cons_of_neg (by simp [hname])]
      rfl

end SourceType

namespace Model

variable {m : Model} {g : Graph} (h : m.Builds true g) {r u : SourceType}

include h

/-- The derived edges that leave a type are those of its declaration. -/
theorem Builds.filter_usesInSignature (hr : r ∈ m.types) :
    (g.edges.toList.filter fun e => e.kind = .usesInSignature ∧ e.source = r.id)
      = r.signatureEdges m.declares := by
  have hown : (r.signatureEdges m.declares).filter
      (fun e => e.kind = .usesInSignature ∧ e.source = r.id) = r.signatureEdges m.declares := by
    refine List.filter_eq_self.2 fun e he => decide_eq_true ?_
    obtain ⟨hsource, -, hkind⟩ := SourceType.of_mem_signatureEdges he
    exact ⟨hkind, hsource⟩
  have hother : ∀ t ∈ m.types, t ≠ r → (t.signatureEdges m.declares).filter
      (fun e => e.kind = .usesInSignature ∧ e.source = r.id) = [] := by
    intro t ht hne
    refine List.filter_eq_nil_iff.2 fun e he hends => hne ?_
    have hsource := (SourceType.of_mem_signatureEdges he).1.symm.trans (of_decide_eq_true hends).2
    exact h.eq_of_id_eq ht hr hsource
  have hbody : (m.types.flatMap (·.bodyEdges m.declares)).filter
      (fun e => e.kind = .usesInSignature ∧ e.source = r.id) = [] :=
    List.filter_eq_nil_iff.2 fun e he hends => kind_of_mem_bodyEdges he (of_decide_eq_true hends).1
  rw [h.edges, Model.edges, if_pos rfl, List.filter_append, hbody, List.nil_append, signatureEdges,
    List.filter_flatMap, flatMap_eq_of_forall_ne h.types_nodup hr hother, hown]

/-- The types that the signatures of a declared type mention, in the order of the first place. -/
theorem Builds.signatureTypesOf_eq (hr : r ∈ m.types) :
    g.signatureTypesOf r.id
      = g.resolveTypes (distinct ((r.signatureEdges m.declares).map (·.target))) := by
  rw [Graph.signatureTypesOf, h.indexed.signatureTypes, Graph.targetsOf, h.filter_usesInSignature hr]

/-- The proofs that an interface uses another type are all places of its signatures that mention the
type. -/
theorem Builds.signatureProofs_eq (hr : r ∈ m.types) (hform : r.form = .interface) (hu : u ∈ m.types)
    (hother : u ≠ r) :
    g.signatureProofs r.id u.id = r.methods.flatMap fun k => (k.placesOf u.name).map fun position =>
      ⟨(r.methodNode k).id, position⟩ := by
  have hname : u.name ≠ r.name := fun heq =>
    hother (h.eq_of_id_eq hu hr (congrArg NodeId.ofType heq))
  have hproofs : g.proofsOf r.id u.id = r.methods.flatMap fun k =>
      (k.placesOf u.name).map fun position => ⟨(r.methodNode k).id, position⟩ := by
    rw [← SourceType.proofs_signatureEdges hform (declares_of_mem hu) hname,
      ← h.filter_usesInSignature hr, List.filter_filter, Graph.proofsOf]
    congr 2
    funext e
    rw [Bool.eq_iff_iff, Bool.and_eq_true, decide_eq_true_iff, decide_eq_true_iff, decide_eq_true_iff]
    constructor
    · rintro ⟨hkind, hsource, htarget⟩
      exact ⟨htarget, hkind, hsource⟩
    · rintro ⟨htarget, hkind, hsource⟩
      exact ⟨hkind, hsource, htarget⟩
  rw [h.indexed.signatureProofs, hproofs,
    distinct_flatMap_of_key EdgeProof.method (h.methodIds_nodup hr)]
  · refine List.flatMap_congr fun k _ => distinct_eq_self ?_
    exact (k.nodup_placesOf u.name).map fun _ _ heq => congrArg EdgeProof.position heq
  · intro k _ proof hproof
    obtain ⟨_, -, rfl⟩ := List.mem_map.1 hproof
    rfl

theorem Builds.length_signatureProofs (hr : r ∈ m.types) (hform : r.form = .interface)
    (hu : u ∈ m.types) (hother : u ≠ r) :
    (g.signatureProofs r.id u.id).length = r.placeCount u.name := by
  rw [h.signatureProofs_eq hr hform hu hother, List.length_flatMap, SourceType.placeCount]
  simp only [List.length_map]

end Model

end RoleAudit
