import RoleAudit.Proofs.Graph.Scan

/-!
# Superclasses above a type

A type can state several superclasses, and superclasses can run in a circle. The nearest superclass is
the first one that the graph knows, so above every id there is one sequence of types, which ends, or
comes back to one of its types and goes round from there. The chain of superclasses is what comes
before the first repeat.

The search has fuel for as many steps as there are types. That is enough for it to stop by itself,
which is what `Climbs` says.
-/

namespace RoleAudit.Graph

open Relation

/-- The type that is one step above an id and `n` steps above that. -/
def ancestor? (g : Graph) : Nat → NodeId → Option TypeNode
  | 0, id => g.supertypeOf? id
  | n + 1, id => (g.ancestor? n id).bind fun t => g.supertypeOf? t.id

/-- The list is a beginning of the sequence of types above an id. -/
def IsAncestry (g : Graph) (id : NodeId) (l : List TypeNode) : Prop :=
  l.map some = (List.range l.length).map (g.ancestor? · id)

/-- The nearest superclass of the one id has the other. -/
def IsBelow (g : Graph) (a b : NodeId) : Prop := ∃ t, g.supertypeOf? a = some t ∧ t.id = b

/-- The way up from an id as it goes on for as long as there is a superclass that was not seen, without
a bound on its steps. -/
inductive Climbs (g : Graph) : List NodeId → NodeId → List TypeNode → Prop
  /-- There is no superclass. -/
  | top {seen : List NodeId} {id : NodeId} (hsuper : g.supertypeOf? id = none) : Climbs g seen id []
  /-- The superclass was seen. -/
  | repeated {seen : List NodeId} {id : NodeId} {t : TypeNode} (hsuper : g.supertypeOf? id = some t)
    (hseen : t.id ∈ seen) : Climbs g seen id []
  /-- The superclass is new, and the way goes on from it. -/
  | up {seen : List NodeId} {id : NodeId} {t : TypeNode} {rest : List TypeNode}
    (hsuper : g.supertypeOf? id = some t) (hnew : t.id ∉ seen)
    (hrest : Climbs g (t.id :: seen) t.id rest) : Climbs g seen id (t :: rest)

variable {g : Graph} {seen : List NodeId} {id : NodeId} {chain : List TypeNode}

/-! ## The sequence above an id -/

theorem ancestor?_succ (n : Nat) (id : NodeId) :
    g.ancestor? (n + 1) id = (g.supertypeOf? id).bind fun t => g.ancestor? n t.id := by
  induction n with
  | zero => rfl
  | succ n ih =>
    rw [ancestor?, ih, Option.bind_assoc]
    rfl

theorem isAncestry_nil : g.IsAncestry id [] := rfl

theorem isAncestry_cons {t : TypeNode} {l : List TypeNode} :
    g.IsAncestry id (t :: l) ↔ g.supertypeOf? id = some t ∧ g.IsAncestry t.id l := by
  rw [IsAncestry, List.length_cons, List.range_succ_eq_map, List.map_cons, List.map_cons,
    List.map_map, List.cons.injEq, eq_comm]
  refine and_congr_right fun hsuper => ?_
  have hsuper : g.supertypeOf? id = some t := hsuper
  have hshift : (g.ancestor? · id) ∘ Nat.succ = (g.ancestor? · t.id) := by
    funext n
    show g.ancestor? (n + 1) id = _
    rw [ancestor?_succ, hsuper, Option.bind_some]
  rw [hshift, IsAncestry]

theorem IsAncestry.exists_ancestor? {l : List TypeNode} (h : g.IsAncestry id l) {t : TypeNode}
    (ht : t ∈ l) : ∃ n, g.ancestor? n id = some t := by
  have hsome : some t ∈ l.map some := List.mem_map_of_mem ht
  rw [h] at hsome
  obtain ⟨n, -, hn⟩ := List.mem_map.1 hsome
  exact ⟨n, hn⟩

/-- What can be reached by steps up is what is in the sequence. -/
theorem transGen_isBelow_iff {a : NodeId} :
    TransGen g.IsBelow id a ↔ ∃ n t, g.ancestor? n id = some t ∧ t.id = a := by
  constructor
  · intro h
    induction h with
    | single hstep =>
      obtain ⟨t, ht, hid⟩ := hstep
      exact ⟨0, t, ht, hid⟩
    | tail _ hstep ih =>
      obtain ⟨n, t, ht, rfl⟩ := ih
      obtain ⟨u, hu, hid⟩ := hstep
      exact ⟨n + 1, u, by rw [ancestor?, ht, Option.bind_some, hu], hid⟩
  · rintro ⟨n, t, ht, rfl⟩
    induction n generalizing t with
    | zero => exact .single ⟨t, ht, rfl⟩
    | succ n ih =>
      obtain ⟨u, hu, hsuper⟩ := Option.bind_eq_some_iff.1 ht
      exact (ih u hu).tail ⟨t, hsuper, rfl⟩

/-! ## The way up -/

namespace Climbs

/-- There is one way up. -/
theorem unique {chain' : List TypeNode} (h : g.Climbs seen id chain) (h' : g.Climbs seen id chain') :
    chain = chain' := by
  induction h generalizing chain' with
  | top hsuper => cases h' <;> simp_all
  | repeated hsuper hseen => cases h' <;> simp_all
  | up hsuper hnew _ ih =>
    cases h' with
    | top hsuper' => simp_all
    | repeated hsuper' hseen' => simp_all
    | up hsuper' _ hrest' =>
      obtain rfl := Option.some.inj (hsuper.symm.trans hsuper')
      rw [ih hrest']

/-- The way up is the longest beginning of the sequence that repeats nothing and meets nothing that
was seen. -/
theorem prefix_iff (h : g.Climbs seen id chain) {l : List TypeNode} :
    l <+: chain ↔
      g.IsAncestry id l ∧ (l.map (·.id)).Nodup ∧ List.Disjoint seen (l.map (·.id)) := by
  induction h generalizing l with
  | top hsuper =>
    cases l with
    | nil => simp [isAncestry_nil]
    | cons t l => simp [isAncestry_cons, hsuper]
  | repeated hsuper hseen =>
    cases l with
    | nil => simp [isAncestry_nil]
    | cons t l =>
      refine iff_of_false (by simp) ?_
      rintro ⟨hancestry, -, hdisjoint⟩
      obtain rfl := Option.some.inj (hsuper.symm.trans (isAncestry_cons.1 hancestry).1)
      exact hdisjoint hseen List.mem_cons_self
  | @up seen id t rest hsuper hnew _ ih =>
    cases l with
    | nil => simp [isAncestry_nil]
    | cons u l =>
      rw [List.cons_prefix_cons, isAncestry_cons, ih, List.map_cons, List.nodup_cons,
        List.disjoint_cons_left, List.disjoint_cons_right, hsuper, Option.some.injEq]
      constructor
      · rintro ⟨rfl, hancestry, hnodup, hnot, hdisjoint⟩
        exact ⟨⟨rfl, hancestry⟩, ⟨hnot, hnodup⟩, hnew, hdisjoint⟩
      · rintro ⟨⟨rfl, hancestry⟩, ⟨hnot, hnodup⟩, -, hdisjoint⟩
        exact ⟨rfl, hancestry, hnodup, hnot, hdisjoint⟩

/-- The way up ends only where nothing new is above. -/
theorem closed (h : g.Climbs seen id chain) {a : NodeId} (ha : a = id ∨ a ∈ chain.map (·.id))
    {u : TypeNode} (hu : g.supertypeOf? a = some u) : u.id ∈ seen ∨ u.id ∈ chain.map (·.id) := by
  induction h with
  | top hsuper =>
    obtain rfl : a = _ := ha.resolve_right List.not_mem_nil
    exact absurd (hsuper.symm.trans hu) (by simp)
  | repeated hsuper hseen =>
    obtain rfl : a = _ := ha.resolve_right List.not_mem_nil
    obtain rfl := Option.some.inj (hsuper.symm.trans hu)
    exact .inl hseen
  | @up seen id t rest hsuper hnew _ ih =>
    rw [List.map_cons, List.mem_cons] at ha ⊢
    rcases ha with rfl | ha
    · obtain rfl := Option.some.inj (hsuper.symm.trans hu)
      exact .inr (.inl rfl)
    · rcases ih ha with hseen | hmem
      · rcases List.mem_cons.1 hseen with hid | hseen
        · exact .inr (.inl hid)
        · exact .inl hseen
      · exact .inr (.inr hmem)

theorem isAncestry (h : g.Climbs seen id chain) : g.IsAncestry id chain :=
  (h.prefix_iff.1 List.prefix_rfl).1

/-- Where nothing was seen before, the way up meets the ids that steps up can reach. -/
theorem mem_ids_iff (h : g.Climbs [] id chain) {a : NodeId} :
    a ∈ chain.map (·.id) ↔ TransGen g.IsBelow id a := by
  constructor
  · intro ha
    obtain ⟨t, ht, rfl⟩ := List.mem_map.1 ha
    obtain ⟨n, hn⟩ := h.isAncestry.exists_ancestor? ht
    exact transGen_isBelow_iff.2 ⟨n, t, hn, rfl⟩
  · intro hreach
    induction hreach with
    | single hstep =>
      obtain ⟨t, ht, rfl⟩ := hstep
      exact (h.closed (.inl rfl) ht).resolve_left List.not_mem_nil
    | tail _ hstep ih =>
      obtain ⟨t, ht, rfl⟩ := hstep
      exact (h.closed (.inr ih) ht).resolve_left List.not_mem_nil

end Climbs

/-! ## Enough fuel -/

theorem Indexed.type?_of_supertypeOf? (h : g.Indexed) {t : TypeNode}
    (ht : g.supertypeOf? id = some t) : g.type? t.id = some t := by
  have hmem : t ∈ g.resolveTypes (g.indexes.supertypes.get id) := List.mem_of_head? ht
  exact (h.type?_of_mem_resolveTypes hmem).2

theorem Indexed.mem_typeIds_of_supertypeOf? (h : g.Indexed) {t : TypeNode}
    (ht : g.supertypeOf? id = some t) : t.id ∈ g.indexes.types.toList :=
  h.mem_typeIds (by rw [h.type?_of_supertypeOf? ht]; rfl)

theorem Indexed.type?_of_ancestor? (h : g.Indexed) {n : Nat} {t : TypeNode}
    (ht : g.ancestor? n id = some t) : g.type? t.id = some t := by
  cases n with
  | zero => exact h.type?_of_supertypeOf? ht
  | succ n =>
    obtain ⟨u, -, hsuper⟩ := Option.bind_eq_some_iff.1 ht
    exact h.type?_of_supertypeOf? hsuper

/-- As long as the fuel and what was seen are together as many as the types, the search stops by
itself: without fuel every type was seen. -/
theorem Indexed.climbs_supertypeChain (h : g.Indexed) {fuel : Nat} (hnodup : seen.Nodup)
    (hseen : seen ⊆ g.indexes.types.toList) (hfuel : g.typeCount ≤ fuel + seen.length) (id : NodeId) :
    g.Climbs seen id (g.supertypeChain fuel seen id) := by
  induction fuel generalizing seen id with
  | zero =>
    have hall : g.indexes.types.toList ⊆ seen := by
      refine (List.subperm_of_subset hnodup hseen).perm_of_length_le ?_ |>.symm.subset
      simpa [typeCount] using hfuel
    cases hsuper : g.supertypeOf? id with
    | none => exact .top hsuper
    | some t => exact .repeated hsuper (hall (h.mem_typeIds_of_supertypeOf? hsuper))
  | succ fuel ih =>
    rw [supertypeChain]
    cases hsuper : g.supertypeOf? id with
    | none => exact .top hsuper
    | some t =>
      by_cases hin : t.id ∈ seen
      · simp only [hin, if_true]
        exact .repeated hsuper hin
      · simp only [hin, if_false]
        have hcons : (t.id :: seen) ⊆ g.indexes.types.toList :=
          List.cons_subset.2 ⟨h.mem_typeIds_of_supertypeOf? hsuper, hseen⟩
        have hlength : g.typeCount ≤ fuel + (t.id :: seen).length := by
          rw [List.length_cons]
          omega
        exact .up hsuper hin (ih (List.nodup_cons.2 ⟨hin, hnodup⟩) hcons hlength t.id)

/-- From nothing seen, fuel for as many steps as there are types is enough, and more changes
nothing. -/
theorem Indexed.climbs_of_le (h : g.Indexed) {fuel : Nat} (hfuel : g.typeCount ≤ fuel)
    (id : NodeId) : g.Climbs [] id (g.supertypeChain fuel [] id) :=
  h.climbs_supertypeChain List.nodup_nil (List.nil_subset _) (by simpa using hfuel) id

theorem Indexed.supertypeChain_of_le (h : g.Indexed) {fuel : Nat} (hfuel : g.typeCount ≤ fuel)
    (id : NodeId) : g.supertypeChain fuel [] id = g.supertypesOf id :=
  (h.climbs_of_le hfuel id).unique (h.climbs_of_le le_rfl id)

theorem Indexed.climbs_iff (h : g.Indexed) : g.Climbs [] id chain ↔ chain = g.supertypesOf id := by
  have hends : g.Climbs [] id (g.supertypesOf id) := h.climbs_of_le le_rfl id
  constructor
  · exact fun hchain => hchain.unique hends
  · rintro rfl
    exact hends

/-- Whatever nodes and edges a graph is given, superclasses in circles and several of one type
included. The way up from an id ends, and it is the chain of superclasses. Of all beginnings of the
sequence above the id, the chain and its own beginnings are those without a repeat. It has the types
that are in the sequence at all, and the type of the id itself exactly if that lies on a circle. -/
theorem supertypesOf_until_first_repeat (metadata : Metadata) (calls : List Insertion) (id : NodeId) :
    let g := calls.foldl attempt (withMetadata metadata)
    (∀ chain, g.Climbs [] id chain ↔ chain = g.supertypesOf id) ∧
    (∀ l, l <+: g.supertypesOf id ↔ g.IsAncestry id l ∧ (l.map (·.id)).Nodup) ∧
    (∀ t, t ∈ g.supertypesOf id ↔ ∃ n, g.ancestor? n id = some t) ∧
    ((∃ t ∈ g.supertypesOf id, t.id = id) ↔ TransGen g.IsBelow id id) := by
  intro g
  have h : g.Indexed := (Indexed.withMetadata metadata).foldl_attempt calls
  have hclimbs : g.Climbs [] id (g.supertypesOf id) := h.climbs_iff.2 rfl
  refine ⟨fun chain => h.climbs_iff, fun l => ?_, fun t => ⟨?_, ?_⟩, ?_⟩
  · rw [hclimbs.prefix_iff, and_iff_left (List.disjoint_nil_left _)]
  · exact hclimbs.isAncestry.exists_ancestor?
  · rintro ⟨n, hn⟩
    have hreach : TransGen g.IsBelow id t.id := transGen_isBelow_iff.2 ⟨n, t, hn, rfl⟩
    obtain ⟨u, hu, hid⟩ := List.mem_map.1 (hclimbs.mem_ids_iff.2 hreach)
    -- both are the type of the same id
    obtain ⟨k, hk⟩ := hclimbs.isAncestry.exists_ancestor? hu
    have htype := h.type?_of_ancestor? hk
    rw [hid, h.type?_of_ancestor? hn] at htype
    rwa [Option.some.inj htype]
  · rw [← hclimbs.mem_ids_iff, List.mem_map]

/-- A class stands below two that extend each other. The second one extends a further class as well,
which is not its nearest superclass. -/
example :
    let type (name : String) : Insertion := .node (.type (.ofName name .plainClass))
    let below (name above : String) : Insertion :=
      .edge (.raw (.ofType name) (.ofType above) .extends)
    let g := ofAttempts [type "Pup", type "Dog", type "Wolf", type "Beast", below "Pup" "Dog",
      below "Dog" "Wolf", below "Wolf" "Dog", below "Wolf" "Beast"]
    (g.supertypesOf (.ofType "Pup")).map (·.name) = ["Dog", "Wolf"] ∧
      (g.supertypesOf (.ofType "Wolf")).map (·.name) = ["Dog", "Wolf"] := by
  decide +kernel

end RoleAudit.Graph
