import RoleAudit.Proofs.Constraint.AggregateCycle

/-!
# References between aggregates

The digraph of aggregates, edge by edge. An aggregate is joined to another one where a chain of
fields leads there that no third aggregate interrupts; how the chain goes through the types in
between, and whether these refer to each other in circles, does not matter. The chain is one of names
in the declared fields, so nothing here speaks of the search but that it ends.
-/

namespace RoleAudit

open Relation

/-- A walk along steps whose targets have a property, and one more step, as a list of the nodes in
between. -/
theorem exists_reflTransGen_iff_isChain {α : Type} {step : α → α → Prop} {p : α → Prop} {a b : α} :
    (∃ x, ReflTransGen (fun x y => step x y ∧ p y) a x ∧ step x b) ↔
      ∃ via, (a :: (via ++ [b])).IsChain step ∧ ∀ x ∈ via, p x := by
  constructor
  · rintro ⟨x, hwalk, hlast⟩
    induction hwalk using ReflTransGen.head_induction_on with
    | refl => exact ⟨[], by simpa using hlast, by simp⟩
    | @head a c hstep _ ih =>
      obtain ⟨via, hchain, hvia⟩ := ih
      exact ⟨c :: via, List.isChain_cons_cons.2 ⟨hstep.1, hchain⟩,
        List.forall_mem_cons.2 ⟨hstep.2, hvia⟩⟩
  · rintro ⟨via, hchain, hvia⟩
    induction via generalizing a with
    | nil => exact ⟨a, .refl, by simpa using hchain⟩
    | cons c via ih =>
      obtain ⟨hstep, hrest⟩ := List.isChain_cons_cons.1 hchain
      obtain ⟨hc, hvia⟩ := List.forall_mem_cons.1 hvia
      obtain ⟨x, hwalk, hlast⟩ := ih hrest hvia
      exact ⟨x, .head ⟨hstep, hc⟩ hwalk, hlast⟩

namespace Graph

variable {g : Graph}

/-- A field that the one node declares mentions the name of the other, which need not be in the
graph. -/
def FieldReference (g : Graph) (a b : NodeId) : Prop :=
  ∃ f, .field f ∈ g.nodes ∧
    (∃ e ∈ g.edges, e.kind = .declares ∧ e.source = a ∧ e.target = f.id) ∧
    ∃ name, f.type.Mentions name ∧ b = .ofType name

/-- The fields of a type are the field nodes at the ends of its declarations. -/
theorem Indexed.mem_fieldsOf (h : g.Indexed) {a : NodeId} {f : FieldNode} :
    f ∈ g.fieldsOf a ↔ .field f ∈ g.nodes ∧
      ∃ e ∈ g.edges, e.kind = .declares ∧ e.source = a ∧ e.target = f.id := by
  have hmember : ∀ {id : NodeId}, id ∈ g.indexes.declaredMembers.get a ↔
      ∃ e ∈ g.edges, e.kind = .declares ∧ e.source = a ∧ e.target = id := by
    intro id
    rw [h.declaredMembers, mem_distinct, targetsOf, List.mem_map]
    simp [and_assoc]
  simp only [fieldsOf, membersOf, resolve, List.mem_filterMap, Node.field?_eq_some,
    exists_eq_right, h.node?_eq_some, hmember]
  constructor
  · rintro ⟨id, hdeclared, hnode, rfl⟩
    exact ⟨hnode, hdeclared⟩
  · rintro ⟨hnode, hdeclared⟩
    exact ⟨f.id, hdeclared, hnode, rfl⟩

/-- What the search follows are the references to types of the graph. -/
theorem Indexed.refers_iff (h : g.Indexed) {a b : NodeId} :
    g.Refers a b ↔ g.FieldReference a b ∧ b ∈ g.types.map (·.id) := by
  have htype : (g.type? b).isSome = true ↔ b ∈ g.types.map (·.id) := by
    rw [Option.isSome_iff_exists, List.mem_map, h.types_eq]
    simp only [h.type?_eq_some]
  rw [Refers, fieldReferences, List.mem_filter, htype, List.mem_map]
  refine and_congr_left fun _ => ?_
  simp only [List.mem_flatMap, h.mem_fieldsOf, TypeRef.mem_names_iff]
  constructor
  · rintro ⟨name, ⟨f, ⟨hnode, hdeclared⟩, hname⟩, rfl⟩
    exact ⟨f, hnode, hdeclared, name, hname, rfl⟩
  · rintro ⟨f, hnode, hdeclared, name, hname, rfl⟩
    exact ⟨name, ⟨f, ⟨hnode, hdeclared⟩, hname⟩, rfl⟩

/-- A walk past types without the property, and the step to a type behind it, as a chain of
references. -/
theorem Indexed.exists_refersPast_iff (h : g.Indexed) {hasProperty : NodeId → Bool} {a b : NodeId}
    (hb : b ∈ g.types.map (·.id)) :
    (∃ x, ReflTransGen (g.RefersPast hasProperty) a x ∧ g.Refers x b) ↔
      ∃ via, (a :: (via ++ [b])).IsChain g.FieldReference ∧
        ∀ x ∈ via, x ∈ g.types.map (·.id) ∧ hasProperty x = false := by
  have hpast : g.RefersPast hasProperty = fun x y =>
      g.FieldReference x y ∧ y ∈ g.types.map (·.id) ∧ hasProperty y = false := by
    funext x y
    rw [RefersPast, h.refers_iff, and_assoc]
  have hlast : ∀ {x}, g.Refers x b ↔ g.FieldReference x b := by
    intro x
    rw [h.refers_iff, and_iff_left hb]
  simp only [hpast, hlast]
  exact exists_reflTransGen_iff_isChain

section Classified

variable {c : Classifier}

/-- The aggregates are types of the graph, each once. -/
theorem Indexed.aggregateIds_sublist (h : g.Indexed) :
    (aggregateIds (c.classify g)).Sublist (g.types.map (·.id)) := by
  have hresults : ((c.classify g).results.map (·.nodeId)).Sublist (g.types.map (·.id)) := by
    rw [c.map_nodeId_results h, h.types_eq]
    exact List.filter_sublist.map _
  exact (List.filter_sublist.map _).trans hresults

theorem Indexed.aggregateIds_nodup (h : g.Indexed) : (aggregateIds (c.classify g)).Nodup :=
  (List.filter_sublist.map _).nodup (c.nodup_results h)

/-- No edge brings a node that is not among the aggregates. -/
theorem Indexed.nodes_aggregateReferences (h : g.Indexed) :
    (g.aggregateReferences (c.classify g)).nodes = aggregateIds (c.classify g) := by
  set aggregates := aggregateIds (c.classify g) with haggregates
  have hnodes : (aggregates.map Digraph.Mention.node).flatMap Digraph.Mention.names = aggregates := by
    rw [List.flatMap_map]
    exact List.flatMap_singleton' _
  rw [aggregateReferences_eq, Digraph.nodes_ofMentions, List.flatMap_append, ← haggregates, hnodes,
    distinct_append_of_subset, distinct_eq_self h.aggregateIds_nodup]
  intro x hx
  obtain ⟨m, hm, hname⟩ := List.mem_flatMap.1 hx
  obtain ⟨a, ha, hm⟩ := List.mem_flatMap.1 hm
  obtain ⟨b, hb, rfl⟩ := List.mem_map.1 hm
  rcases List.mem_pair.1 hname with rfl | rfl
  · exact ha
  · exact List.contains_iff_mem.1 (h.mem_referencedAggregates.1 hb).1

end Classified

/-- The digraph of the aggregates of a classification: its nodes are the aggregate roots in the order
of the results, none has an edge to itself, and there is an edge from one to another exactly if a
chain of field references leads there through types of the graph that are no aggregate roots. The
search behind the edges ends from everywhere, with one result. -/
theorem aggregateReferences_follow_fields (h : g.Indexed) (c : Classifier) :
    let k := c.classify g
    let references := g.aggregateReferences k
    references.nodes = (k.results.filter (·.role = some .aggregateRoot)).map (·.nodeId) ∧
    (∀ a, references.hasEdge a a = false) ∧
    (∀ a b, references.hasEdge a b = true ↔ a ≠ b ∧
      k.roleOf? a = some .aggregateRoot ∧ k.roleOf? b = some .aggregateRoot ∧
      ∃ via, (a :: (via ++ [b])).IsChain g.FieldReference ∧
        ∀ x ∈ via, x ∈ g.types.map (·.id) ∧ k.roleOf? x ≠ some .aggregateRoot) ∧
    ∀ isAggregate a found, g.FindsThroughFields isAggregate [a] [a] found ↔
      found = g.referencedAggregates isAggregate a := by
  intro k references
  have hreferences : references.WellFormed := g.wellFormed_aggregateReferences k
  have hrole : ∀ {a}, a ∈ aggregateIds k ↔ k.roleOf? a = some .aggregateRoot := c.mem_ofRole_iff h
  have hpast : ∀ {a}, (aggregateIds k).contains a = false ↔ k.roleOf? a ≠ some .aggregateRoot := by
    intro a
    rw [Ne, ← hrole, ← List.contains_iff_mem, Bool.not_eq_true]
  refine ⟨h.nodes_aggregateReferences, ?_, ?_, ?_⟩
  · intro a
    rw [← Bool.not_eq_true, hreferences.hasEdge_iff, h.leads_aggregateReferences_iff]
    exact fun hloop => hloop.2.2.1 rfl
  · intro a b
    rw [hreferences.hasEdge_iff, h.leads_aggregateReferences_iff, hrole, hrole]
    constructor
    · rintro ⟨ha, hb, hne, hwalk⟩
      have htype := h.aggregateIds_sublist.subset (hrole.2 hb)
      obtain ⟨via, hchain, hvia⟩ := (h.exists_refersPast_iff htype).1 hwalk
      exact ⟨hne.symm, ha, hb, via, hchain, fun x hx => ⟨(hvia x hx).1, hpast.1 (hvia x hx).2⟩⟩
    · rintro ⟨hne, ha, hb, via, hchain, hvia⟩
      have htype := h.aggregateIds_sublist.subset (hrole.2 hb)
      exact ⟨ha, hb, hne.symm, (h.exists_refersPast_iff htype).2
        ⟨via, hchain, fun x hx => ⟨(hvia x hx).1, hpast.2 (hvia x hx).2⟩⟩⟩
  · intro isAggregate a found
    exact h.findsThroughFields_iff

end Graph

namespace Constraint

/-- A shipment is packed into parcels. -/
def shipment : SourceType where
  name := "freight.Shipment"
  form := .plainClass
  fields := [.privateFinal "parcels" ⟨"java.util.List", [.plain "freight.Parcel"]⟩]

/-- A parcel knows its label. -/
def parcel : SourceType where
  name := "freight.Parcel"
  form := .plainClass
  fields := [.privateFinal "label" (.plain "freight.Label")]

/-- A label knows its parcel, and who carries it. -/
def parcelLabel : SourceType where
  name := "freight.Label"
  form := .record
  fields := [
    .privateFinal "parcel" (.plain "freight.Parcel"),
    .privateFinal "carriers" ⟨"java.util.Set", [.plain "freight.Carrier"]⟩]

/-- A carrier stands alone. -/
def carrier : SourceType := { name := "freight.Carrier", form := .plainClass }

/-- Freight in which a shipment owns types that refer to each other. -/
def freight : Model := { types := [shipment, parcel, parcelLabel, carrier] }

/-- The roles that the settings of the freight give. -/
def freightRoles : Classifier where
  exclusions := {}
  explicit :=
    { entries := [("freight.Carrier", .aggregateRoot), ("freight.Label", .valueObject),
        ("freight.Parcel", .entity), ("freight.Shipment", .aggregateRoot)]
      ascending := by decide }

/-- A shipment refers to a carrier by way of a parcel and its label, which refer to each other. -/
theorem shipment_refers_to_carrier :
    ∃ g, freight.buildWith true = .ok g ∧
      g.FieldReference parcel.id parcelLabel.id ∧ g.FieldReference parcelLabel.id parcel.id ∧
      (g.aggregateReferences (freightRoles.classify g)).hasEdge shipment.id carrier.id = true := by
  obtain ⟨g, hg⟩ := Error.exists_of_isOk ((freight.isOk_buildWith_iff true).2 (by decide))
  have hbuilds := Model.builds_of_buildWith hg
  have hix := hbuilds.indexed
  have hrole : ∀ t ∈ freight.types, ∀ role, freightRoles.explicit.get? t.name = some role →
      (freightRoles.classify g).roleOf? t.id = some role := by
    intro t ht role hset
    exact freightRoles.roleOf?_of_explicit hix (hbuilds.mem_typeNodes ht) rfl hset
  have hrefers : ∀ t ∈ freight.types, ∀ f ∈ t.fields, ∀ u ∈ freight.types, f.type.Mentions u.name →
      g.FieldReference t.id u.id := by
    intro t ht f hf u hu hmentions
    exact (hix.refers_iff.1 (hbuilds.refers_iff.2 ⟨t, ht, f, hf, u, hu, hmentions, rfl, rfl⟩)).1
  have htype : ∀ t ∈ freight.types, t.id ∈ g.types.map (·.id) :=
    fun t ht => List.mem_map_of_mem (hbuilds.mem_types ht)
  have hpacked : g.FieldReference shipment.id parcel.id :=
    hrefers shipment (by simp [freight]) _ List.mem_cons_self parcel (by simp [freight])
      (.argument List.mem_cons_self (.own _ _))
  have hlabelled : g.FieldReference parcel.id parcelLabel.id :=
    hrefers parcel (by simp [freight]) _ List.mem_cons_self parcelLabel (by simp [freight])
      (.own _ _)
  have hback : g.FieldReference parcelLabel.id parcel.id :=
    hrefers parcelLabel (by simp [freight]) _ List.mem_cons_self parcel (by simp [freight])
      (.own _ _)
  have hcarried : g.FieldReference parcelLabel.id carrier.id :=
    hrefers parcelLabel (by simp [freight]) _ (List.mem_cons_of_mem _ List.mem_cons_self) carrier
      (by simp [freight]) (.argument List.mem_cons_self (.own _ _))
  have hparcel := hrole parcel (by simp [freight]) .entity (by decide)
  have hlabel := hrole parcelLabel (by simp [freight]) .valueObject (by decide)
  have hedges := (Graph.aggregateReferences_follow_fields hix freightRoles).2.2.1
  refine ⟨g, hg, hlabelled, hback, (hedges _ _).2 ⟨by decide, ?_, ?_, ?_⟩⟩
  · exact hrole shipment (by simp [freight]) .aggregateRoot (by decide)
  · exact hrole carrier (by simp [freight]) .aggregateRoot (by decide)
  · refine ⟨[parcel.id, parcelLabel.id], ?_, ?_⟩
    · simp [hpacked, hlabelled, hcarried]
    · intro x hx
      rcases List.mem_pair.1 hx with rfl | rfl
      · exact ⟨htype parcel (by simp [freight]), by simp [hparcel]⟩
      · exact ⟨htype parcelLabel (by simp [freight]), by simp [hlabel]⟩

end Constraint

end RoleAudit
