import RoleAudit.Proofs.Classification.Results
import RoleAudit.Proofs.Constraint.FieldReach
import RoleAudit.Proofs.Digraph.CycleSearch
import RoleAudit.Proofs.Model.Build

/-!
# Circles of aggregates

Between aggregates the search along fields stops at every aggregate it meets, and the digraph of
aggregates has an edge for each of these stretches. A chain of references between two aggregates falls
into such stretches, so that the digraph has a cycle exactly if two aggregates can reach each other.
-/

namespace RoleAudit

open Relation

namespace Graph

variable {g : Graph} {classification : Classification}

/-- The aggregates of a classification. -/
def aggregateIds (classification : Classification) : List NodeId :=
  (classification.ofRole .aggregateRoot).map (·.nodeId)

theorem aggregateReferences_eq (g : Graph) (classification : Classification) :
    g.aggregateReferences classification = .ofMentions
      ((aggregateIds classification).map .node ++ (aggregateIds classification).flatMap fun a =>
        (g.referencedAggregates (aggregateIds classification).contains a).map (.edge a)) := by
  rw [Digraph.ofMentions, List.foldl_append, List.foldl_map, List.foldl_flatMap]
  simp only [List.foldl_map]
  rfl

theorem wellFormed_aggregateReferences (g : Graph) (classification : Classification) :
    (g.aggregateReferences classification).WellFormed := by
  rw [aggregateReferences_eq]
  exact Digraph.wellFormed_ofMentions _

theorem leads_aggregateReferences {a b : NodeId} :
    (g.aggregateReferences classification).Leads a b ↔ a ∈ aggregateIds classification ∧
      b ∈ g.referencedAggregates (aggregateIds classification).contains a := by
  rw [aggregateReferences_eq, Digraph.leads_ofMentions]
  simp

/-- Between aggregates there is an edge where a chain of references meets no other aggregate. -/
theorem Indexed.leads_aggregateReferences_iff (h : g.Indexed) {a b : NodeId} :
    (g.aggregateReferences classification).Leads a b ↔
      a ∈ aggregateIds classification ∧ b ∈ aggregateIds classification ∧ b ≠ a ∧
        ∃ x, ReflTransGen (g.RefersPast (aggregateIds classification).contains) a x ∧
          g.Refers x b := by
  rw [leads_aggregateReferences, h.mem_referencedAggregates, List.contains_iff_mem]

/-- An edge between aggregates stands for a chain of references. -/
theorem Indexed.transGen_of_leads (h : g.Indexed) {a b : NodeId}
    (hl : (g.aggregateReferences classification).Leads a b) : TransGen g.Refers a b := by
  obtain ⟨-, -, -, x, hreach, href⟩ := h.leads_aggregateReferences_iff.1 hl
  have hpath : ReflTransGen g.Refers a x := hreach.lift id fun _ _ hstep => hstep.1
  exact TransGen.tail' hpath href

theorem Indexed.reflTransGen_of_reaches (h : g.Indexed) {a b : NodeId}
    (hr : (g.aggregateReferences classification).Reaches a b) : ReflTransGen g.Refers a b := by
  induction hr with
  | refl => exact ReflTransGen.refl
  | tail _ hl ih => exact ih.trans (h.transGen_of_leads hl).to_reflTransGen

/-- A chain of references from an aggregate has a last aggregate, which the digraph reaches. -/
theorem Indexed.exists_last_aggregate (h : g.Indexed) {a x : NodeId}
    (ha : a ∈ aggregateIds classification) (hr : ReflTransGen g.Refers a x) :
    ∃ c ∈ aggregateIds classification, (g.aggregateReferences classification).Reaches a c ∧
      ReflTransGen (g.RefersPast (aggregateIds classification).contains) c x := by
  induction hr with
  | refl => exact ⟨a, ha, ReflTransGen.refl, ReflTransGen.refl⟩
  | @tail x y _ href ih =>
    obtain ⟨c, hc, hac, hcx⟩ := ih
    by_cases hy : y ∈ aggregateIds classification
    · by_cases hyc : y = c
      · exact ⟨y, hy, hyc ▸ hac, ReflTransGen.refl⟩
      · have hl := h.leads_aggregateReferences_iff.2 ⟨hc, hy, hyc, x, hcx, href⟩
        exact ⟨y, hy, ReflTransGen.tail hac hl, ReflTransGen.refl⟩
    · exact ⟨c, hc, hac, hcx.tail ⟨href, by simpa using hy⟩⟩

/-- Aggregates reach each other along references as they do in the digraph. -/
theorem Indexed.reaches_iff (h : g.Indexed) {a b : NodeId} (ha : a ∈ aggregateIds classification)
    (hb : b ∈ aggregateIds classification) :
    (g.aggregateReferences classification).Reaches a b ↔ ReflTransGen g.Refers a b := by
  refine ⟨h.reflTransGen_of_reaches, fun hr => ?_⟩
  obtain ⟨c, -, hac, hcb⟩ := h.exists_last_aggregate ha hr
  rcases ReflTransGen.cases_tail hcb with heq | ⟨x, -, hlast⟩
  · exact heq ▸ hac
  · -- the last step of the rest would be to a type that is no aggregate
    have hnot := hlast.2
    simp [hb] at hnot

/-- The digraph of aggregates has a cycle if two of them reach each other. -/
theorem Indexed.hasCycle_iff (h : g.Indexed) :
    (g.aggregateReferences classification).HasCycle ↔
      ∃ a b, a ≠ b ∧ a ∈ aggregateIds classification ∧ b ∈ aggregateIds classification ∧
        TransGen g.Refers a b ∧ TransGen g.Refers b a := by
  constructor
  · rintro ⟨a, hcycle⟩
    obtain ⟨b, hl, hback⟩ := TransGen.head'_iff.1 hcycle
    obtain ⟨ha, hb, hne, -⟩ := h.leads_aggregateReferences_iff.1 hl
    have hba := h.reflTransGen_of_reaches hback
    exact ⟨a, b, hne.symm, ha, hb, h.transGen_of_leads hl,
      (reflTransGen_iff_eq_or_transGen.1 hba).resolve_left hne.symm⟩
  · rintro ⟨a, b, hne, ha, hb, hab, hba⟩
    have hto := (h.reaches_iff ha hb).2 hab.to_reflTransGen
    have hfrom := (h.reaches_iff hb ha).2 hba.to_reflTransGen
    have hstep := (reflTransGen_iff_eq_or_transGen.1 hto).resolve_left hne.symm
    exact ⟨a, hstep.trans_left hfrom⟩

end Graph

namespace Model

variable {m : Model} {derived : Bool} {g : Graph}

/-- A field of one declared type mentions another, at any depth of its type. -/
def FieldReference (m : Model) (a b : NodeId) : Prop :=
  ∃ t ∈ m.types, ∃ f ∈ t.fields, ∃ u ∈ m.types, f.type.Mentions u.name ∧ a = t.id ∧ b = u.id

/-- The references along fields in the graph of a model are those of its declarations. -/
theorem Builds.refers_iff (h : m.Builds derived g) {a b : NodeId} :
    g.Refers a b ↔ m.FieldReference a b := by
  rw [Graph.Refers, Graph.fieldReferences, List.mem_filter, List.mem_map, h.type?_isSome]
  constructor
  · rintro ⟨⟨name, hname, rfl⟩, hb⟩
    obtain ⟨f, hf, hnamed⟩ := List.mem_flatMap.1 hname
    by_cases ha : a ∈ m.typeIds
    · obtain ⟨t, ht, rfl⟩ := List.mem_map.1 ha
      rw [h.fieldsOf_eq ht] at hf
      obtain ⟨field, hfield, rfl⟩ := List.mem_map.1 hf
      obtain ⟨u, hu, huname⟩ := List.mem_map.1 hb
      obtain rfl : u.name = name := NodeId.ofType_injective huname
      exact ⟨t, ht, field, hfield, u, hu, TypeRef.mem_names_iff.1 hnamed, rfl, rfl⟩
    · rw [Graph.fieldsOf, h.membersOf_eq_nil ha] at hf
      exact absurd hf List.not_mem_nil
  · rintro ⟨t, ht, f, hf, u, hu, hmentions, rfl, rfl⟩
    refine ⟨⟨u.name, ?_, rfl⟩, List.mem_map_of_mem hu⟩
    rw [h.fieldsOf_eq ht]
    exact List.mem_flatMap.2
      ⟨t.fieldNode f, List.mem_map_of_mem hf, TypeRef.mem_names_iff.2 hmentions⟩

end Model

namespace Constraint

variable {settings : CycleSettings} {g : Graph} {classification : Classification}

theorem distinctCycles_subset (seen : List (List String)) (cycles : List (List NodeId)) :
    distinctCycles seen cycles ⊆ cycles := by
  induction cycles generalizing seen with
  | nil => exact List.Subset.refl _
  | cons cycle rest ih =>
    rw [distinctCycles]
    split
    · exact fun c hc => List.mem_cons_of_mem _ (ih _ hc)
    · exact List.cons_subset_cons _ (ih _)

theorem distinctCycles_eq_nil_iff {cycles : List (List NodeId)} :
    distinctCycles [] cycles = [] ↔ cycles = [] := by
  cases cycles with
  | nil => simp [distinctCycles]
  | cons cycle rest => simp [distinctCycles]

/-- The critical violations are those of the cycles found. -/
theorem mem_findings_critical_iff {v : Violation} :
    v ∈ (aggregateCycle settings).findings g classification ∧ v.severity = .critical ↔
      ∃ cycle ∈ distinctCycles []
          ((g.aggregateReferences classification).findCycles settings.maxCycles).cycles,
        aggregateCycleViolation g cycle = v := by
  rw [← List.mem_map]
  constructor
  · rintro ⟨hv, hcritical⟩
    rcases List.mem_append.1 hv with hv | hv
    · exact hv
    · split at hv
      · rw [List.mem_singleton.1 hv] at hcritical
        exact absurd hcritical (by simp [truncationNotice])
      · exact absurd hv List.not_mem_nil
  · intro hv
    refine ⟨List.mem_append_left _ hv, ?_⟩
    obtain ⟨cycle, -, rfl⟩ := List.mem_map.1 hv
    rfl

theorem exists_critical_iff :
    (∃ v ∈ (aggregateCycle settings).findings g classification, v.severity = .critical) ↔
      ((g.aggregateReferences classification).findCycles settings.maxCycles).cycles ≠ [] := by
  constructor
  · rintro ⟨v, hv, hcritical⟩
    obtain ⟨cycle, hin, -⟩ := mem_findings_critical_iff.1 ⟨hv, hcritical⟩
    exact List.ne_nil_of_mem (distinctCycles_subset _ _ hin)
  · intro hne
    obtain ⟨cycle, hin⟩ := List.exists_mem_of_ne_nil _ (mt distinctCycles_eq_nil_iff.1 hne)
    exact ⟨_, mem_findings_critical_iff.2 ⟨cycle, hin, rfl⟩⟩

/-- There are violations of cycles and one note, and nothing else. -/
theorem severity_of_mem_findings {v : Violation}
    (hv : v ∈ (aggregateCycle settings).findings g classification) :
    v.severity = .critical ∨ v.severity = .info := by
  rcases List.mem_append.1 hv with hv | hv
  · obtain ⟨cycle, -, rfl⟩ := List.mem_map.1 hv
    exact Or.inl rfl
  · split at hv
    · rw [List.mem_singleton.1 hv]
      exact Or.inr rfl
    · exact absurd hv List.not_mem_nil

/-- Nothing is reported exactly if the digraph of aggregates has no cycle, whatever the limit. -/
theorem findings_eq_nil_iff :
    (aggregateCycle settings).findings g classification = [] ↔
      ¬ (g.aggregateReferences classification).HasCycle := by
  rw [← (g.wellFormed_aggregateReferences classification).silent_iff settings.maxCycles]
  show _ ++ _ = [] ↔ _
  rw [List.append_eq_nil_iff, List.map_eq_nil_iff, distinctCycles_eq_nil_iff]
  refine and_congr_right fun _ => ?_
  split
  · rename_i htrunc
    simp [htrunc]
  · rename_i htrunc
    simpa using htrunc

/-- No aggregate refers to itself in the digraph, so a cycle of it has two nodes at least. -/
theorem two_le_of_isCycle (h : g.Indexed) {cycle : List NodeId}
    (hcycle : (g.aggregateReferences classification).IsCycle cycle) :
    ∃ a b rest, cycleMembers cycle = a :: b :: rest := by
  obtain ⟨a, rest, rfl, hdrop⟩ := hcycle.exists_eq
  cases rest with
  | nil =>
    have hloop := (List.isChain_cons.1 hcycle.chain).1 a (by simp)
    exact absurd rfl (h.leads_aggregateReferences_iff.1 hloop).2.2.1
  | cons b rest => exact ⟨a, b, rest, hdrop⟩

/-- The nodes of a cycle in the digraph are aggregates that reach each other. -/
theorem nodes_of_isCycle (h : g.Indexed) {cycle : List NodeId}
    (hcycle : (g.aggregateReferences classification).IsCycle cycle) :
    2 ≤ (cycleMembers cycle).length ∧ (cycleMembers cycle).Nodup ∧
      (∀ a ∈ cycleMembers cycle, a ∈ Graph.aggregateIds classification) ∧
      ∀ a ∈ cycleMembers cycle, ∀ b ∈ cycleMembers cycle, TransGen g.Refers a b := by
  obtain ⟨a, b, rest, hmembers⟩ := two_le_of_isCycle h hcycle
  have hnodup : (cycleMembers cycle).Nodup := hcycle.nodup
  have hdiffer : ∀ x ∈ cycleMembers cycle, ∀ y ∈ cycleMembers cycle, x ≠ y →
      TransGen g.Refers x y := by
    intro x hx y hy hne
    have hr := h.reflTransGen_of_reaches (hcycle.reaches hx hy)
    exact (reflTransGen_iff_eq_or_transGen.1 hr).resolve_left hne.symm
  refine ⟨?_, hnodup, ?_, ?_⟩
  · rw [hmembers]
    simp
  · intro x hx
    obtain ⟨y, hl⟩ := hcycle.exists_leads hx
    exact (h.leads_aggregateReferences_iff.1 hl).1
  · intro x hx y hy
    by_cases hxy : x = y
    · -- around the cycle, by way of another node
      obtain ⟨z, hz, hne⟩ : ∃ z ∈ cycleMembers cycle, x ≠ z := by
        by_cases hxa : x = a
        · refine ⟨b, by simp [hmembers], ?_⟩
          rintro rfl
          rw [hmembers, hxa] at hnodup
          simp at hnodup
        · exact ⟨a, by simp [hmembers], hxa⟩
      rw [← hxy]
      exact (hdiffer x hx z hz hne).trans (hdiffer z hz x hx hne.symm)
    · exact hdiffer x hx y hy hxy

/-- Of a model with a graph and of any classifier, and unless no cycle may be reported: there is a
critical violation exactly if two different aggregate roots reach each other along fields of any
types, and the nodes of each are two or more different aggregate roots that all reach each other. -/
theorem aggregateCycle_sound_and_complete {m : Model} {derived : Bool} {g : Graph}
    (hbuild : m.buildWith derived = .ok g) (c : Classifier) (settings : CycleSettings)
    (hmax : 1 ≤ settings.maxCycles) :
    ((∃ v ∈ (aggregateCycle settings).findings g (c.classify g), v.severity = .critical) ↔
      ∃ a b, a ≠ b ∧ (c.classify g).roleOf? a = some .aggregateRoot ∧
        (c.classify g).roleOf? b = some .aggregateRoot ∧
        TransGen m.FieldReference a b ∧ TransGen m.FieldReference b a) ∧
    ∀ v ∈ (aggregateCycle settings).findings g (c.classify g), v.severity = .critical →
      2 ≤ v.nodes.length ∧ v.nodes.Nodup ∧
        (∀ a ∈ v.nodes, (c.classify g).roleOf? a = some .aggregateRoot) ∧
        ∀ a ∈ v.nodes, ∀ b ∈ v.nodes, TransGen m.FieldReference a b := by
  have hbuilds := Model.builds_of_buildWith hbuild
  have hix := hbuilds.indexed
  have hrefers : g.Refers = m.FieldReference :=
    funext fun a => funext fun b => propext hbuilds.refers_iff
  have hrole : ∀ {a}, a ∈ Graph.aggregateIds (c.classify g) ↔
      (c.classify g).roleOf? a = some .aggregateRoot := c.mem_ofRole_iff hix
  have hwf := g.wellFormed_aggregateReferences (c.classify g)
  refine ⟨?_, ?_⟩
  · rw [exists_critical_iff, hwf.findCycles_ne_nil_iff, and_iff_right hmax, hix.hasCycle_iff, hrefers]
    simp only [hrole]
  · intro v hv hcritical
    obtain ⟨cycle, hin, rfl⟩ := mem_findings_critical_iff.1 ⟨hv, hcritical⟩
    have hcycle := hwf.isCycle_of_mem (distinctCycles_subset _ _ hin)
    obtain ⟨htwo, hnodup, haggregates, hreach⟩ := nodes_of_isCycle hix hcycle
    rw [hrefers] at hreach
    exact ⟨htwo, hnodup, fun a ha => hrole.1 (haggregates a ha), hreach⟩

/-- An order owns lines. -/
def order : SourceType where
  name := "shop.Order"
  form := .plainClass
  fields := [.privateFinal "lines" ⟨"java.util.List", [.plain "shop.Line"]⟩]

/-- A line names a customer. -/
def line : SourceType where
  name := "shop.Line"
  form := .record
  fields := [.privateFinal "buyer" (.plain "shop.Customer")]

/-- A customer keeps orders. -/
def customer : SourceType where
  name := "shop.Customer"
  form := .plainClass
  fields := [.privateFinal "orders" ⟨"java.util.Set", [.plain "shop.Order"]⟩]

/-- A shop in which orders and customers are aggregates. -/
def shop : Model := { types := [order, line, customer] }

/-- The roles that the settings of the shop give. -/
def shopRoles : Classifier where
  exclusions := {}
  explicit :=
    { entries := [("shop.Customer", .aggregateRoot), ("shop.Order", .aggregateRoot)]
      ascending := by decide }

/-- In the shop the circle of orders and customers, closed by lines, is found. -/
theorem shop_has_critical_violation :
    ∃ g, shop.buildWith true = .ok g ∧
      ∃ v ∈ (aggregateCycle {}).findings g (shopRoles.classify g), v.severity = .critical := by
  have hok : (shop.buildWith true).isOk = true := (shop.isOk_buildWith_iff true).2 (by decide)
  obtain ⟨g, hg⟩ := Error.exists_of_isOk hok
  have hbuilds := Model.builds_of_buildWith hg
  have horder : order ∈ shop.types := by simp [shop]
  have hline : line ∈ shop.types := by simp [shop]
  have hcustomer : customer ∈ shop.types := by simp [shop]
  have hroot : ∀ t ∈ [order, customer],
      (shopRoles.classify g).roleOf? t.id = some .aggregateRoot := by
    intro t ht
    have htypes : t ∈ shop.types := by
      rcases List.mem_pair.1 ht with rfl | rfl
      · exact horder
      · exact hcustomer
    refine shopRoles.roleOf?_of_explicit hbuilds.indexed (hbuilds.mem_typeNodes htypes) ?_ ?_
    · rfl
    · rcases List.mem_pair.1 ht with rfl | rfl <;> decide
  have howns : shop.FieldReference order.id line.id :=
    ⟨order, horder, _, List.mem_cons_self, line, hline,
      .argument List.mem_cons_self (.own _ _), rfl, rfl⟩
  have hnames : shop.FieldReference line.id customer.id :=
    ⟨line, hline, _, List.mem_cons_self, customer, hcustomer, .own _ _, rfl, rfl⟩
  have hkeeps : shop.FieldReference customer.id order.id :=
    ⟨customer, hcustomer, _, List.mem_cons_self, order, horder,
      .argument List.mem_cons_self (.own _ _), rfl, rfl⟩
  refine ⟨g, hg, (aggregateCycle_sound_and_complete hg shopRoles {} (by decide)).1.2 ?_⟩
  exact ⟨order.id, customer.id, by decide, hroot _ (by simp), hroot _ (by simp),
    .tail (.single howns) hnames, .single hkeeps⟩

end Constraint

end RoleAudit
