import RoleAudit.Proofs.Classification.Conflicts
import RoleAudit.Proofs.Constraint.PortFacts
import RoleAudit.Proofs.Model.Queries

/-!
# Ports without an implementation

A driven port needs something outside of tests that implements it. What counts is whether a type lists
the port among its interfaces, and an interface that extends the port lists it too. So a port for
which there is no adapter at all goes unreported as soon as another interface extends it.
-/

namespace RoleAudit.Constraint

/-- The report on a port that nothing outside of tests implements. -/
def uncoveredViolation (port : TypeNode) : Violation where
  constraint := "hexagonal:port-coverage"
  severity := .major
  message := "Driven port '" ++ port.simpleName ++ "' has no production implementation"
  nodes := [port.id]

theorem uncovered?_eq_some {g : Graph} {port : TypeNode} {v : Violation} :
    uncovered? g port = some v ↔
      (∀ u ∈ g.implementorsOf port.id, u.isTestCode = true) ∧ v = uncoveredViolation port := by
  unfold uncovered?
  split
  · rename_i htests
    have hall : ∀ u ∈ g.implementorsOf port.id, u.isTestCode = true := by simpa using htests
    constructor
    · intro hv
      exact ⟨hall, (Option.some.inj hv).symm⟩
    · rintro ⟨-, rfl⟩
      rfl
  · rename_i htests
    constructor
    · intro hv
      exact nomatch hv
    · rintro ⟨hall, -⟩
      exact absurd (List.all_eq_true.2 hall) htests

/-- A type is reported if it is a driven port that only test code implements. -/
theorem uncoveredViolation_mem_iff {g : Graph} (h : g.Indexed) {k : Classification} {t : TypeNode}
    (htype : g.type? t.id = some t) :
    uncoveredViolation t ∈ portCoverage.findings g k ↔
      t ∈ portsOf g k .driven ∧ ∀ u ∈ g.implementorsOf t.id, u.isTestCode = true := by
  rw [findings_portCoverage, List.mem_filterMap]
  simp only [uncovered?_eq_some]
  constructor
  · rintro ⟨port, hport, htests, hv⟩
    have hid : t.id = port.id := List.head_eq_of_cons_eq (congrArg Violation.nodes hv)
    have hporttype := (h.type?_of_mem_resolveTypes hport).2
    rw [← hid, htype] at hporttype
    obtain rfl := Option.some.inj hporttype
    exact ⟨hport, htests⟩
  · rintro ⟨hport, htests⟩
    exact ⟨t, hport, htests, rfl⟩

/-- Take an interface with the role of a driven port that no class, record, enum or annotation outside
of tests lists. It is reported exactly if no interface outside of tests lists it either. -/
theorem uncovered_port_reported_unless_extended {m : Model} {derived : Bool} {g : Graph}
    (hbuild : m.buildWith derived = .ok g) (c : Classifier) {i : SourceType} (hi : i ∈ m.types)
    {r : ClassificationResult} (hr : (c.classify g).get? i.id = some r)
    (hport : r ∈ (c.classify g).ofFamily .port) (hdriven : r.direction = some .driven)
    (hnone : ∀ t ∈ m.types, t.form ≠ .interface → t.toNode.isTestCode = false → ¬ t.Lists i.name) :
    uncoveredViolation i.toNode ∈ portCoverage.findings g (c.classify g) ↔
      ∀ t ∈ m.types, t.form = .interface → t.toNode.isTestCode = false → ¬ t.Lists i.name := by
  have h := Model.builds_of_buildWith hbuild
  have htype : g.type? i.toNode.id = some i.toNode := h.type?_id hi
  have hmem : i.toNode ∈ portsOf g (c.classify g) .driven :=
    (mem_portsOf_iff_direction h.indexed c htype hr hport).2 hdriven
  rw [uncoveredViolation_mem_iff h.indexed htype, and_iff_right hmem]
  constructor
  · intro htests t ht _ hproduction hlists
    have himplements : t.toNode ∈ g.implementorsOf i.id :=
      (h.mem_implementorsOf_iff hi).2 ⟨t, ht, rfl, hlists⟩
    rw [htests _ himplements] at hproduction
    exact absurd hproduction (by simp)
  · intro hunextended u hu
    obtain ⟨t, ht, rfl, hlists⟩ := (h.mem_implementorsOf_iff hi).1 hu
    by_contra hproduction
    rw [Bool.not_eq_true] at hproduction
    -- the look-up does not tell classes from interfaces
    by_cases hform : t.form = .interface
    · exact hunextended t ht hform hproduction hlists
    · exact hnone t ht hform hproduction hlists

section Example

/-- The orders of a shop. -/
def orderRepository : SourceType where
  name := "shop.OrderRepository"
  form := .interface

/-- Orders that only tests know. -/
def fakeOrderRepository : SourceType where
  name := "shop.test.FakeOrderRepository"
  form := .plainClass
  interfaces := [.plain "shop.OrderRepository"]

/-- The orders that are archived, an interface as well. -/
def archivedOrderRepository : SourceType where
  name := "shop.ArchivedOrderRepository"
  form := .interface
  interfaces := [.plain "shop.OrderRepository"]

/-- The orders and one more type. -/
def ordersAnd (other : SourceType) : Model := { types := [orderRepository, other] }

def ordersGraph (other : SourceType) : Graph := (ordersAnd other).build.toOption.getD .empty

/-- What the classifier without settings makes of the orders. -/
def ordersResult (other : SourceType) : ClassificationResult :=
  Classifier.judgedResult (Classifier.unconfigured.criteria (ordersGraph other)) (ordersGraph other)
    orderRepository.toNode

/-- With a fake in the tests only, the orders have no adapter and nothing extends them: they are
reported. -/
theorem fake_orders_uncovered :
    uncoveredViolation orderRepository.toNode ∈ portCoverage.findings
      (ordersGraph fakeOrderRepository)
      (Classifier.unconfigured.classify (ordersGraph fakeOrderRepository)) := by
  have hbuild : (ordersAnd fakeOrderRepository).build = .ok (ordersGraph fakeOrderRepository) :=
    Model.build_eq_ok (by decide)
  have h := Model.builds_of_buildWith hbuild
  obtain ⟨hjudged, hdriven⟩ : ((ordersResult fakeOrderRepository).isClassified = true ∧
      (ordersResult fakeOrderRepository).target = some .port) ∧
      (ordersResult fakeOrderRepository).direction = some .driven := by decide +kernel
  obtain ⟨hr, hport⟩ := Classifier.mem_ofFamily_of_open (c := Classifier.unconfigured) h.indexed
    (h.mem_types (t := orderRepository) List.mem_cons_self) rfl rfl .port hjudged
  have hnone : ∀ t ∈ (ordersAnd fakeOrderRepository).types, t.toNode.isTestCode = false →
      ¬ t.Lists orderRepository.name := by
    intro t ht hproduction
    simp only [ordersAnd, List.mem_cons, List.not_mem_nil, or_false] at ht
    rcases ht with rfl | rfl
    · simp [SourceType.Lists, orderRepository]
    · exact absurd hproduction (by decide)
  have hreported := uncovered_port_reported_unless_extended hbuild _ List.mem_cons_self hr hport
    hdriven fun t ht _ => hnone t ht
  exact hreported.2 fun t ht _ => hnone t ht

/-- There is no class at all, so nothing can implement the orders. Yet they are not reported, for the
archived orders extend them. -/
theorem extended_orders_unreported :
    ∃ g r, (ordersAnd archivedOrderRepository).build = .ok g ∧
      (Classifier.unconfigured.classify g).get? orderRepository.id = some r ∧
      r ∈ (Classifier.unconfigured.classify g).ofFamily .port ∧ r.direction = some .driven ∧
      (∀ t ∈ (ordersAnd archivedOrderRepository).types,
        t.form ≠ .interface → t.toNode.isTestCode = false → ¬ t.Lists orderRepository.name) ∧
      ∀ v ∈ portCoverage.findings g (Classifier.unconfigured.classify g),
        orderRepository.id ∉ v.nodes := by
  have hbuild : (ordersAnd archivedOrderRepository).build
      = .ok (ordersGraph archivedOrderRepository) := Model.build_eq_ok (by decide)
  have h := Model.builds_of_buildWith hbuild
  obtain ⟨hjudged, hdriven⟩ : ((ordersResult archivedOrderRepository).isClassified = true ∧
      (ordersResult archivedOrderRepository).target = some .port) ∧
      (ordersResult archivedOrderRepository).direction = some .driven := by decide +kernel
  obtain ⟨hr, hport⟩ := Classifier.mem_ofFamily_of_open (c := Classifier.unconfigured) h.indexed
    (h.mem_types (t := orderRepository) List.mem_cons_self) rfl rfl .port hjudged
  have hforms : ∀ t ∈ (ordersAnd archivedOrderRepository).types, t.form = .interface := by decide
  exact ⟨_, _, hbuild, hr, hport, hdriven, fun t ht hclass => absurd (hforms t ht) hclass,
    by decide +kernel⟩

end Example

end RoleAudit.Constraint
