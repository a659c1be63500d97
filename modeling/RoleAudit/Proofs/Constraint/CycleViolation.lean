import RoleAudit.Proofs.Constraint.AggregateCycle
import RoleAudit.Proofs.Digraph.CycleReport

/-!
# One violation for each reported cycle

The constraint on aggregates passes over a cycle if an earlier one has the same nodes. No report has
such a pair, so nothing is ever passed over: there is one violation for each cycle of the report, and
one note more exactly if the report was cut short.
-/

namespace RoleAudit.Constraint

theorem mem_sortedDistinct {texts : List String} {s : String} :
    s ∈ Text.sortedDistinct texts ↔ s ∈ texts := by
  rw [Text.sortedDistinct, List.mem_mergeSort, mem_distinct]

/-- What is remembered of a cycle: the ids of its nodes in a fixed order. -/
def cycleKey (cycle : List NodeId) : List String :=
  Text.sortedDistinct ((cycleMembers cycle).map (·.text))

/-- Cycles of which the same is remembered have the same nodes. -/
theorem sameNodes_of_cycleKey_eq {c d : List NodeId} (hc : (cycleMembers c).Nodup)
    (hd : (cycleMembers d).Nodup) (h : cycleKey c = cycleKey d) : Digraph.SameNodes c d := by
  have hinj : Function.Injective NodeId.text := fun a b hab => NodeId.mk.injEq _ _ ▸ hab
  refine (List.perm_ext_iff_of_nodup hc hd).2 fun a => ?_
  calc a ∈ cycleMembers c
      ↔ a.text ∈ cycleKey c := by rw [cycleKey, mem_sortedDistinct, List.mem_map_of_injective hinj]
    _ ↔ a.text ∈ cycleKey d := by rw [h]
    _ ↔ a ∈ cycleMembers d := by rw [cycleKey, mem_sortedDistinct, List.mem_map_of_injective hinj]

/-- Cycles that differ in their nodes from each other and from what was seen are all kept. -/
theorem distinctCycles_eq_self {seen : List (List String)} {cycles : List (List NodeId)}
    (hnodup : ∀ c ∈ cycles, (cycleMembers c).Nodup)
    (hpair : cycles.Pairwise fun c d => ¬ Digraph.SameNodes c d)
    (hseen : ∀ c ∈ cycles, cycleKey c ∉ seen) : distinctCycles seen cycles = cycles := by
  induction cycles generalizing seen with
  | nil => rfl
  | cons cycle rest ih =>
    obtain ⟨hother, hrest⟩ := List.pairwise_cons.1 hpair
    have hkeep : cycleKey cycle ∉ seen := hseen cycle List.mem_cons_self
    have hseen' : ∀ c ∈ rest, cycleKey c ∉ cycleKey cycle :: seen := by
      intro c hc hin
      rcases List.mem_cons.1 hin with hkey | hin
      · exact hother c hc (sameNodes_of_cycleKey_eq (hnodup cycle List.mem_cons_self)
          (hnodup c (List.mem_cons_of_mem _ hc)) hkey.symm)
      · exact hseen c (List.mem_cons_of_mem _ hc) hin
    have hkept := ih (fun c hc => hnodup c (List.mem_cons_of_mem _ hc)) hrest hseen'
    rw [distinctCycles]
    exact (if_neg hkeep).trans (congrArg (cycle :: ·) hkept)

variable (settings : CycleSettings) (g : Graph) (classification : Classification)

theorem distinctCycles_findCycles (limit : Nat) :
    distinctCycles [] ((g.aggregateReferences classification).findCycles limit).cycles
      = ((g.aggregateReferences classification).findCycles limit).cycles := by
  have hwf := g.wellFormed_aggregateReferences classification
  exact distinctCycles_eq_self (fun c hc => (hwf.isCycle_of_mem hc).nodup)
    (hwf.pairwise_not_sameNodes limit) fun _ _ => List.not_mem_nil

/-- The findings are one violation for each reported cycle and the note of a report cut short. -/
theorem findings_aggregateCycle :
    (aggregateCycle settings).findings g classification
      = ((g.aggregateReferences classification).findCycles settings.maxCycles).cycles.map
          (aggregateCycleViolation g)
        ++ if ((g.aggregateReferences classification).findCycles settings.maxCycles).truncated then
            [truncationNotice ((g.aggregateReferences classification).findCycles settings.maxCycles)]
          else [] := by
  rw [← distinctCycles_findCycles g classification settings.maxCycles]
  rfl

theorem filter_findings_aggregateCycle :
    ((aggregateCycle settings).findings g classification).filter (·.severity ≠ .info)
      = ((g.aggregateReferences classification).findCycles settings.maxCycles).cycles.map
          (aggregateCycleViolation g) := by
  rw [findings_aggregateCycle, List.filter_append, List.filter_map]
  split <;> simp [Function.comp_def, aggregateCycleViolation, truncationNotice]

theorem countP_findings_aggregateCycle :
    ((aggregateCycle settings).findings g classification).countP (·.severity = .info)
      = if ((g.aggregateReferences classification).findCycles settings.maxCycles).truncated then 1
        else 0 := by
  rw [findings_aggregateCycle, List.countP_append, List.countP_map]
  split <;> simp [Function.comp_def, aggregateCycleViolation, truncationNotice]

/-- What a search for cycles reports are closed walks along edges that meet no node twice, and no two
of them have the same nodes, so none is a rotation of another; this for a graph of any mentions and
any limit. Hence the constraint on aggregates has one violation for each reported cycle, in the order
of the report, and one note more exactly if the report was cut short. -/
theorem each_cycle_reported_once {α : Type} [Ord α] [Std.TransOrd α] [Std.LawfulEqOrd α]
    [DecidableEq α] (mentions : List (Digraph.Mention α)) (limit : Nat) (settings : CycleSettings)
    (g : Graph) (classification : Classification) :
    (let d := Digraph.ofMentions mentions
      let cycles := (d.findCycles limit).cycles
      (∀ c ∈ cycles, 2 ≤ c.length ∧ c.head? = c.getLast? ∧ c.dropLast.Nodup ∧
        c.IsChain fun a b => d.hasEdge a b = true) ∧
      cycles.Pairwise (fun c c' => c.toFinset ≠ c'.toFinset) ∧
      cycles.Pairwise (fun c c' => ¬ c.dropLast ~r c'.dropLast)) ∧
    (let report := (g.aggregateReferences classification).findCycles settings.maxCycles
      let findings := (aggregateCycle settings).findings g classification
      findings.filter (·.severity ≠ .info) = report.cycles.map (aggregateCycleViolation g) ∧
      findings.countP (·.severity = .info) = if report.truncated then 1 else 0) := by
  have hd := Digraph.wellFormed_ofMentions mentions
  have hpair := hd.pairwise_not_sameNodes limit
  refine ⟨⟨fun c hc => ?_, ?_, ?_⟩, filter_findings_aggregateCycle settings g classification,
    countP_findings_aggregateCycle settings g classification⟩
  · obtain ⟨htwo, hclosed, hnodup, hchain⟩ := hd.isCycle_of_mem hc
    exact ⟨htwo, hclosed, hnodup, hchain.imp fun _ _ hl => hd.hasEdge_iff.2 hl⟩
  · refine hpair.imp_of_mem fun {c c'} hc hc' hdiffer heq => hdiffer ?_
    refine ((hd.isCycle_of_mem hc).sameNodes_iff (hd.isCycle_of_mem hc')).2 fun a => ?_
    rw [← List.mem_toFinset, heq, List.mem_toFinset]
  · exact hpair.imp fun {c c'} hdiffer hrotated => hdiffer (.of_isRotated hrotated)

/-- A ring and a loop are reported as two cycles that share no node, and the shop has one violation
for each cycle of its aggregates. -/
theorem ring_loop_and_shop_reported_once :
    let cycles := ((Digraph.ofMentions Digraph.ringAndLoop).findCycles 2).cycles
    cycles = [[1, 2, 1], [3, 3]] ∧ cycles.Pairwise (fun c c' => c.toFinset ≠ c'.toFinset) ∧
    ∃ g, shop.buildWith true = .ok g ∧
      ((aggregateCycle {}).findings g (shopRoles.classify g)).filter (·.severity ≠ .info)
        = ((g.aggregateReferences (shopRoles.classify g)).findCycles 100).cycles.map
          (aggregateCycleViolation g) := by
  obtain ⟨g, hg⟩ := Error.exists_of_isOk ((shop.isOk_buildWith_iff true).2 (by decide))
  have hcycles : ((Digraph.ofMentions Digraph.ringAndLoop).findCycles 2).cycles
      = [[1, 2, 1], [3, 3]] := by cbv
  obtain ⟨⟨-, hdistinct, -⟩, hone, -⟩ :=
    each_cycle_reported_once Digraph.ringAndLoop 2 {} g (shopRoles.classify g)
  exact ⟨hcycles, hdistinct, g, hg, hone⟩

end RoleAudit.Constraint
