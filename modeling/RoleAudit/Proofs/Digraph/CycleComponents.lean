import RoleAudit.Proofs.Digraph.Components
import RoleAudit.Proofs.Digraph.CycleReport

/-!
# The search for cycles and the walk for components agree

Both walks go depth first and look at every edge once, but the search for cycles asks what closes a
path and the walk for components asks what can be reached on the stack. They come to the same: there
is a cycle exactly if there is a component of two or more nodes or an edge from a node to itself. A
report that was not cut short also has a cycle in every such component and for every such edge.
-/

namespace RoleAudit.Digraph

open Relation

variable {α : Type} [Ord α]

/-- The walks from a node to itself stay with the nodes that belong together with it, and need no
edge from a node to itself. -/
theorem Reaches.within {g : Digraph α} {a x y : α} (hxy : g.Reaches x y) (hax : g.Reaches a x)
    (hya : g.Reaches y a) :
    ReflTransGen (fun u v => g.Leads u v ∧ u ≠ v ∧ g.Together a u) x y := by
  induction hxy using ReflTransGen.head_induction_on with
  | refl => exact ReflTransGen.refl
  | @head x z hl hzy ih =>
    have hrest := ih (hax.tail hl)
    by_cases hxz : x = z
    · exact hxz ▸ hrest
    · have hxa : g.Reaches x a := (ReflTransGen.head hl hzy).trans hya
      exact ReflTransGen.head ⟨hl, hxz, hax, hxa⟩ hrest

/-- A cycle that an edge from a node to itself closes is that edge alone. -/
theorem IsCycle.eq_nil_of_loop {g : Digraph α} {walk : List α} {a : α}
    (h : g.IsCycle (walk ++ [a, a])) : walk = [] := by
  obtain ⟨b, rest, hcons, hdrop⟩ := h.exists_eq
  have hnodup := h.nodup
  cases walk with
  | nil => rfl
  | cons c walk =>
    -- the walk would start with `a` and come to it again before its end
    have hends : c :: (walk ++ [a]) ++ [a] = b :: rest ++ [b] := by simpa using hcons
    obtain ⟨hbody, hlast⟩ := List.append_inj' hends rfl
    have hca : c = a := (List.cons.inj hbody).1.trans (List.cons.inj hlast).1.symm
    rw [hdrop, ← hbody, hca] at hnodup
    simp at hnodup

/-- A cycle that an edge between two nodes closes has two nodes at least. -/
theorem IsCycle.two_le_of_ne {g : Digraph α} {walk : List α} {a b : α} (hne : a ≠ b)
    (h : g.IsCycle (walk ++ [a, b])) : 2 ≤ (walk ++ [a, b]).dropLast.length := by
  have hclosed := h.closed
  cases walk with
  | nil => simp [hne] at hclosed
  | cons c walk => simp

variable [Std.TransOrd α] [Std.LawfulEqOrd α] [DecidableEq α]

section WellFormed

variable {g : Digraph α} (hg : g.WellFormed)

include hg

/-- The search that is content with one cycle finds one if there is any. -/
theorem WellFormed.hasCycles_iff : g.hasCycles = true ↔ g.HasCycle := by
  obtain ⟨order, hinv, -⟩ := CycleSearch.run_inv hg { limit := 1, firstOnly := true }
  have hfound : g.hasCycles = true ↔
      (CycleSearch.run g { limit := 1, firstOnly := true }).found ≠ [] := by
    simp [hasCycles]
  rw [hfound]
  constructor
  · intro hne
    obtain ⟨c, hc⟩ := List.exists_mem_of_ne_nil _ hne
    exact (hinv.cycles c hc).hasCycle
  · intro hcycle hnil
    -- a search without a cycle has not even met its limit of one, so it went to its end
    have htrunc : (CycleSearch.run g { limit := 1, firstOnly := true }).truncated = false := by
      rw [← Bool.not_eq_true]
      intro htrunc
      have hle := (hinv.truncated htrunc).1
      rw [hnil, List.length_nil] at hle
      exact Nat.not_succ_le_zero 0 hle
    have hgoing : (CycleSearch.run g { limit := 1, firstOnly := true }).halted
        { limit := 1, firstOnly := true } = false := by
      simp [CycleSearch.halted, htrunc, hnil]
    exact CycleSearch.not_hasCycle_of_found_eq_nil hg hgoing hnil hcycle

/-- There is a cycle exactly if two different nodes belong together or a node leads to itself. -/
theorem WellFormed.hasCycle_iff_components :
    g.HasCycle ↔ g.components ≠ [] ∨ ∃ a, g.Leads a a := by
  rw [hg.components_ne_nil_iff]
  constructor
  · rintro ⟨a, hcycle⟩
    obtain ⟨b, hl, hback⟩ := TransGen.head'_iff.1 hcycle
    by_cases hab : a = b
    · exact Or.inr ⟨a, hab ▸ hl⟩
    · exact Or.inl ⟨a, b, hab, ReflTransGen.single hl, hback⟩
  · rintro (⟨a, b, hab, htog⟩ | ⟨a, hl⟩)
    · have hstep := (reflTransGen_iff_eq_or_transGen.1 htog.1).resolve_left (Ne.symm hab)
      exact ⟨a, hstep.trans_left htog.2⟩
    · exact ⟨a, TransGen.single hl⟩

theorem WellFormed.existsUnique_component {c : List α} (hc : g.IsCycle c) :
    ∃! k, k ∈ g.allComponents ∧ ∀ a ∈ c, a ∈ k := by
  obtain ⟨a, rest, -, hdrop⟩ := hc.exists_eq
  have ha : a ∈ c.dropLast := hdrop ▸ List.mem_cons_self
  obtain ⟨b, hl⟩ := hc.exists_leads ha
  obtain ⟨k, hk, hak⟩ := hg.exists_component (hg.leads_mem hl).1
  refine ⟨k, ⟨hk, fun x hx => ?_⟩, fun k' ⟨hk', hin⟩ => ?_⟩
  · rw [← hc.mem_dropLast_iff] at hx
    exact (hg.mem_component_iff hk hak x).2 ⟨hc.reaches ha hx, hc.reaches hx ha⟩
  · have hak' := hin a (hc.mem_dropLast_iff.1 ha)
    exact hg.eq_of_class (hg.component_sublist hk') (hg.component_sublist hk)
      (hg.mem_component_iff hk' hak') (hg.mem_component_iff hk hak)

/-- If a report was not cut short, it has a cycle of two or more nodes in every component of two or
more nodes. -/
theorem WellFormed.exists_cycle_in_component {limit : Nat}
    (h : (g.findCycles limit).truncated = false) {k : List α} (hk : k ∈ g.components) :
    ∃ c ∈ (g.findCycles limit).cycles, (∀ a ∈ c, a ∈ k) ∧ 2 ≤ c.dropLast.length := by
  obtain ⟨hlen, hsub, a, ha, hclass⟩ := hg.mem_components_iff.1 hk
  obtain ⟨b, hb, hab⟩ : ∃ b ∈ k, a ≠ b := by
    by_contra hnone
    have hone : k ⊆ [a] := fun b hb =>
      List.mem_singleton.2 (not_not.1 fun hne => hnone ⟨b, hb, Ne.symm hne⟩)
    have := (List.subperm_of_subset (hsub.nodup hg.nodup) hone).length_le
    rw [List.length_singleton] at this
    omega
  obtain ⟨hto, hback⟩ := (hclass b).1 hb
  -- around from `a` by way of `b`, inside the component and without staying on a node
  have haround : TransGen (fun u v => g.Leads u v ∧ u ≠ v ∧ g.Together a u) a a :=
    ((reflTransGen_iff_eq_or_transGen.1 (hto.within .refl hback)).resolve_left
      (Ne.symm hab)).trans_left (hback.within hto .refl)
  obtain ⟨x, y, ⟨-, hne, hax⟩, c, hc, walk, rfl⟩ :=
    hg.exists_closing_edge h (fun _ _ huv => huv.1) haround
  have hcycle := hg.isCycle_of_mem hc
  refine ⟨_, hc, fun z hz => ?_, hcycle.two_le_of_ne hne⟩
  have hx : x ∈ (walk ++ [x, y]).dropLast := by simp
  rw [← hcycle.mem_dropLast_iff] at hz
  exact (hclass z).2 (hax.trans ⟨hcycle.reaches hx hz, hcycle.reaches hz hx⟩)

theorem WellFormed.loop_mem_cycles {limit : Nat} (h : (g.findCycles limit).truncated = false)
    {a : α} (hl : g.Leads a a) : [a, a] ∈ (g.findCycles limit).cycles := by
  obtain ⟨x, y, ⟨rfl, rfl⟩, c, hc, walk, rfl⟩ := hg.exists_closing_edge h
    (r := fun x y => x = a ∧ y = a) (by rintro _ _ ⟨rfl, rfl⟩; exact hl) (.single ⟨rfl, rfl⟩)
  have hwalk := (hg.isCycle_of_mem hc).eq_nil_of_loop
  rwa [hwalk] at hc

end WellFormed

/-- The search for cycles and the walk for components agree. For a graph of any mentions: the search
that stops at the first cycle finds one exactly if a component of two or more nodes is reported or a
node has an edge to itself. For any limit with a report that was not cut short: each reported cycle
lies in exactly one component; in each component of two or more nodes lies a reported cycle of two or
more nodes; each edge from a node to itself is reported as a cycle of its own. -/
theorem cycles_agree_with_components (mentions : List (Mention α)) :
    let g := ofMentions mentions
    (g.hasCycles = true ↔ g.components ≠ [] ∨ ∃ a, g.hasEdge a a = true) ∧
    ∀ limit, (g.findCycles limit).truncated = false →
      (∀ c ∈ (g.findCycles limit).cycles, ∃! k, k ∈ g.allComponents ∧ ∀ a ∈ c, a ∈ k) ∧
      (∀ k ∈ g.components, ∃ c ∈ (g.findCycles limit).cycles,
        (∀ a ∈ c, a ∈ k) ∧ 2 ≤ c.dropLast.length) ∧
      ∀ a, g.hasEdge a a = true → [a, a] ∈ (g.findCycles limit).cycles := by
  intro g
  have hg : g.WellFormed := wellFormed_ofMentions mentions
  refine ⟨?_, fun limit hfull => ⟨fun c hc => ?_, fun k hk => ?_, fun a hl => ?_⟩⟩
  · simp only [hg.hasEdge_iff]
    exact hg.hasCycles_iff.trans hg.hasCycle_iff_components
  · exact hg.existsUnique_component (hg.isCycle_of_mem hc)
  · exact hg.exists_cycle_in_component hfull hk
  · exact hg.loop_mem_cycles hfull (hg.hasEdge_iff.1 hl)

/-- On a ring and a loop a report of two cycles is complete, and both are found again in components. -/
theorem ring_and_loop_in_components :
    let g := ofMentions ringAndLoop
    (g.findCycles 2).truncated = false ∧ g.components = [[1, 2]] ∧
      (∃ c ∈ (g.findCycles 2).cycles, (∀ a ∈ c, a ∈ [1, 2]) ∧ 2 ≤ c.dropLast.length) ∧
      [3, 3] ∈ (g.findCycles 2).cycles := by
  have hfull : ((ofMentions ringAndLoop).findCycles 2).truncated = false := by cbv
  have hcomponents : (ofMentions ringAndLoop).components = [[1, 2]] := by cbv
  have hloop : (ofMentions ringAndLoop).hasEdge 3 3 = true := by cbv
  obtain ⟨-, hagree⟩ := cycles_agree_with_components ringAndLoop
  obtain ⟨-, hin, hloops⟩ := hagree 2 hfull
  exact ⟨hfull, hcomponents, hin [1, 2] (by simp [hcomponents]), hloops 3 hloop⟩

end RoleAudit.Digraph
