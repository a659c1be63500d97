import RoleAudit.Constraint.Domain
import RoleAudit.Proofs.Graph.Scan

/-!
# Reaching types through fields

`reachThroughFields` looks for types with a property. Its fuel is enough for every type to be met, so
it is the search that has none, `FindsThroughFields`, and that one is followed round by round. It is
right because of what it has met at its end: a set of types that nothing leaves but through a type
with the property.
-/

namespace RoleAudit.Graph

open Relation

variable {g : Graph} {hasProperty : NodeId → Bool}

/-- A field of one type mentions another type of the graph. -/
def Refers (g : Graph) (a b : NodeId) : Prop := b ∈ g.fieldReferences a

/-- A field of one type mentions another type of the graph, and the latter lacks the property. -/
def RefersPast (g : Graph) (hasProperty : NodeId → Bool) (a b : NodeId) : Prop :=
  g.Refers a b ∧ hasProperty b = false

theorem Refers.isSome {a b : NodeId} (h : g.Refers a b) : (g.type? b).isSome = true :=
  (List.mem_filter.1 h).2

/-- The search as it goes on for as long as a type is in the queue, without a bound on its rounds. -/
inductive FindsThroughFields (g : Graph) (hasProperty : NodeId → Bool) :
    List NodeId → List NodeId → List NodeId → Prop
  /-- The queue has run out. -/
  | done (visited : List NodeId) : FindsThroughFields g hasProperty [] visited []
  /-- A type is taken from the queue. Of the types that its fields mention, those that were not met
  yet are found if they have the property, and queued if not. -/
  | round {current : NodeId} {queue visited met found : List NodeId}
    (hmet : met = distinctFrom visited (g.fieldReferences current))
    (hrest : FindsThroughFields g hasProperty (queue ++ met.filter (!hasProperty ·)) (met ++ visited)
      found) :
    FindsThroughFields g hasProperty (current :: queue) visited (met.filter hasProperty ++ found)

section Rounds

variable {queue visited found : List NodeId}

/-- Of the search there is one result at most. -/
theorem FindsThroughFields.unique {found' : List NodeId}
    (h : g.FindsThroughFields hasProperty queue visited found)
    (h' : g.FindsThroughFields hasProperty queue visited found') : found = found' := by
  induction h generalizing found' with
  | done visited =>
    cases h'
    rfl
  | round hmet _ ih =>
    cases h' with
    | round hmet' hrest' =>
      obtain rfl := hmet.trans hmet'.symm
      rw [ih hrest']

/-- What is found has the property, is new, and is mentioned by a type that the search came to. -/
theorem FindsThroughFields.of_mem {start b : NodeId}
    (h : g.FindsThroughFields hasProperty queue visited found)
    (hqueue : ∀ x ∈ queue, ReflTransGen (g.RefersPast hasProperty) start x) (hb : b ∈ found) :
    hasProperty b = true ∧ b ∉ visited ∧
      ∃ x, ReflTransGen (g.RefersPast hasProperty) start x ∧ g.Refers x b := by
  induction h with
  | done => exact absurd hb List.not_mem_nil
  | @round current queue visited met found hmet _ ih =>
    subst hmet
    have hcurrent := hqueue current List.mem_cons_self
    rcases List.mem_append.1 hb with hb | hb
    · obtain ⟨hmet, hp⟩ := List.mem_filter.1 hb
      obtain ⟨href, hnew⟩ := mem_distinctFrom.1 hmet
      exact ⟨hp, hnew, current, hcurrent, href⟩
    · have hqueue' : ∀ x ∈ queue ++ (distinctFrom visited (g.fieldReferences current)).filter
          (!hasProperty ·), ReflTransGen (g.RefersPast hasProperty) start x := by
        intro x hx
        rcases List.mem_append.1 hx with hx | hx
        · exact hqueue x (List.mem_cons_of_mem _ hx)
        · obtain ⟨hmet, hp⟩ := List.mem_filter.1 hx
          exact hcurrent.tail ⟨(mem_distinctFrom.1 hmet).1, by simpa using hp⟩
      obtain ⟨hp, hnew, hreach⟩ := ih hqueue' hb
      exact ⟨hp, fun hin => hnew (List.mem_append_right _ hin), hreach⟩

/-- What the search has met at its end: all that types without the property mention, and `start`.
Whatever has the property and was met on the way is in the result. -/
theorem FindsThroughFields.exists_closed {start : NodeId}
    (h : g.FindsThroughFields hasProperty queue visited found) (hstart : start ∈ visited)
    (hclosed : ∀ x ∈ visited, (x = start ∨ hasProperty x = false) →
      x ∈ queue ∨ ∀ y, g.Refers x y → y ∈ visited) :
    ∃ met, visited ⊆ met ∧
      (∀ x ∈ met, (x = start ∨ hasProperty x = false) → ∀ y, g.Refers x y → y ∈ met) ∧
      ∀ y ∈ met, hasProperty y = true → y ∈ visited ∨ y ∈ found := by
  induction h with
  | done visited =>
    exact ⟨visited, fun _ hx => hx,
      fun x hx hopen => (hclosed x hx hopen).resolve_left List.not_mem_nil,
      fun y hy _ => Or.inl hy⟩
  | @round current queue visited new found hnew _ ih =>
    have hmem : ∀ y, g.Refers current y → y ∈ new ++ visited := by
      intro y hy
      by_cases hin : y ∈ visited
      · exact List.mem_append_right _ hin
      · exact List.mem_append_left _ (hnew ▸ mem_distinctFrom.2 ⟨hy, hin⟩)
    have hclosed' : ∀ x ∈ new ++ visited, (x = start ∨ hasProperty x = false) →
        x ∈ queue ++ new.filter (!hasProperty ·) ∨ ∀ y, g.Refers x y → y ∈ new ++ visited := by
      intro x hx hopen
      rcases List.mem_append.1 hx with hx | hx
      · -- a new type is not `start`, so it lacks the property and is queued
        have hp : hasProperty x = false := by
          refine hopen.resolve_left ?_
          rintro rfl
          exact (mem_distinctFrom.1 (hnew ▸ hx)).2 hstart
        exact Or.inl (List.mem_append_right _ (List.mem_filter.2 ⟨hx, by simp [hp]⟩))
      · rcases hclosed x hx hopen with hq | hall
        · rcases List.mem_cons.1 hq with rfl | hq
          · exact Or.inr hmem
          · exact Or.inl (List.mem_append_left _ hq)
        · exact Or.inr fun y hy => List.mem_append_right _ (hall y hy)
    obtain ⟨met, hsub, hmet, hfound⟩ := ih (List.mem_append_right _ hstart) hclosed'
    refine ⟨met, fun x hx => hsub (List.mem_append_right _ hx), hmet, fun y hy hp => ?_⟩
    rcases hfound y hy hp with hin | hin
    · rcases List.mem_append.1 hin with hin | hin
      · exact Or.inr (List.mem_append_left _ (List.mem_filter.2 ⟨hin, hp⟩))
      · exact Or.inl hin
    · exact Or.inr (List.mem_append_right _ hin)

end Rounds

/-! ## Enough fuel -/

/-- The types that were not met yet. -/
def unmet (g : Graph) (visited : List NodeId) : List NodeId :=
  g.indexes.types.toList.filter (· ∉ visited)

theorem Indexed.unmet_length (h : g.Indexed) (visited : List NodeId) (current : NodeId) :
    (g.unmet (distinctFrom visited (g.fieldReferences current) ++ visited)).length
      + (distinctFrom visited (g.fieldReferences current)).length ≤ (g.unmet visited).length := by
  set met := distinctFrom visited (g.fieldReferences current) with hmet
  rw [← List.length_append]
  refine (List.subperm_of_subset ?_ ?_).length_le
  · refine List.nodup_append.2 ⟨h.typeIds_nodup.filter _, nodup_distinctFrom _ _, ?_⟩
    rintro a ha b hb rfl
    have hnot := of_decide_eq_true (List.mem_filter.1 ha).2
    exact hnot (List.mem_append_left _ hb)
  · intro a ha
    rcases List.mem_append.1 ha with ha | ha
    · obtain ⟨htype, hnot⟩ := List.mem_filter.1 ha
      exact List.mem_filter.2 ⟨htype, decide_eq_true fun hin =>
        of_decide_eq_true hnot (List.mem_append_right _ hin)⟩
    · obtain ⟨href, hnew⟩ := mem_distinctFrom.1 ha
      exact List.mem_filter.2 ⟨h.mem_typeIds (Refers.isSome href), decide_eq_true hnew⟩

/-- Every round makes the queue shorter, or the types that are left to be met fewer. -/
theorem Indexed.length_after_round (h : g.Indexed) (hasProperty : NodeId → Bool)
    (current : NodeId) (queue visited : List NodeId) :
    (g.unmet (distinctFrom visited (g.fieldReferences current) ++ visited)).length
        + (queue ++ (distinctFrom visited (g.fieldReferences current)).filter
            (!hasProperty ·)).length
      < (g.unmet visited).length + (current :: queue).length := by
  have hless := h.unmet_length visited current
  have hfilter := (distinctFrom visited (g.fieldReferences current)).length_filter_le
    (!hasProperty ·)
  rw [List.length_append, List.length_cons]
  omega

theorem Indexed.findsThroughFields (h : g.Indexed) (hasProperty : NodeId → Bool) {fuel : Nat}
    {queue visited : List NodeId} (hfuel : (g.unmet visited).length + queue.length ≤ fuel) :
    g.FindsThroughFields hasProperty queue visited
      (g.reachThroughFields hasProperty fuel queue visited) := by
  induction fuel generalizing queue visited with
  | zero =>
    obtain rfl : queue = [] := List.eq_nil_of_length_eq_zero (by omega)
    exact .done visited
  | succ fuel ih =>
    cases queue with
    | nil => exact .done visited
    | cons current queue =>
      have hless := h.length_after_round hasProperty current queue visited
      rw [reachThroughFields]
      exact .round rfl (ih (by omega))

/-- From every node the search ends, and what it finds are the aggregates referred to. -/
theorem Indexed.findsThroughFields_iff (h : g.Indexed) {isAggregate : NodeId → Bool} {a : NodeId}
    {found : List NodeId} :
    g.FindsThroughFields isAggregate [a] [a] found ↔
      found = g.referencedAggregates isAggregate a := by
  have hfuel : (g.unmet [a]).length + [a].length ≤ g.typeCount + 1 := by
    have hle := List.length_filter_le (· ∉ [a]) g.indexes.types.toList
    rw [typeCount, ← Array.length_toList]
    simpa [unmet] using hle
  have hends := h.findsThroughFields isAggregate hfuel
  constructor
  · exact fun hfound => hfound.unique hends
  · rintro rfl
    exact hends

/-- An aggregate refers to another one if a chain of references leads there that meets no aggregate
on its way. -/
theorem Indexed.mem_referencedAggregates (h : g.Indexed) {isAggregate : NodeId → Bool}
    {a b : NodeId} :
    b ∈ g.referencedAggregates isAggregate a ↔
      isAggregate b = true ∧ b ≠ a ∧
        ∃ x, ReflTransGen (g.RefersPast isAggregate) a x ∧ g.Refers x b := by
  have hsearch := h.findsThroughFields_iff.2 (rfl : g.referencedAggregates isAggregate a = _)
  constructor
  · intro hb
    have hqueue : ∀ x ∈ [a], ReflTransGen (g.RefersPast isAggregate) a x := by
      intro x hx
      rw [List.mem_singleton.1 hx]
    obtain ⟨hp, hnew, hreach⟩ := hsearch.of_mem hqueue hb
    exact ⟨hp, fun hba => hnew (hba ▸ List.mem_singleton_self a), hreach⟩
  · rintro ⟨hp, hne, x, hreach, href⟩
    obtain ⟨met, hsub, hmet, hfound⟩ :=
      hsearch.exists_closed (List.mem_singleton_self a) fun x hx _ => Or.inl hx
    have hall : ∀ y, ReflTransGen (g.RefersPast isAggregate) a y →
        y ∈ met ∧ (y = a ∨ isAggregate y = false) := by
      intro y hy
      induction hy with
      | refl => exact ⟨hsub (List.mem_singleton_self a), Or.inl rfl⟩
      | tail _ hstep ih => exact ⟨hmet _ ih.1 ih.2 _ hstep.1, Or.inr hstep.2⟩
    obtain ⟨hx, hopen⟩ := hall x hreach
    have hb : b ∈ met := hmet x hx hopen b href
    exact (hfound b hb hp).resolve_left fun hba => hne (List.mem_singleton.1 hba)

end RoleAudit.Graph
