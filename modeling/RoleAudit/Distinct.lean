/-!
# Lists without repeats

`distinct` keeps the first occurrence of every item and the order of those occurrences.
-/

namespace RoleAudit

variable {α : Type} [DecidableEq α]

/-- The first occurrences of the items that are not in `seen`. -/
def distinctFrom (seen : List α) : List α → List α
  | [] => []
  | a :: rest => if a ∈ seen then distinctFrom seen rest else a :: distinctFrom (a :: seen) rest

/-- The first occurrence of every item, in order. -/
def distinct (items : List α) : List α := distinctFrom [] items

@[simp]
theorem mem_distinctFrom {seen items : List α} {a : α} :
    a ∈ distinctFrom seen items ↔ a ∈ items ∧ a ∉ seen := by
  induction items generalizing seen with
  | nil => simp [distinctFrom]
  | cons b rest ih =>
    by_cases hb : b ∈ seen
    · simp only [distinctFrom, hb, if_true, ih, List.mem_cons]
      constructor
      · exact fun h => ⟨.inr h.1, h.2⟩
      · rintro ⟨rfl | h, hs⟩
        · exact absurd hb hs
        · exact ⟨h, hs⟩
    · simp only [distinctFrom, hb, if_false, List.mem_cons, ih, not_or]
      constructor
      · rintro (rfl | h)
        · exact ⟨.inl rfl, hb⟩
        · exact ⟨.inr h.1, h.2.2⟩
      · rintro ⟨rfl | h, hs⟩
        · exact .inl rfl
        · by_cases hab : a = b
          · exact .inl hab
          · exact .inr ⟨h, hab, hs⟩

@[simp]
theorem mem_distinct {items : List α} {a : α} : a ∈ distinct items ↔ a ∈ items := by
  simp [distinct]

theorem nodup_distinctFrom (seen items : List α) : (distinctFrom seen items).Nodup := by
  induction items generalizing seen with
  | nil => simp [distinctFrom]
  | cons b rest ih =>
    by_cases hb : b ∈ seen
    · simpa [distinctFrom, hb] using ih seen
    · simp [distinctFrom, hb, ih (b :: seen)]

theorem nodup_distinct (items : List α) : (distinct items).Nodup := nodup_distinctFrom [] items

theorem distinctFrom_eq_self {seen items : List α} (hnodup : items.Nodup)
    (hseen : ∀ a ∈ items, a ∉ seen) : distinctFrom seen items = items := by
  induction items generalizing seen with
  | nil => rfl
  | cons b rest ih =>
    obtain ⟨hb, hrest⟩ := List.nodup_cons.1 hnodup
    have hnew : ∀ a ∈ rest, a ∉ b :: seen := by
      intro a ha hin
      rcases List.mem_cons.1 hin with rfl | hin
      · exact hb ha
      · exact hseen a (List.mem_cons_of_mem _ ha) hin
    rw [distinctFrom, if_neg (hseen b List.mem_cons_self), ih hrest hnew]

/-- A list without repeats stays as it is. -/
theorem distinct_eq_self {items : List α} (h : items.Nodup) : distinct items = items :=
  distinctFrom_eq_self h fun _ _ => List.not_mem_nil

theorem distinctFrom_append_singleton (seen items : List α) (a : α) :
    distinctFrom seen (items ++ [a])
      = if a ∈ items ∨ a ∈ seen then distinctFrom seen items
        else distinctFrom seen items ++ [a] := by
  induction items generalizing seen with
  | nil => by_cases ha : a ∈ seen <;> simp [distinctFrom, ha]
  | cons b rest ih =>
    by_cases hb : b ∈ seen
    · by_cases hab : a = b
      · subst hab
        simp [distinctFrom, hb, ih]
      · simp [distinctFrom, hb, ih, hab]
    · by_cases hab : a = b
      · subst hab
        simp [distinctFrom, hb, ih]
      · simp only [List.cons_append, distinctFrom, hb, if_false, ih, List.mem_cons, hab, false_or]
        split <;> rfl

/-- One more item at the end counts if it is new. -/
theorem distinct_append_singleton (items : List α) (a : α) :
    distinct (items ++ [a]) = if a ∈ items then distinct items else distinct items ++ [a] := by
  simp [distinct, distinctFrom_append_singleton]

theorem distinctFrom_congr {seen seen' : List α} (h : ∀ a, a ∈ seen ↔ a ∈ seen') (items : List α) :
    distinctFrom seen items = distinctFrom seen' items := by
  induction items generalizing seen seen' with
  | nil => rfl
  | cons b rest ih =>
    have hmore : ∀ a, a ∈ b :: seen ↔ a ∈ b :: seen' := fun a => by simp [h a]
    simp only [distinctFrom, h b, ih h, ih hmore]

theorem distinctFrom_cons_of_not_mem {items : List α} {a : α} (ha : a ∉ items) (seen : List α) :
    distinctFrom (a :: seen) items = distinctFrom seen items := by
  induction items generalizing seen with
  | nil => rfl
  | cons b rest ih =>
    simp only [List.mem_cons, not_or] at ha
    have hba : b ≠ a := Ne.symm ha.1
    by_cases hb : b ∈ seen
    · simp [distinctFrom, hb, ih ha.2]
    · -- `b` is seen before `a` on one side and after it on the other, which `a ∉ rest` makes no matter
      simp only [distinctFrom, List.mem_cons, hba, hb, or_self, if_false]
      have hswap : distinctFrom (b :: a :: seen) rest = distinctFrom (a :: b :: seen) rest :=
        distinctFrom_congr (by simp [or_left_comm]) rest
      rw [hswap, ih ha.2]

theorem distinctFrom_append_of_disjoint {items more : List α} (h : ∀ a ∈ items, a ∉ more)
    (seen : List α) :
    distinctFrom seen (items ++ more) = distinctFrom seen items ++ distinctFrom seen more := by
  induction items generalizing seen with
  | nil => rfl
  | cons b rest ih =>
    have hrest : ∀ a ∈ rest, a ∉ more := fun a ha => h a (List.mem_cons_of_mem b ha)
    have hb : b ∉ more := h b List.mem_cons_self
    by_cases hseen : b ∈ seen
    · simp [distinctFrom, hseen, ih hrest]
    · simp [distinctFrom, hseen, ih hrest, distinctFrom_cons_of_not_mem hb]

/-- Lists that share nothing lose their repeats apart from each other. -/
theorem distinct_append_of_disjoint {items more : List α} (h : ∀ a ∈ items, a ∉ more) :
    distinct (items ++ more) = distinct items ++ distinct more :=
  distinctFrom_append_of_disjoint h []

/-- What a first list has is seen by the time that a second one comes. -/
theorem distinctFrom_append (seen items more : List α) :
    distinctFrom seen (items ++ more)
      = distinctFrom seen items ++ distinctFrom (items ++ seen) more := by
  induction items generalizing seen with
  | nil => rfl
  | cons b rest ih =>
    by_cases hb : b ∈ seen
    · have hsame : ∀ a, a ∈ rest ++ seen ↔ a ∈ b :: rest ++ seen := by
        intro a
        by_cases hab : a = b
        · simp [hab, hb]
        · simp [hab]
      simp only [List.cons_append, distinctFrom, hb, if_true, ih]
      rw [distinctFrom_congr hsame more]
      rfl
    · have hsame : ∀ a, a ∈ rest ++ b :: seen ↔ a ∈ b :: rest ++ seen := by
        intro a
        simp [or_left_comm]
      simp only [List.cons_append, distinctFrom, hb, if_false, ih]
      rw [distinctFrom_congr hsame more]
      rfl

/-- A longer list has the items of its beginning first, each once. -/
theorem distinct_prefix {items more : List α} (h : items <+: more) :
    distinct items <+: distinct more := by
  obtain ⟨rest, rfl⟩ := h
  exact ⟨distinctFrom (items ++ []) rest, (distinctFrom_append [] items rest).symm⟩

/-- What a first list has adds nothing behind it. -/
theorem distinct_append_of_subset {items more : List α} (h : more ⊆ items) :
    distinct (items ++ more) = distinct items := by
  have hnone : distinctFrom items more = [] := by
    refine List.eq_nil_iff_forall_not_mem.2 fun a ha => ?_
    obtain ⟨hmore, hnew⟩ := mem_distinctFrom.1 ha
    exact hnew (h hmore)
  rw [distinct, distinctFrom_append, List.append_nil, hnone, List.append_nil]
  rfl

/-- What is seen from the start on can as well be dropped at the end. -/
theorem distinctFrom_append_seen (seen more items : List α) :
    distinctFrom (seen ++ more) items = (distinctFrom more items).filter (· ∉ seen) := by
  induction items generalizing more with
  | nil => rfl
  | cons b rest ih =>
    by_cases hmore : b ∈ more
    · simp [distinctFrom, hmore, ih]
    · have hrest := ih (b :: more)
      by_cases hseen : b ∈ seen
      · have hsame : ∀ a, a ∈ seen ++ more ↔ a ∈ seen ++ b :: more := by
          intro a
          by_cases hab : a = b
          · simp [hab, hseen]
          · simp [hab]
        simp [distinctFrom, hmore, hseen, hrest, distinctFrom_congr hsame rest]
      · have hsame : ∀ a, a ∈ b :: (seen ++ more) ↔ a ∈ seen ++ b :: more := by
          intro a
          simp [or_left_comm]
        simp [distinctFrom, hmore, hseen, hrest, distinctFrom_congr hsame rest]

theorem distinctFrom_eq_filter (seen items : List α) :
    distinctFrom seen items = (distinct items).filter (· ∉ seen) := by
  have h := distinctFrom_append_seen seen [] items
  rwa [List.append_nil] at h

/-- Repeats within a first list do not matter to what follows it. -/
theorem distinctFrom_distinct_append (seen items more : List α) :
    distinctFrom seen (distinct items ++ more) = distinctFrom seen (items ++ more) := by
  have hitems : distinctFrom seen (distinct items) = distinctFrom seen items := by
    rw [distinctFrom_eq_filter, distinct_eq_self (nodup_distinct items), ← distinctFrom_eq_filter]
  have hseen : ∀ a, a ∈ distinct items ++ seen ↔ a ∈ items ++ seen := by
    intro a
    simp
  rw [distinctFrom_append, distinctFrom_append, hitems, distinctFrom_congr hseen more]

theorem distinctFrom_filter (p : α → Bool) (seen items : List α) :
    distinctFrom seen (items.filter p) = (distinctFrom seen items).filter p := by
  induction items generalizing seen with
  | nil => rfl
  | cons b rest ih =>
    by_cases hp : p b = true
    · by_cases hb : b ∈ seen <;> simp [distinctFrom, hp, hb, ih]
    · by_cases hb : b ∈ seen
      · simp [distinctFrom, hp, hb, ih]
      · have hnot : b ∉ rest.filter p := fun hin => hp (List.mem_filter.1 hin).2
        simp [distinctFrom, hp, hb, ← ih, distinctFrom_cons_of_not_mem hnot]

theorem distinct_filter (p : α → Bool) (items : List α) :
    distinct (items.filter p) = (distinct items).filter p :=
  distinctFrom_filter p [] items

theorem distinctFrom_map {β : Type} [DecidableEq β] {f : α → β} (hf : ∀ a b, f a = f b → a = b)
    (seen items : List α) :
    distinctFrom (seen.map f) (items.map f) = (distinctFrom seen items).map f := by
  have hmem : ∀ {a : α} {l : List α}, f a ∈ l.map f ↔ a ∈ l := by
    intro a l
    constructor
    · intro hin
      obtain ⟨b, hb, heq⟩ := List.mem_map.1 hin
      exact hf b a heq ▸ hb
    · exact List.mem_map_of_mem
  induction items generalizing seen with
  | nil => rfl
  | cons b rest ih =>
    by_cases hb : b ∈ seen
    · simp [distinctFrom, hb, hmem, ih]
    · have hrest := ih (b :: seen)
      rw [List.map_cons] at hrest
      simp [distinctFrom, hb, hmem, hrest]

theorem distinct_map {β : Type} [DecidableEq β] {f : α → β} (hf : ∀ a b, f a = f b → a = b)
    (items : List α) : distinct (items.map f) = (distinct items).map f :=
  distinctFrom_map hf [] items

theorem find?_distinctFrom {p : α → Bool} {seen : List α} (hseen : ∀ a ∈ seen, p a = false)
    (items : List α) : (distinctFrom seen items).find? p = items.find? p := by
  induction items generalizing seen with
  | nil => rfl
  | cons b rest ih =>
    by_cases hb : b ∈ seen
    · simp [distinctFrom, hb, hseen b hb, ih hseen]
    · cases hp : p b with
      | true => simp [distinctFrom, hb, hp]
      | false =>
        have hmore : ∀ a ∈ b :: seen, p a = false := by
          intro a ha
          rcases List.mem_cons.1 ha with rfl | ha
          · exact hp
          · exact hseen a ha
        simp [distinctFrom, hb, hp, ih hmore]

/-- Whatever is looked for, its first occurrence stays the first. -/
theorem find?_distinct (p : α → Bool) (items : List α) :
    (distinct items).find? p = items.find? p :=
  find?_distinctFrom (fun _ ha => absurd ha List.not_mem_nil) items

end RoleAudit
