/-!
# Dictionaries with text keys

A finite map from texts to values. The entries stand in strictly ascending order of their keys, so
two dictionaries with the same entries are equal and reading one from first to last is
deterministic. The order of texts is the order of their code points.
-/

namespace RoleAudit

/-- A finite map from texts to values, in ascending order of the keys. -/
structure Dictionary (β : Type) where
  /-- The key and value pairs. -/
  entries : List (String × β)
  /-- The keys ascend, so no key occurs twice. -/
  ascending : entries.Pairwise (fun a b => a.1 < b.1)
  deriving DecidableEq, Repr

namespace Dictionary

variable {β : Type}

/-- The entries with `value` under `key`, in place of what `key` had before. -/
def insertEntry (key : String) (value : β) : List (String × β) → List (String × β)
  | [] => [(key, value)]
  | (k, v) :: rest =>
    if key < k then (key, value) :: (k, v) :: rest
    else if key = k then (key, value) :: rest
    else (k, v) :: insertEntry key value rest

theorem mem_insertEntry {key : String} {value : β} {entries : List (String × β)}
    {e : String × β} (h : e ∈ insertEntry key value entries) : e = (key, value) ∨ e ∈ entries := by
  induction entries with
  | nil => simpa [insertEntry] using h
  | cons head rest ih =>
    obtain ⟨k, v⟩ := head
    simp only [insertEntry] at h
    split at h
    · simpa using h
    · split at h
      · rcases List.mem_cons.1 h with h | h
        · exact .inl h
        · exact .inr (List.mem_cons_of_mem _ h)
      · rcases List.mem_cons.1 h with h | h
        · exact .inr (by simp [h])
        · exact (ih h).imp id (List.mem_cons_of_mem _)

theorem pairwise_insertEntry {key : String} {value : β} {entries : List (String × β)}
    (h : entries.Pairwise (fun a b => a.1 < b.1)) :
    (insertEntry key value entries).Pairwise (fun a b => a.1 < b.1) := by
  induction entries with
  | nil => simp [insertEntry]
  | cons head rest ih =>
    obtain ⟨k, v⟩ := head
    obtain ⟨hhead, hrest⟩ := List.pairwise_cons.1 h
    simp only [insertEntry]
    split
    · rename_i hlt
      refine List.pairwise_cons.2 ⟨?_, h⟩
      intro e he
      rcases List.mem_cons.1 he with rfl | he
      · exact hlt
      · exact String.lt_trans hlt (hhead e he)
    · rename_i hnlt
      split
      · rename_i heq
        subst heq
        exact List.pairwise_cons.2 ⟨hhead, hrest⟩
      · rename_i hne
        refine List.pairwise_cons.2 ⟨?_, ih hrest⟩
        intro e he
        rcases mem_insertEntry he with rfl | he
        · exact String.not_le.1 fun hle => hne (String.le_antisymm hle (String.not_lt.1 hnlt))
        · exact hhead e he

/-- The dictionary without entries. -/
def empty : Dictionary β := ⟨[], .nil⟩

instance : Inhabited (Dictionary β) := ⟨empty⟩

instance : EmptyCollection (Dictionary β) := ⟨empty⟩

/-- The dictionary with `value` under `key`, in place of what `key` had before. -/
def insert (d : Dictionary β) (key : String) (value : β) : Dictionary β :=
  ⟨insertEntry key value d.entries, pairwise_insertEntry d.ascending⟩

/-- The value under `key`, if there is one. -/
def get? (d : Dictionary β) (key : String) : Option β :=
  d.entries.lookup key

/-- The dictionary of the given pairs; of two pairs with one key the later one counts. -/
def ofList (pairs : List (String × β)) : Dictionary β :=
  pairs.foldl (fun d (key, value) => d.insert key value) empty

/-- A key above every key of the entries goes to their end. -/
theorem insertEntry_append_last {key : String} {value : β} {entries : List (String × β)}
    (h : ∀ e ∈ entries, e.1 < key) :
    insertEntry key value entries = entries ++ [(key, value)] := by
  induction entries with
  | nil => rfl
  | cons head rest ih =>
    obtain ⟨k, v⟩ := head
    have hk : k < key := h (k, v) (by simp)
    have hnlt : ¬ key < k := String.lt_asymm hk
    have hne : key ≠ k := fun he => String.lt_irrefl k (he ▸ hk)
    simp [insertEntry, hnlt, hne, ih fun e he => h e (List.mem_cons_of_mem _ he)]

theorem entries_foldl_insert (d : Dictionary β) {pairs : List (String × β)}
    (hpairs : pairs.Pairwise fun a b => a.1 < b.1)
    (hd : ∀ e ∈ d.entries, ∀ p ∈ pairs, e.1 < p.1) :
    (pairs.foldl (fun d (key, value) => d.insert key value) d).entries = d.entries ++ pairs := by
  induction pairs generalizing d with
  | nil => rw [List.foldl_nil, List.append_nil]
  | cons p rest ih =>
    obtain ⟨hp, hrest⟩ := List.pairwise_cons.1 hpairs
    have hinsert : (d.insert p.1 p.2).entries = d.entries ++ [p] :=
      insertEntry_append_last fun e he => hd e he p List.mem_cons_self
    have hbelow : ∀ e ∈ (d.insert p.1 p.2).entries, ∀ q ∈ rest, e.1 < q.1 := by
      intro e he q hq
      rw [hinsert] at he
      rcases List.mem_append.1 he with he | he
      · exact hd e he q (List.mem_cons_of_mem _ hq)
      · rw [List.mem_singleton.1 he]
        exact hp q hq
    rw [List.foldl_cons, ih (d.insert p.1 p.2) hrest hbelow, hinsert, List.append_assoc]
    rfl

/-- Pairs whose keys ascend are the entries of their dictionary. -/
theorem entries_ofList {pairs : List (String × β)} (h : pairs.Pairwise fun a b => a.1 < b.1) :
    (ofList pairs).entries = pairs :=
  entries_foldl_insert empty h nofun

theorem get?_eq_none_iff {d : Dictionary β} {key : String} :
    d.get? key = none ↔ key ∉ d.entries.map Prod.fst := by
  rw [get?, List.lookup_eq_none_iff, List.mem_map]
  constructor
  · rintro h ⟨e, he, rfl⟩
    exact absurd (h e he) (by simp)
  · intro h e he
    refine bne_iff_ne.2 fun heq => h ⟨e, he, heq.symm⟩

theorem lookup_cons_eq_ite (key other : String) (value : β) (rest : List (String × β)) :
    ((key, value) :: rest).lookup other = if other = key then some value else rest.lookup other := by
  rw [List.lookup_cons]
  by_cases h : other = key
  · simp [h]
  · rw [if_neg h, beq_false_of_ne h]

theorem lookup_insertEntry (key other : String) (value : β) (entries : List (String × β)) :
    (insertEntry key value entries).lookup other
      = if other = key then some value else entries.lookup other := by
  induction entries with
  | nil => exact lookup_cons_eq_ite key other value []
  | cons head rest ih =>
    obtain ⟨k, v⟩ := head
    simp only [insertEntry]
    split
    · exact lookup_cons_eq_ite key other value _
    · split
      · rename_i hkey
        subst hkey
        rw [lookup_cons_eq_ite, lookup_cons_eq_ite]
        split
        · rfl
        · rfl
      · rename_i hkey
        rw [lookup_cons_eq_ite, lookup_cons_eq_ite, ih]
        by_cases h : other = k
        · rw [if_pos h, if_pos h, if_neg fun heq => hkey (heq.symm.trans h)]
        · rw [if_neg h, if_neg h]

/-- A new entry changes the value under its key and no other. -/
theorem get?_insert (d : Dictionary β) (key other : String) (value : β) :
    (d.insert key value).get? other = if other = key then some value else d.get? other :=
  lookup_insertEntry key other value d.entries

theorem eq_of_entries_eq {d e : Dictionary β} (h : d.entries = e.entries) : d = e := by
  cases d
  cases e
  cases h
  rfl

theorem ofList_insertEntry (key : String) (value : β) {entries : List (String × β)}
    (h : entries.Pairwise fun a b => a.1 < b.1) :
    ofList (insertEntry key value entries) = (ofList entries).insert key value := by
  apply eq_of_entries_eq
  show _ = insertEntry key value (ofList entries).entries
  rw [entries_ofList (pairwise_insertEntry h), entries_ofList h]

end Dictionary

end RoleAudit
