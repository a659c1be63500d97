import Std.Data.TreeMap

/-!
# Multimaps

A multimap keeps, for every key, the values that were put under it in the order of their arrival.
`push` keeps every value, `insert` only those that the key does not have yet. Both leave the values
of all other keys alone.
-/

namespace RoleAudit

/-- Values by key, those of one key in the order of their arrival. -/
structure Multimap (κ β : Type) [Ord κ] where
  /-- The values of every key that has any. -/
  buckets : Std.TreeMap κ (Array β)

namespace Multimap

variable {κ β : Type} [Ord κ]

/-- The multimap without values. -/
def empty : Multimap κ β := ⟨.empty⟩

instance : Inhabited (Multimap κ β) := ⟨empty⟩

/-- The values of a key as they are stored. -/
def bucket (m : Multimap κ β) (key : κ) : Array β := m.buckets.getD key #[]

/-- The values of a key, oldest first. -/
def get (m : Multimap κ β) (key : κ) : List β := (m.bucket key).toList

/-- Puts a value at the end of those of a key. -/
def push (m : Multimap κ β) (key : κ) (value : β) : Multimap κ β :=
  ⟨m.buckets.insert key ((m.bucket key).push value)⟩

/-- Puts a value at the end of those of a key, unless the key has it. -/
def insert [BEq β] (m : Multimap κ β) (key : κ) (value : β) : Multimap κ β :=
  if (m.bucket key).contains value then m else m.push key value

/-- How many keys have a value. -/
def keyCount (m : Multimap κ β) : Nat := m.buckets.size

variable [Std.TransOrd κ] [Std.LawfulEqOrd κ] [DecidableEq κ]

omit [Std.LawfulEqOrd κ] [DecidableEq κ] in
@[simp]
theorem get_empty (key : κ) : (empty : Multimap κ β).get key = [] := by
  simp [get, bucket, empty, Std.TreeMap.getD_emptyc]

@[simp]
theorem get_push (m : Multimap κ β) (key other : κ) (value : β) :
    (m.push key value).get other =
      if key = other then m.get other ++ [value] else m.get other := by
  by_cases h : key = other
  · subst h
    simp [get, bucket, push]
  · have hc : compare key other ≠ .eq := fun he => h (Std.LawfulEqOrd.eq_of_compare he)
    simp [get, bucket, push, h, Std.TreeMap.getD_insert, hc]

@[simp]
theorem get_insert [DecidableEq β] (m : Multimap κ β) (key other : κ) (value : β) :
    (m.insert key value).get other =
      if key = other ∧ value ∉ m.get other then m.get other ++ [value] else m.get other := by
  have hmem : (m.bucket key).contains value = true ↔ value ∈ m.get key := by simp [get]
  rw [insert]
  by_cases hv : value ∈ m.get key
  · rw [if_pos (hmem.2 hv)]
    by_cases h : key = other
    · subst h
      simp [hv]
    · simp [h]
  · rw [if_neg (fun hc => hv (hmem.1 hc)), get_push]
    by_cases h : key = other
    · subst h
      simp [hv]
    · simp [h]

end Multimap

end RoleAudit
