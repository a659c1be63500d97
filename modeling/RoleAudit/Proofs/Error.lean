import Mathlib.Data.List.Basic
import RoleAudit.Error

/-!
# Computations that can end in an error

A computation has a result exactly if all of its steps have one, and otherwise it ends in the error of the
first step that has none. So one that goes through a list has a result for every item, or it ends in the
error of an item.
-/

namespace RoleAudit.Error

variable {α β : Type}

/-- What ends without an error has a result. -/
theorem exists_of_isOk {x : Except Error α} (h : x.isOk = true) : ∃ a, x = .ok a := by
  cases x with
  | ok a => exact ⟨a, rfl⟩
  | error e => exact absurd h Bool.false_ne_true

theorem isOk_iff {x : Except Error α} : x.isOk = true ↔ ∀ e, x ≠ .error e := by
  cases x <;> simp [Except.isOk, Except.toBool]

theorem bind_eq_ok_iff {x : Except Error α} {f : α → Except Error β} {b : β} :
    x >>= f = .ok b ↔ ∃ a, x = .ok a ∧ f a = .ok b := by
  cases x <;> simp [bind, Except.bind]

theorem bind_eq_error_iff {x : Except Error α} {f : α → Except Error β} {e : Error} :
    x >>= f = .error e ↔ x = .error e ∨ ∃ a, x = .ok a ∧ f a = .error e := by
  cases x <;> simp [bind, Except.bind]

variable {f : α → Except Error β}

theorem mapM_eq_ok_iff {as : List α} {bs : List β} :
    as.mapM f = .ok bs ↔ bs.map .ok = as.map f := by
  induction as generalizing bs with
  | nil => simp [pure, Except.pure, eq_comm]
  | cons a as ih =>
    rw [List.mapM_cons, List.map_cons, List.map_eq_cons_iff, bind_eq_ok_iff]
    simp only [bind_eq_ok_iff, ih, pure, Except.pure, Except.ok.injEq]
    constructor
    · rintro ⟨b, hb, rest, hrest, rfl⟩
      exact ⟨b, rest, rfl, hb.symm, hrest⟩
    · rintro ⟨b, rest, rfl, hb, hrest⟩
      exact ⟨b, hb.symm, rest, hrest, rfl⟩

theorem mem_mapM_iff {as : List α} {bs : List β} (h : as.mapM f = .ok bs) {b : β} :
    b ∈ bs ↔ ∃ a ∈ as, f a = .ok b := by
  have hmem : (.ok b : Except Error β) ∈ bs.map .ok ↔ b ∈ bs :=
    List.mem_map_of_injective fun _ _ => Except.ok.inj
  rw [← hmem, mapM_eq_ok_iff.1 h, List.mem_map]

theorem exists_of_mapM_eq_error {as : List α} {e : Error} (h : as.mapM f = .error e) :
    ∃ a ∈ as, f a = .error e := by
  induction as with
  | nil => simp [pure, Except.pure] at h
  | cons a as ih =>
    rw [List.mapM_cons, bind_eq_error_iff] at h
    rcases h with ha | ⟨b, -, h⟩
    · exact ⟨a, List.mem_cons_self, ha⟩
    · rcases bind_eq_error_iff.1 h with hrest | ⟨rest, -, hdone⟩
      · obtain ⟨a', ha', he⟩ := ih hrest
        exact ⟨a', List.mem_cons_of_mem _ ha', he⟩
      · simp [pure, Except.pure] at hdone

/-- There is a result for all items exactly if there is one for each. -/
theorem exists_mapM_iff {as : List α} :
    (∃ bs, as.mapM f = .ok bs) ↔ ∀ a ∈ as, ∃ b, f a = .ok b := by
  constructor
  · rintro ⟨bs, hbs⟩ a ha
    have hmem : f a ∈ bs.map .ok := mapM_eq_ok_iff.1 hbs ▸ List.mem_map_of_mem ha
    obtain ⟨b, -, hb⟩ := List.mem_map.1 hmem
    exact ⟨b, hb.symm⟩
  · intro h
    cases hmap : as.mapM f with
    | ok bs => exact ⟨bs, rfl⟩
    | error e =>
      obtain ⟨a, ha, he⟩ := exists_of_mapM_eq_error hmap
      obtain ⟨b, hb⟩ := h a ha
      rw [he] at hb
      cases hb

end RoleAudit.Error
