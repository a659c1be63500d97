/-!
# Qualified names

A qualified name is a text whose dots divide it into a path of packages and a last, simple part.
Nothing is required of the text: a name without a dot is all simple part, and a name that ends in
a dot has an empty one.
-/

namespace RoleAudit.Text

/-- Cuts `chars` at its last `mark`: what stands before it and what stands after it, or `none` when
`mark` does not occur. -/
def cutAtLast? (mark : Char) : List Char → Option (List Char × List Char)
  | [] => none
  | c :: rest =>
    match cutAtLast? mark rest with
    | some (before, after) => some (c :: before, after)
    | none => if c = mark then some ([], rest) else none

/-- Cuts `chars` at its first `mark`: what stands before it and what stands after it, or `none`
when `mark` does not occur. -/
def cutAtFirst? (mark : Char) : List Char → Option (List Char × List Char)
  | [] => none
  | c :: rest =>
    if c = mark then some ([], rest)
    else (cutAtFirst? mark rest).map fun (before, after) => (c :: before, after)

/-- The parts of `chars` between its `mark`s; there is one more part than there are marks. -/
def partsBetween (mark : Char) : List Char → List (List Char)
  | [] => [[]]
  | c :: rest =>
    if c = mark then [] :: partsBetween mark rest
    else
      match partsBetween mark rest with
      | [] => [[c]]
      | part :: parts => (c :: part) :: parts

/-- The last dotted part of a qualified name. -/
def simpleName (name : String) : String :=
  match cutAtLast? '.' name.toList with
  | some (_, after) => String.ofList after
  | none => name

/-- Everything before the last dot of a qualified name; empty when there is no dot. -/
def packageName (name : String) : String :=
  match cutAtLast? '.' name.toList with
  | some (before, _) => String.ofList before
  | none => ""

/-- The dotted parts of a name, first to last. -/
def segments (name : String) : List String :=
  (partsBetween '.' name.toList).map String.ofList

theorem cutAtFirst?_eq_some {mark : Char} {chars before after : List Char}
    (h : cutAtFirst? mark chars = some (before, after)) :
    chars = before ++ mark :: after ∧ mark ∉ before := by
  induction chars generalizing before after with
  | nil => simp [cutAtFirst?] at h
  | cons c rest ih =>
    by_cases hc : c = mark
    · simp only [cutAtFirst?, hc, if_true, Option.some.injEq, Prod.mk.injEq] at h
      obtain ⟨rfl, rfl⟩ := h
      simp [hc]
    · simp only [cutAtFirst?, hc, if_false, Option.map_eq_some_iff, Prod.mk.injEq] at h
      obtain ⟨⟨b, a⟩, hcut, rfl, rfl⟩ := h
      obtain ⟨hrest, hmem⟩ := ih hcut
      exact ⟨by simp [hrest], by simp [hmem, Ne.symm hc]⟩

theorem cutAtFirst?_append_cons {mark : Char} {before : List Char} (after : List Char)
    (h : mark ∉ before) : cutAtFirst? mark (before ++ mark :: after) = some (before, after) := by
  induction before with
  | nil => simp [cutAtFirst?]
  | cons c rest ih =>
    simp only [List.mem_cons, not_or] at h
    simp [cutAtFirst?, Ne.symm h.1, ih h.2]

theorem partsBetween_of_not_mem {mark : Char} {chars : List Char} (h : mark ∉ chars) :
    partsBetween mark chars = [chars] := by
  induction chars with
  | nil => rfl
  | cons c rest ih =>
    simp only [List.mem_cons, not_or] at h
    rw [partsBetween, if_neg (Ne.symm h.1), ih h.2]

theorem partsBetween_append_cons {mark : Char} {first : List Char} (rest : List Char)
    (h : mark ∉ first) :
    partsBetween mark (first ++ mark :: rest) = first :: partsBetween mark rest := by
  induction first with
  | nil => simp [partsBetween]
  | cons c chars ih =>
    simp only [List.mem_cons, not_or] at h
    rw [List.cons_append, partsBetween, if_neg (Ne.symm h.1), ih h.2]

/-- Induction part by part: a text is one part, or a part, a mark and a rest. -/
@[elab_as_elim]
theorem parts_induction (mark : Char) {motive : List Char → Prop}
    (last : ∀ part, mark ∉ part → motive part)
    (cons : ∀ first rest, mark ∉ first → motive rest → motive (first ++ mark :: rest))
    (chars : List Char) : motive chars := by
  by_cases h : mark ∈ chars
  · obtain ⟨first, rest, hchars, hfirst⟩ := List.eq_append_cons_of_mem h
    have hshorter : rest.length < chars.length := by
      rw [hchars, List.length_append, List.length_cons]
      omega
    exact hchars ▸ cons first rest hfirst (parts_induction mark last cons rest)
  · exact last chars h
termination_by chars.length

theorem partsBetween_ne_nil (mark : Char) (chars : List Char) : partsBetween mark chars ≠ [] := by
  cases chars using parts_induction mark with
  | last part hpart => simp [partsBetween_of_not_mem hpart]
  | cons first rest hfirst => simp [partsBetween_append_cons rest hfirst]

end RoleAudit.Text
