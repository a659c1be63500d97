import RoleAudit.Text.Affix
import RoleAudit.Text.Name
import RoleAudit.Proofs.Settings.Glob

/-!
# Globs segment by segment

No wildcard is written with a dot, so a dot in a glob stands for itself and ends the reading of what is
before it. Of the wildcards only `**` takes dots. A glob without two stars next to each other therefore
takes as many dots as are written in it, and the name can only be cut at the dots at which the glob is
cut: each segment of the name is left to one segment of the glob.

The induction goes over the segments of the glob. The counting of dots tells where a name is cut: what
the first segment takes has no dot in it, so it is the first segment of the name.
-/

namespace RoleAudit.Glob

open Text

/-! ## Readings -/

/-- A dot ends one reading and begins the next. -/
theorem Reads.append_dot {ts us : List Token} {glob rest : List Char} (h : Reads ts glob)
    (hrest : Reads us rest) : Reads (ts ++ .literal '.' :: us) (glob ++ '.' :: rest) := by
  refine ⟨?_, ?_, ?_⟩
  · simp [h.spelled, hrest.spelled, Token.spelling]
  · intro c hc
    simp only [List.mem_append, List.mem_cons, Token.literal.injEq] at hc
    rcases hc with hc | rfl | hc
    · exact h.literal c hc
    · decide
    · exact hrest.literal c hc
  · -- no star in front of the dot is paired with a star behind it
    exact List.isChain_append.2 ⟨h.paired, hrest.paired.cons (by simp), by simp⟩

theorem tokens_append_dot (glob rest : List Char) :
    tokens (glob ++ '.' :: rest) = tokens glob ++ .literal '.' :: tokens rest :=
  (reads_iff.1 ((reads_tokens glob).append_dot (reads_tokens rest))).symm

/-- Only two stars next to each other are read as the piece that takes dots. -/
theorem across_not_mem_tokens {glob : List Char} (h : ¬ ['*', '*'] <:+: glob) :
    .across ∉ tokens glob := by
  intro hmem
  obtain ⟨before, behind, hts⟩ := List.append_of_mem hmem
  refine h ⟨before.flatMap Token.spelling, behind.flatMap Token.spelling, ?_⟩
  have hspelled := (reads_tokens glob).spelled
  rw [hts, List.flatMap_append, List.flatMap_cons, ← List.append_assoc] at hspelled
  exact hspelled

/-- Without wildcards, a glob is read as its characters. -/
theorem reads_map_literal {glob : List Char} (hstar : '*' ∉ glob) (hone : '?' ∉ glob) :
    Reads (glob.map .literal) glob := by
  refine ⟨?_, ?_, ?_⟩
  · simp [List.flatMap_map, Token.spelling]
  · intro c hc
    obtain ⟨d, hd, hdc⟩ := List.mem_map.1 hc
    obtain rfl : d = c := Token.literal.inj hdc
    exact ⟨ne_of_mem_of_not_mem hd hstar, ne_of_mem_of_not_mem hd hone⟩
  · rw [List.isChain_map]
    exact (List.pairwise_of_forall (by simp)).isChain

/-! ## Cutting a name at a dot -/

theorem covers_append_dot_iff {ts us : List Token} {name : List Char} :
    Covers (ts ++ .literal '.' :: us) name ↔
      ∃ first rest, name = first ++ '.' :: rest ∧ Covers ts first ∧ Covers us rest := by
  induction ts generalizing name with
  | nil =>
    rw [List.nil_append, covers_cons_iff]
    simp [Token.Takes, covers_nil_iff]
  | cons t ts ih =>
    simp only [List.cons_append, covers_cons_iff, ih]
    constructor
    · rintro ⟨part, _, rfl, htakes, first, rest, rfl, hfirst, hrest⟩
      exact ⟨part ++ first, rest, (List.append_assoc ..).symm, ⟨part, first, rfl, htakes, hfirst⟩,
        hrest⟩
    · rintro ⟨_, rest, rfl, ⟨part, first, rfl, htakes, hfirst⟩, hrest⟩
      exact ⟨part, first ++ '.' :: rest, List.append_assoc .., htakes, first, rest, rfl, hfirst,
        hrest⟩

theorem covers_map_literal_iff {chars name : List Char} :
    Covers (chars.map .literal) name ↔ name = chars := by
  induction chars generalizing name with
  | nil => exact covers_nil_iff
  | cons c chars ih =>
    rw [List.map_cons, covers_cons_iff]
    simp [Token.Takes, ih]

/-! ## Counting dots -/

/-- A piece other than `**` takes as many dots as are written in it. -/
theorem Token.Takes.count_dot {t : Token} {part : List Char} (h : t.Takes part)
    (ht : t ≠ .across) : part.count '.' = t.spelling.count '.' := by
  cases t with
  | literal c =>
    rw [h]
    rfl
  | one =>
    obtain ⟨c, hc, rfl⟩ := h
    rw [List.count_singleton]
    simpa [Token.spelling] using hc
  | within => exact List.count_eq_zero.2 h
  | across => exact absurd rfl ht

theorem Covers.count_dot {ts : List Token} {name : List Char} (h : Covers ts name)
    (hts : .across ∉ ts) : name.count '.' = (ts.flatMap Token.spelling).count '.' := by
  induction ts generalizing name with
  | nil => rw [covers_nil_iff.1 h, List.flatMap_nil]
  | cons t ts ih =>
    obtain ⟨part, rest, rfl, htakes, hrest⟩ := covers_cons_iff.1 h
    obtain ⟨ht, hts⟩ := List.ne_and_not_mem_of_not_mem_cons hts
    rw [List.count_append, List.flatMap_cons, List.count_append, htakes.count_dot ht.symm,
      ih hrest hts]

section Segments

variable {glob name : List Char} (hglob : ¬ ['*', '*'] <:+: glob)

include hglob

theorem count_dot_of_covers (h : Covers (tokens glob) name) : name.count '.' = glob.count '.' := by
  rw [h.count_dot (across_not_mem_tokens hglob), (reads_tokens glob).spelled]

theorem dot_not_mem_of_covers (h : Covers (tokens glob) name) (hdot : '.' ∉ glob) : '.' ∉ name := by
  rw [← List.count_eq_zero] at hdot ⊢
  rw [count_dot_of_covers hglob h, hdot]

/-- A glob covers a name exactly if its segments cover the segments of the name, one each. -/
theorem covers_tokens_iff :
    Covers (tokens glob) name ↔
      List.Forall₂ (fun part segment => Covers (tokens part) segment)
        (partsBetween '.' glob) (partsBetween '.' name) := by
  induction glob using parts_induction '.' generalizing name with
  | last part hpart =>
    rw [partsBetween_of_not_mem hpart]
    constructor
    · intro h
      rw [partsBetween_of_not_mem (dot_not_mem_of_covers hglob h hpart)]
      exact .cons h .nil
    · intro h
      cases name using parts_induction '.' with
      | last name hname =>
        rw [partsBetween_of_not_mem hname] at h
        exact (List.forall₂_cons.1 h).1
      | cons first rest hfirst =>
        rw [partsBetween_append_cons rest hfirst] at h
        have hnil := List.forall₂_nil_left_iff.1 (List.forall₂_cons.1 h).2
        exact absurd hnil (partsBetween_ne_nil '.' rest)
  | cons part glob hpart ih =>
    have hstarsPart : ¬ ['*', '*'] <:+: part := fun h =>
      hglob (h.trans (List.prefix_append ..).isInfix)
    have hstarsRest : ¬ ['*', '*'] <:+: glob := fun h =>
      hglob (h.trans ((List.suffix_cons ..).trans (List.suffix_append ..)).isInfix)
    rw [tokens_append_dot, covers_append_dot_iff, partsBetween_append_cons glob hpart]
    constructor
    · rintro ⟨first, rest, rfl, hfirst, hrest⟩
      rw [partsBetween_append_cons rest (dot_not_mem_of_covers hstarsPart hfirst hpart)]
      exact .cons hfirst ((ih hstarsRest).1 hrest)
    · intro h
      cases name using parts_induction '.' with
      | last name hname =>
        rw [partsBetween_of_not_mem hname] at h
        have hnil := List.forall₂_nil_right_iff.1 (List.forall₂_cons.1 h).2
        exact absurd hnil (partsBetween_ne_nil '.' glob)
      | cons first rest hfirst =>
        rw [partsBetween_append_cons rest hfirst] at h
        obtain ⟨hhead, htail⟩ := List.forall₂_cons.1 h
        exact ⟨first, rest, rfl, hhead, (ih hstarsRest).2 htail⟩

end Segments

/-- The same of texts. -/
theorem covers_segments_iff {glob name : String} (hglob : ¬ ['*', '*'] <:+: glob.toList) :
    Covers (tokens glob.toList) name.toList ↔
      List.Forall₂ (fun part segment => Covers (tokens part.toList) segment.toList)
        (segments glob) (segments name) := by
  rw [covers_tokens_iff hglob, segments, segments, List.forall₂_map_left_iff,
    List.forall₂_map_right_iff]
  simp only [String.toList_ofList]

/-- Take a library of regular expressions that does what is documented, and a glob that it compiles. Where no
two stars stand next to each other, wildcards stay inside a segment: the glob matches a name exactly if
both have the same number of segments and each segment of the glob covers the segment of the name in its
place. A name that it matches has as many dots as the glob, and each segment of the glob, once compiled,
matches the segment in its place. A glob without wildcards matches the one name that it spells. -/
theorem matches_segment_by_segment {regexes : RegexLibrary} (hlib : regexes.Documented) {glob : String}
    {test : String → Bool} (htest : compile regexes glob = .ok test) (name : String) :
    (¬ ['*', '*'] <:+: glob.toList →
      (test name = true ↔
        List.Forall₂ (fun part segment => Covers (tokens part.toList) segment.toList)
          (segments glob) (segments name)) ∧
      (test name = true → name.toList.count '.' = glob.toList.count '.' ∧
        List.Forall₂ (fun part segment => ∀ p, compile regexes part = .ok p → p segment = true)
          (segments glob) (segments name))) ∧
    ('*' ∉ glob.toList → '?' ∉ glob.toList → (test name = true ↔ name = glob)) := by
  rw [test_iff_covers hlib htest]
  refine ⟨fun hglob => ⟨covers_segments_iff hglob, fun h => ⟨count_dot_of_covers hglob h, ?_⟩⟩,
    fun hstar hone => ?_⟩
  · refine ((covers_segments_iff hglob).1 h).imp fun part segment hcovers p hp => ?_
    exact (test_iff_covers hlib hp segment).2 hcovers
  · have htokens := reads_iff.1 (reads_map_literal hstar hone)
    rw [← htokens, covers_map_literal_iff, String.toList_inj]

/-- A star between two dots takes one package and not two, and the dots of a plain name match dots
only. -/
theorem star_takes_one_package :
    RegexLibrary.standard.Documented ∧ ¬ ['*', '*'] <:+: "com.*.Legac?".toList ∧
    (∃ test, compile .standard "com.*.Legac?" = .ok test ∧ test "com.billing.Legacy" = true ∧
      "com.billing.Legacy".toList.count '.' = "com.*.Legac?".toList.count '.' ∧
      List.Forall₂ (fun part segment => Covers (tokens part.toList) segment.toList)
        ["com", "*", "Legac?"] ["com", "billing", "Legacy"] ∧
      ¬ test "com.billing.old.Legacy" = true) ∧
    ∃ test, compile .standard "com.Order" = .ok test ∧ test "com.Order" = true ∧
      ¬ test "comXOrder" = true := by
  have hlib := RegexLibrary.standard_documented
  have hstars : ¬ ['*', '*'] <:+: "com.*.Legac?".toList := by
    rw [← occursIn_iff]
    decide
  have hwild : compile .standard "com.*.Legac?"
      = .ok (Regex.hasMatch (expression "com.*.Legac?")) := rfl
  have hplain : compile .standard "com.Order" = .ok (Regex.hasMatch (expression "com.Order")) := rfl
  have hlegacy : Regex.hasMatch (expression "com.*.Legac?") "com.billing.Legacy" = true := by
    decide +kernel
  have hsegments := fun name => (matches_segment_by_segment hlib hwild name).1 hstars
  have hliteral := fun name =>
    (matches_segment_by_segment hlib hplain name).2 (by decide) (by decide)
  have hparts := (hsegments _).1.1 hlegacy
  have hdots := ((hsegments _).2 hlegacy).1
  refine ⟨hlib, hstars, ⟨_, hwild, hlegacy, hdots, hparts, fun h => ?_⟩, _, hplain, ?_, fun h => ?_⟩
  · exact absurd ((hsegments _).2 h).1 (by decide)
  · exact (hliteral _).2 rfl
  · exact absurd ((hliteral _).1 h) (by decide)

/-- Two stars next to each other take dots. -/
example : (compile .standard "com.**").toOption.any (· "com.billing.old.Legacy") = true := by
  decide +kernel

end RoleAudit.Glob
