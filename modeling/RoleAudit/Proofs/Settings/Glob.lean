import Mathlib.Data.List.Chain
import Mathlib.Data.List.Forall2
import RoleAudit.Proofs.Regex
import RoleAudit.Settings.Glob

/-!
# What globs match

A glob is read as a list of pieces, and a name matches if it can be cut into as many parts, one after
the other, such that each piece takes its part. How a glob is read is said by `Reads`, and every glob has
exactly one reading. Which parts a piece takes is said by `Token.Takes`.

The expression for a glob is that of its reading between the two ends of a text: each piece of the reading
is one piece of the expression, and takes the same parts. A match has to begin at the beginning of the name
and end at its end, so that the pieces take all of it. This rests on what is documented of the library and
on nothing else.
-/

namespace RoleAudit.Glob

/-- A piece of a glob. -/
inductive Token where
  /-- The character itself. -/
  | literal (c : Char)
  /-- One character that is no dot. -/
  | one
  /-- Any characters that are no dots. -/
  | within
  /-- Any characters that are no line breaks. -/
  | across
  deriving DecidableEq, Repr

/-- The pieces of a glob, left to right; two stars next to each other are one piece. -/
def tokens : List Char → List Token
  | [] => []
  | '*' :: '*' :: rest => .across :: tokens rest
  | '*' :: rest => .within :: tokens rest
  | '?' :: rest => .one :: tokens rest
  | c :: rest => .literal c :: tokens rest

/-- How a piece is written. -/
def Token.spelling : Token → List Char
  | .literal c => [c]
  | .one => ['?']
  | .within => ['*']
  | .across => ['*', '*']

/-- The parts of a name that a piece takes. -/
def Token.Takes : Token → List Char → Prop
  | .literal c, part => part = [c]
  | .one, part => ∃ c, c ≠ '.' ∧ part = [c]
  | .within, part => '.' ∉ part
  | .across, part => '\n' ∉ part

/-- Some pieces are the reading of a glob. -/
structure Reads (ts : List Token) (glob : List Char) : Prop where
  /-- Written one after the other, they are the glob. -/
  spelled : ts.flatMap Token.spelling = glob
  /-- No wildcard stands for itself. -/
  literal : ∀ c, .literal c ∈ ts → c ≠ '*' ∧ c ≠ '?'
  /-- Stars are paired from the left: no star is left alone in front of another one. -/
  paired : ts.IsChain fun a b => a = .within → b ≠ .within ∧ b ≠ .across

/-- A name can be cut into parts that the pieces take in order. -/
def Covers (ts : List Token) (name : List Char) : Prop :=
  ∃ parts : List (List Char), parts.flatten = name ∧ List.Forall₂ Token.Takes ts parts

/-! ## Readings -/

/-- A piece can stand in front of a reading of `rest`. -/
def Token.Leads (t : Token) (rest : List Char) : Prop :=
  (∀ c, t = .literal c → c ≠ '*' ∧ c ≠ '?') ∧ (t = .within → rest.head? ≠ some '*')

theorem reads_nil_iff {cs : List Char} : Reads [] cs ↔ cs = [] := by
  constructor
  · intro h
    exact h.spelled.symm
  · rintro rfl
    exact ⟨rfl, nofun, .nil⟩

/-- A glob starts with a star exactly if its reading does. -/
theorem Reads.head?_eq_star {t : Token} {ts : List Token} {cs : List Char} (h : Reads (t :: ts) cs) :
    cs.head? = some '*' ↔ t = .within ∨ t = .across := by
  rw [← h.spelled]
  cases t with
  | literal c =>
    have hc := (h.literal c List.mem_cons_self).1
    simp [Token.spelling, hc]
  | one => simp [Token.spelling]
  | within => simp [Token.spelling]
  | across => simp [Token.spelling]

theorem reads_cons_iff {t : Token} {ts : List Token} {cs : List Char} :
    Reads (t :: ts) cs ↔ ∃ rest, cs = t.spelling ++ rest ∧ t.Leads rest ∧ Reads ts rest := by
  constructor
  · intro h
    have hts : Reads ts (ts.flatMap Token.spelling) :=
      ⟨rfl, fun c hc => h.literal c (List.mem_cons_of_mem _ hc), h.paired.tail⟩
    refine ⟨_, h.spelled.symm, ⟨fun c hc => h.literal c (hc ▸ List.mem_cons_self), ?_⟩, hts⟩
    rintro rfl hstar
    cases ts with
    | nil => exact nomatch hstar
    | cons b rest =>
      obtain ⟨hwithin, hacross⟩ := (List.isChain_cons_cons.1 h.paired).1 rfl
      rcases hts.head?_eq_star.1 hstar with hb | hb
      · exact hwithin hb
      · exact hacross hb
  · rintro ⟨rest, rfl, ⟨hliteral, hstar⟩, h⟩
    refine ⟨congrArg (t.spelling ++ ·) h.spelled, ?_, ?_⟩
    · intro c hc
      rcases List.mem_cons.1 hc with hc | hc
      · exact hliteral c hc.symm
      · exact h.literal c hc
    · cases ts with
      | nil => exact .singleton _
      | cons b rest' =>
        refine List.isChain_cons_cons.2 ⟨fun ht => ?_, h.paired⟩
        have hne := fun hb => hstar ht (h.head?_eq_star.2 hb)
        exact ⟨fun hb => hne (.inl hb), fun hb => hne (.inr hb)⟩

/-- The scan takes a piece that can stand there. -/
theorem tokens_spelling_append {t : Token} {rest : List Char} (h : t.Leads rest) :
    tokens (t.spelling ++ rest) = t :: tokens rest := by
  cases t with
  | literal c =>
    obtain ⟨hstar, hone⟩ := h.1 c rfl
    exact tokens.eq_5 c rest (fun _ hc => absurd hc hstar) hstar hone
  | one => rfl
  | within =>
    refine tokens.eq_3 rest fun rest' hrest => h.2 rfl ?_
    rw [hrest]
    rfl
  | across => rfl

theorem reads_tokens (cs : List Char) : Reads (tokens cs) cs := by
  fun_induction tokens cs with
  | case1 => exact reads_nil_iff.2 rfl
  | case2 rest ih => exact reads_cons_iff.2 ⟨rest, rfl, ⟨nofun, nofun⟩, ih⟩
  | case3 rest hrest ih =>
    refine reads_cons_iff.2 ⟨rest, rfl, ⟨nofun, fun _ hstar => ?_⟩, ih⟩
    obtain ⟨rest', hrest'⟩ := List.head?_eq_some_iff.1 hstar
    exact hrest rest' hrest'
  | case4 rest ih => exact reads_cons_iff.2 ⟨rest, rfl, ⟨nofun, nofun⟩, ih⟩
  | case5 c rest _ hstar hone ih =>
    refine reads_cons_iff.2 ⟨rest, rfl, ⟨?_, nofun⟩, ih⟩
    rintro _ ⟨⟩
    exact ⟨hstar, hone⟩

/-- The scan finds the only reading of a glob. -/
theorem reads_iff {ts : List Token} {cs : List Char} : Reads ts cs ↔ ts = tokens cs := by
  constructor
  · intro h
    induction ts generalizing cs with
    | nil =>
      rw [reads_nil_iff.1 h]
      rfl
    | cons t ts ih =>
      obtain ⟨rest, rfl, hleads, hrest⟩ := reads_cons_iff.1 h
      rw [tokens_spelling_append hleads, ← ih hrest]
  · rintro rfl
    exact reads_tokens cs

/-! ## Matching -/

theorem covers_nil_iff {name : List Char} : Covers [] name ↔ name = [] := by
  simp [Covers, List.forall₂_nil_left_iff, eq_comm]

theorem covers_cons_iff {t : Token} {ts : List Token} {name : List Char} :
    Covers (t :: ts) name ↔ ∃ part rest, name = part ++ rest ∧ t.Takes part ∧ Covers ts rest := by
  constructor
  · rintro ⟨_, rfl, h⟩
    obtain ⟨part, parts, htakes, hparts, rfl⟩ := List.forall₂_cons_left_iff.1 h
    exact ⟨part, parts.flatten, rfl, htakes, parts, rfl, hparts⟩
  · rintro ⟨part, _, rfl, htakes, parts, rfl, hparts⟩
    exact ⟨part :: parts, rfl, .cons htakes hparts⟩

/-! ## The expression for a glob -/

/-- The piece of an expression that stands for a piece of a glob. -/
def Token.regexPiece : Token → Regex.Piece
  | .literal c => .once (.literal c)
  | .one => .once .exceptDot
  | .within => .many .exceptDot
  | .across => .many .any

/-- The expression for a glob. -/
def expression (glob : String) : List Regex.Piece :=
  .start :: (tokens glob.toList).map Token.regexPiece ++ [.stop]

theorem regexBody_eq (escape : String → String) (glob : List Char) :
    regexBody escape glob = Regex.text escape ((tokens glob).map Token.regexPiece) := by
  fun_induction tokens glob with
  | case1 => rfl
  | case2 rest ih =>
    rw [regexBody, ih]
    rfl
  | case3 rest hrest ih =>
    rw [regexBody.eq_3 escape rest hrest, ih]
    rfl
  | case4 rest ih =>
    rw [regexBody, ih]
    rfl
  | case5 c rest hpair hstar hone ih =>
    rw [regexBody.eq_5 escape c rest hpair hstar hone, ih]
    rfl

theorem regexText_eq (escape : String → String) (glob : String) :
    regexText escape glob = Regex.text escape (expression glob) := by
  rw [expression, Regex.text_append, regexText, regexBody_eq]
  rfl

/-- Three stars are two and one, and a dot is escaped. -/
example : regexText Regex.escape "com.a***" = "^com\\.a.*[^.]*$" := by decide +kernel

/-- The pieces of a glob, up to the end of the text, take what follows if they cover it. -/
theorem matchesAt_iff_covers {ts : List Token} {before behind : List Char} :
    Regex.MatchesAt (ts.map Token.regexPiece ++ [.stop]) before behind ↔ Covers ts behind := by
  induction ts generalizing before behind with
  | nil => simp [Regex.MatchesAt, covers_nil_iff]
  | cons t ts ih =>
    rw [List.map_cons, List.cons_append, covers_cons_iff]
    simp only [Token.regexPiece]
    cases t with
    | literal c => simp [Regex.MatchesAt, Regex.Atom.Takes, Token.Takes, ih]
    | one =>
      simp only [Regex.MatchesAt, Regex.Atom.Takes, Token.Takes, ih]
      constructor
      · rintro ⟨c, rest, hbehind, hc, hrest⟩
        exact ⟨[c], rest, hbehind, ⟨c, hc, rfl⟩, hrest⟩
      · rintro ⟨_, rest, hbehind, ⟨c, hc, rfl⟩, hrest⟩
        exact ⟨c, rest, hbehind, hc, hrest⟩
    | within => simp only [Regex.MatchesAt, Regex.Atom.Takes, Token.Takes, List.forall_mem_ne', ih]
    | across => simp only [Regex.MatchesAt, Regex.Atom.Takes, Token.Takes, List.forall_mem_ne', ih]

/-- A match of the expression begins at the beginning of the name, so that the pieces cover all of it. -/
theorem foundIn_expression_iff {glob name : String} :
    Regex.FoundIn (expression glob) name ↔ Covers (tokens glob.toList) name.toList := by
  have hcovers := @matchesAt_iff_covers (tokens glob.toList) [] name.toList
  rw [← hcovers]
  constructor
  · rintro ⟨skipped, rest, hname, hstart, hmatch⟩
    obtain rfl : skipped = [] := hstart
    rw [hname]
    exact hmatch
  · intro hmatch
    exact ⟨[], name.toList, rfl, rfl, hmatch⟩

/-! ## Compiled globs -/

variable {regexes : RegexLibrary}

theorem compile_eq_ok_iff {glob : String} {test : String → Bool} :
    compile regexes glob = .ok test ↔
      regexes.compile (regexText regexes.escape glob) = .ok test := by
  rw [compile]
  split <;> simp_all

theorem compile_eq_error_iff {glob : String} {e : Error} :
    compile regexes glob = .error e ↔ ∃ fault,
      regexes.compile (regexText regexes.escape glob) = .error fault ∧
        e = .invalidPattern glob fault := by
  rw [compile]
  split <;> simp_all [eq_comm]

section Documented

variable (hlib : regexes.Documented) {glob : String}

include hlib

theorem test_iff_covers {test : String → Bool} (htest : compile regexes glob = .ok test)
    (name : String) : test name = true ↔ Covers (tokens glob.toList) name.toList := by
  rw [compile_eq_ok_iff, regexText_eq] at htest
  rw [hlib.found_iff htest, foundIn_expression_iff]

/-- A glob is refused only if its expression is too big. -/
theorem tooBig_of_compile_eq_error {e : Error} (h : compile regexes glob = .error e) :
    ∃ limit, e = .invalidPattern glob (.tooBig limit) := by
  obtain ⟨fault, hfault, rfl⟩ := compile_eq_error_iff.1 h
  rw [regexText_eq] at hfault
  obtain ⟨limit, rfl⟩ := hlib.tooBig hfault
  exact ⟨limit, rfl⟩

end Documented

end RoleAudit.Glob
