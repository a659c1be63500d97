import Mathlib.Data.List.Basic
import RoleAudit.Regex.Standard

/-!
# What expressions match

`MatchesAt` says what an expression matches, piece by piece: what stands before the position and what
stands after it decide on the ends of the text, and a choice of characters takes characters off what stands
after it. A text has a match of an expression if there is one at some position of it. `Documented` says
that a library keeps to this, and a library that does may refuse an expression only because of its size.

The standard library keeps to it. What it reads off the text of an expression is the expression, since no
piece is written with a star in front. Its search is right if one step of it is: a match at a position ends
there, or goes on behind the next character with one of the rests.
-/

namespace RoleAudit

namespace Regex

section Written

variable (escape : String → String)

/-- A choice of characters as text. -/
def Atom.text : Atom → String
  | literal c => escape (String.singleton c)
  | any => "."
  | exceptDot => "[^.]"

/-- A piece as text. -/
def Piece.text : Piece → String
  | start => "^"
  | stop => "$"
  | once a => a.text escape
  | many a => a.text escape ++ "*"

/-- An expression as text: its pieces one after the other. -/
def text : List Piece → String
  | [] => ""
  | p :: rest => p.text escape ++ text rest

theorem text_append (r q : List Piece) : text escape (r ++ q) = text escape r ++ text escape q := by
  induction r with
  | nil => rw [List.nil_append, text, String.empty_append]
  | cons p r ih => rw [List.cons_append, text, text, ih, String.append_assoc]

end Written

/-- There is a match between `before` and `behind`, which takes characters off `behind` only. -/
def MatchesAt : List Piece → List Char → List Char → Prop
  | [], _, _ => True
  | .start :: r, before, behind => before = [] ∧ MatchesAt r before behind
  | .stop :: r, before, behind => behind = [] ∧ MatchesAt r before behind
  | .once a :: r, before, behind =>
    ∃ c rest, behind = c :: rest ∧ a.Takes c ∧ MatchesAt r (before ++ [c]) rest
  | .many a :: r, before, behind =>
    ∃ taken rest, behind = taken ++ rest ∧ (∀ c ∈ taken, a.Takes c) ∧
      MatchesAt r (before ++ taken) rest

/-- There is a match in what stands behind `before`. -/
def FoundBehind (r : List Piece) (before behind : List Char) : Prop :=
  ∃ skipped rest, behind = skipped ++ rest ∧ MatchesAt r (before ++ skipped) rest

/-- There is a match in a text. -/
def FoundIn (r : List Piece) (text : String) : Prop := FoundBehind r [] text.toList

end Regex

/-- What is documented of a library, as far as expressions are in use. -/
structure RegexLibrary.Documented (lib : RegexLibrary) : Prop where
  /-- An expression is refused only for its size. -/
  tooBig : ∀ {r fault}, lib.compile (Regex.text lib.escape r) = .error fault →
    ∃ limit, fault = .tooBig limit
  /-- What an expression compiles to tells whether there is a match of it in a text. -/
  found_iff : ∀ {r test}, lib.compile (Regex.text lib.escape r) = .ok test →
    ∀ text, test text = true ↔ Regex.FoundIn r text

namespace Regex

/-! ## Reading what is written -/

/-- How a symbol is written. -/
def Symbol.spelling : Symbol → List Char
  | .start => ['^']
  | .stop => ['$']
  | .star => ['*']
  | .atom (.literal c) => escapeChar c
  | .atom .any => ['.']
  | .atom .exceptDot => ['[', '^', '.', ']']

/-- The symbols of a piece. -/
def Piece.symbols : Piece → List Symbol
  | .start => [.start]
  | .stop => [.stop]
  | .once a => [.atom a]
  | .many a => [.atom a, .star]

theorem toList_text_atom (a : Atom) : (a.text escape).toList = (Symbol.atom a).spelling := by
  cases a with
  | literal c => simp [Atom.text, escape, Symbol.spelling]
  | any => rfl
  | exceptDot => rfl

theorem toList_text_piece (p : Piece) :
    (p.text escape).toList = p.symbols.flatMap Symbol.spelling := by
  cases p with
  | start => rfl
  | stop => rfl
  | once a => simp [Piece.text, Piece.symbols, toList_text_atom]
  | many a =>
    rw [Piece.text, String.toList_append, toList_text_atom]
    rfl

theorem toList_text (r : List Piece) :
    (text escape r).toList = (r.flatMap Piece.symbols).flatMap Symbol.spelling := by
  induction r with
  | nil => rfl
  | cons p r ih =>
    rw [text, String.toList_append, toList_text_piece, ih, List.flatMap_cons, List.flatMap_append]

theorem ne_of_not_mem_meta {c d : Char} (hc : c ∉ metaCharacters) (hd : d ∈ metaCharacters) :
    c ≠ d := fun h => hc (h ▸ hd)

/-- A character without a meaning is a symbol by itself. -/
theorem symbol?_of_not_mem_meta {c : Char} (hc : c ∉ metaCharacters) :
    symbol? c = some (.atom (.literal c)) := by
  have hne := fun d (hd : d ∈ metaCharacters) => ne_of_not_mem_meta hc hd
  rw [symbol?, if_neg (hne '^' (by decide)), if_neg (hne '$' (by decide)),
    if_neg (hne '*' (by decide)), if_neg (hne '.' (by decide)), if_neg hc]

theorem symbols?_spelling_append (s : Symbol) (rest : List Char) :
    symbols? (s.spelling ++ rest) = (symbols? rest).map (s :: ·) := by
  cases s with
  | start => rfl
  | stop => rfl
  | star => rfl
  | atom a =>
    cases a with
    | literal c =>
      rw [Symbol.spelling, escapeChar]
      split
      · next hmeta => simp [symbols?, hmeta]
      · next hplain =>
        -- neither of the spellings of more than one character begins with `c`
        have hne := fun d (hd : d ∈ metaCharacters) => ne_of_not_mem_meta hplain hd
        rw [List.singleton_append, symbols?.eq_4, symbol?_of_not_mem_meta hplain, Option.bind_some]
        · exact fun _ _ hc _ => hne _ (by decide) hc
        · exact fun _ hc _ => hne _ (by decide) hc
    | any => rfl
    | exceptDot => rfl

theorem symbols?_spelling (ss : List Symbol) : symbols? (ss.flatMap Symbol.spelling) = some ss := by
  induction ss with
  | nil => rfl
  | cons s ss ih => rw [List.flatMap_cons, symbols?_spelling_append, ih, Option.map_some]

/-- No piece is written with a star in front. -/
theorem head?_symbols_ne_star (r : List Piece) : (r.flatMap Piece.symbols).head? ≠ some .star := by
  cases r with
  | nil => simp
  | cons p r => cases p <;> simp [Piece.symbols]

theorem pieces?_symbols (r : List Piece) : pieces? (r.flatMap Piece.symbols) = some r := by
  induction r with
  | nil => rfl
  | cons p r ih =>
    rw [List.flatMap_cons]
    cases p with
    | start => simp [Piece.symbols, pieces?, ih]
    | stop => simp [Piece.symbols, pieces?, ih]
    | many a => simp [Piece.symbols, pieces?, ih]
    | once a =>
      have hstar := head?_symbols_ne_star r
      rw [Piece.symbols, List.singleton_append, pieces?.eq_5, ih]
      · rfl
      · rintro rest hrest
        rw [hrest] at hstar
        exact hstar rfl

theorem read?_text (r : List Piece) : read? (text escape r) = some r := by
  rw [read?, toList_text, symbols?_spelling, Option.bind_some, pieces?_symbols]

/-! ## Searching -/

theorem matchesAt_nil_iff {r : List Piece} {before : List Char} :
    MatchesAt r before [] ↔ matchesEmpty before.isEmpty true r = true := by
  induction r with
  | nil => simp [MatchesAt, matchesEmpty]
  | cons p r ih =>
    cases p with
    | start => simp [MatchesAt, matchesEmpty, ih]
    | stop => simp [MatchesAt, matchesEmpty, ih]
    | once a => simp [MatchesAt, matchesEmpty]
    | many a => simp [MatchesAt, matchesEmpty, ih, and_assoc]

/-- A text is cut in front of its first character, or behind it. -/
theorem exists_cut_cons_iff {c : Char} {cs : List Char} {P : List Char → List Char → Prop} :
    (∃ taken rest, c :: cs = taken ++ rest ∧ P taken rest) ↔
      P [] (c :: cs) ∨ ∃ taken rest, cs = taken ++ rest ∧ P (c :: taken) rest := by
  constructor
  · rintro ⟨taken, rest, hcs, hP⟩
    rcases List.cons_eq_append_iff.1 hcs with ⟨rfl, rfl⟩ | ⟨taken, rfl, rfl⟩
    · exact .inl hP
    · exact .inr ⟨taken, rest, rfl, hP⟩
  · rintro (hP | ⟨taken, rest, rfl, hP⟩)
    · exact ⟨[], c :: cs, rfl, hP⟩
    · exact ⟨c :: taken, rest, rfl, hP⟩

/-- Characters that may come any number of times do not come at all, or one of them comes first. -/
theorem matchesAt_many_cons_iff {a : Atom} {r : List Piece} {before : List Char} {c : Char}
    {cs : List Char} :
    MatchesAt (.many a :: r) before (c :: cs) ↔ MatchesAt r before (c :: cs) ∨
      a.Takes c ∧ MatchesAt (.many a :: r) (before ++ [c]) cs := by
  simp only [MatchesAt, exists_cut_cons_iff, List.forall_mem_cons, List.append_assoc,
    List.singleton_append]
  refine or_congr (by simp) ?_
  constructor
  · rintro ⟨taken, rest, hcs, ⟨hc, htaken⟩, hmatch⟩
    exact ⟨hc, taken, rest, hcs, htaken, hmatch⟩
  · rintro ⟨hc, taken, rest, hcs, htaken, hmatch⟩
    exact ⟨taken, rest, hcs, ⟨hc, htaken⟩, hmatch⟩

/-- One step: a match ends in front of a character, or goes on behind it with one of the rests. -/
theorem matchesAt_cons_iff {r : List Piece} {before : List Char} {c : Char} {cs : List Char} :
    MatchesAt r before (c :: cs) ↔ matchesEmpty before.isEmpty false r = true ∨
      ∃ q ∈ after before.isEmpty c r, MatchesAt q (before ++ [c]) cs := by
  induction r with
  | nil => simp [MatchesAt, matchesEmpty]
  | cons p r ih =>
    cases p with
    | start =>
      cases before <;> simp [MatchesAt, matchesEmpty, after, ih]
    | stop => simp [MatchesAt, matchesEmpty, after]
    | once a =>
      by_cases hc : a.Takes c <;> simp [MatchesAt, matchesEmpty, after, hc, and_assoc]
    | many a =>
      rw [matchesAt_many_cons_iff, ih, matchesEmpty, after, or_assoc]
      by_cases hc : a.Takes c <;> simp [hc, or_comm]

theorem foundBehind_nil_iff {r : List Piece} {before : List Char} :
    FoundBehind r before [] ↔ MatchesAt r before [] := by
  simp [FoundBehind, and_assoc]

theorem foundBehind_cons_iff {r : List Piece} {before : List Char} {c : Char} {cs : List Char} :
    FoundBehind r before (c :: cs) ↔
      MatchesAt r before (c :: cs) ∨ FoundBehind r (before ++ [c]) cs := by
  rw [FoundBehind, exists_cut_cons_iff, FoundBehind]
  simp

/-- One step for all rests at once. -/
theorem exists_matchesAt_cons_iff {rests : List (List Piece)} {before : List Char} {c : Char}
    {cs : List Char} :
    (∃ q ∈ rests, MatchesAt q before (c :: cs)) ↔
      rests.any (matchesEmpty before.isEmpty false) = true ∨
        ∃ q ∈ rests.flatMap (after before.isEmpty c), MatchesAt q (before ++ [c]) cs := by
  simp only [matchesAt_cons_iff, List.any_eq_true, List.mem_flatMap]
  constructor
  · rintro ⟨q, hq, hempty | ⟨q', hafter, hmatch⟩⟩
    · exact .inl ⟨q, hq, hempty⟩
    · exact .inr ⟨q', ⟨q, hq, hafter⟩, hmatch⟩
  · rintro (⟨q, hq, hempty⟩ | ⟨q', ⟨q, hq, hafter⟩, hmatch⟩)
    · exact ⟨q, hq, .inl hempty⟩
    · exact ⟨q, hq, .inr ⟨q', hafter, hmatch⟩⟩

theorem search_iff {r : List Piece} {before : List Char} {rests : List (List Piece)}
    {behind : List Char} :
    search r before.isEmpty rests behind = true ↔
      (∃ q ∈ rests, MatchesAt q before behind) ∨ FoundBehind r before behind := by
  induction behind generalizing before rests with
  | nil =>
    rw [search, List.any_cons, Bool.or_eq_true, List.any_eq_true, foundBehind_nil_iff]
    simp only [matchesAt_nil_iff, or_comm]
  | cons c cs ih =>
    -- no position behind a character is the beginning of the text
    have hstart : (before ++ [c]).isEmpty = false := by simp
    calc search r before.isEmpty rests (c :: cs) = true
      _ ↔ (r :: rests).any (matchesEmpty before.isEmpty false) = true ∨
            (∃ q ∈ (r :: rests).flatMap (after before.isEmpty c), MatchesAt q (before ++ [c]) cs) ∨
              FoundBehind r (before ++ [c]) cs := by
          rw [search, ← hstart, Bool.or_eq_true, ih]
          simp only [mem_distinct]
      _ ↔ (∃ q ∈ r :: rests, MatchesAt q before (c :: cs)) ∨ FoundBehind r (before ++ [c]) cs := by
          rw [exists_matchesAt_cons_iff, or_assoc]
      _ ↔ (∃ q ∈ rests, MatchesAt q before (c :: cs)) ∨ FoundBehind r before (c :: cs) := by
          rw [List.exists_mem_cons_iff, foundBehind_cons_iff, or_left_comm, or_assoc]

theorem hasMatch_iff {r : List Piece} {text : String} : hasMatch r text = true ↔ FoundIn r text := by
  -- the search sets out at the beginning of the text, and no match was begun earlier
  refine (@search_iff r [] [] text.toList).trans (or_iff_right ?_)
  rintro ⟨_, hq, -⟩
  exact List.not_mem_nil hq

end Regex

theorem RegexLibrary.compile_standard (r : List Regex.Piece) :
    standard.compile (Regex.text standard.escape r) = .ok (Regex.hasMatch r) := by
  have hread : Regex.read? (Regex.text standard.escape r) = some r := Regex.read?_text r
  simp only [standard] at hread ⊢
  rw [hread]

theorem RegexLibrary.standard_documented : standard.Documented where
  tooBig h := by
    rw [compile_standard] at h
    cases h
  found_iff h text := by
    rw [compile_standard] at h
    cases h
    exact Regex.hasMatch_iff

end RoleAudit
