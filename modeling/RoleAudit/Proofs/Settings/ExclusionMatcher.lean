import RoleAudit.Proofs.Error
import RoleAudit.Proofs.Settings.Glob

/-!
# What is left out by globs

Globs are compiled one by one. There is a matcher exactly if all of them compile, and it leaves out the
names that one of them matches. So much holds with any library of regular expressions. With one that does
what is documented, these are the names that can be cut as one of the globs says.
-/

namespace RoleAudit.ExclusionMatcher

open Glob

variable {regexes : RegexLibrary} {globs : List String} {m : ExclusionMatcher}

theorem ofGlobs_eq_ok_iff :
    ofGlobs regexes globs = .ok m ↔ globs.mapM (compile regexes) = .ok m.patterns := by
  rw [ofGlobs, Error.bind_eq_ok_iff]
  constructor
  · rintro ⟨_, htests, hm⟩
    cases hm
    exact htests
  · intro htests
    exact ⟨m.patterns, htests, rfl⟩

theorem exists_ofGlobs_iff :
    (∃ m, ofGlobs regexes globs = .ok m) ↔
      ∀ glob ∈ globs, ∃ test, compile regexes glob = .ok test := by
  rw [← Error.exists_mapM_iff]
  constructor
  · rintro ⟨m, hm⟩
    exact ⟨m.patterns, ofGlobs_eq_ok_iff.1 hm⟩
  · rintro ⟨tests, htests⟩
    exact ⟨{ patterns := tests }, ofGlobs_eq_ok_iff.2 htests⟩

theorem exists_of_ofGlobs_eq_error {e : Error} (h : ofGlobs regexes globs = .error e) :
    ∃ glob ∈ globs, compile regexes glob = .error e := by
  rcases Error.bind_eq_error_iff.1 h with hmap | ⟨tests, -, hdone⟩
  · exact Error.exists_of_mapM_eq_error hmap
  · cases hdone

/-- A name is left out exactly if one of the globs matches it. -/
theorem isExcluded_iff (h : ofGlobs regexes globs = .ok m) {name : String} :
    m.isExcluded name = true ↔
      ∃ glob ∈ globs, ∃ test, compile regexes glob = .ok test ∧ test name = true := by
  rw [isExcluded, List.any_eq_true]
  simp only [Error.mem_mapM_iff (ofGlobs_eq_ok_iff.1 h)]
  constructor
  · rintro ⟨test, ⟨glob, hglob, htest⟩, hname⟩
    exact ⟨glob, hglob, test, htest, hname⟩
  · rintro ⟨glob, hglob, test, htest, hname⟩
    exact ⟨test, ⟨glob, hglob, htest⟩, hname⟩

/-- Take a library of regular expressions that does what is documented. Globs can be refused only because
an expression is too big, and the error names the glob. Every glob has one reading, and once the globs
compile, a name is left out exactly if it can be cut into parts that the pieces of the reading of some glob
take in order: a plain character itself, `?` one character that is no dot, `*` any characters without a
dot, and `**` any characters without a line break. -/
theorem isExcluded_iff_cut (hlib : regexes.Documented) (globs : List String) :
    (∀ e, ofGlobs regexes globs = .error e →
      ∃ glob ∈ globs, ∃ limit, e = .invalidPattern glob (.tooBig limit)) ∧
    (∀ glob ∈ globs, ∃! ts, Reads ts glob.toList) ∧
    ∀ m, ofGlobs regexes globs = .ok m → ∀ name,
      (m.isExcluded name = true ↔
        ∃ glob ∈ globs, ∃ ts, Reads ts glob.toList ∧
          ∃ parts : List (List Char), parts.flatten = name.toList ∧
            List.Forall₂ Token.Takes ts parts) := by
  refine ⟨fun e he => ?_, fun glob _ => ?_, fun m hm name => ?_⟩
  · obtain ⟨glob, hglob, hcompile⟩ := exists_of_ofGlobs_eq_error he
    exact ⟨glob, hglob, tooBig_of_compile_eq_error hlib hcompile⟩
  · exact ⟨tokens glob.toList, reads_tokens _, fun ts hts => reads_iff.1 hts⟩
  · rw [isExcluded_iff hm]
    refine exists_congr fun glob => and_congr_right fun hglob => ?_
    constructor
    · rintro ⟨test, htest, hname⟩
      exact ⟨tokens glob.toList, reads_tokens _, (test_iff_covers hlib htest name).1 hname⟩
    · rintro ⟨ts, hreads, hcovers⟩
      obtain ⟨test, htest⟩ := exists_ofGlobs_iff.1 ⟨m, hm⟩ glob hglob
      rw [reads_iff.1 hreads] at hcovers
      exact ⟨test, htest, (test_iff_covers hlib htest name).2 hcovers⟩

/-- A star takes the characters up to the next dot, dots and dollars stand for themselves, and what one of
two globs matches is left out. -/
theorem dollar_names_are_left_out :
    RegexLibrary.standard.Documented ∧
    ∃ m, ofGlobs .standard ["a*.$?", "tmp.**"] = .ok m ∧
      m.isExcluded "abc.$x" = true ∧ m.isExcluded "tmp.old.Order" = true ∧
      m.isExcluded "abcd$x" = false ∧
      List.Forall₂ Token.Takes (tokens "a*.$?".toList) [['a'], ['b', 'c'], ['.'], ['$'], ['x']] := by
  have hm : ofGlobs .standard ["a*.$?", "tmp.**"] = .ok { patterns :=
      [Regex.hasMatch (expression "a*.$?"), Regex.hasMatch (expression "tmp.**")] } := rfl
  obtain ⟨-, -, hcut⟩ := isExcluded_iff_cut RegexLibrary.standard_documented ["a*.$?", "tmp.**"]
  have hparts : List.Forall₂ Token.Takes (tokens "a*.$?".toList)
      [['a'], ['b', 'c'], ['.'], ['$'], ['x']] := by
    simp [tokens, Token.Takes]
  refine ⟨RegexLibrary.standard_documented, _, hm, ?_, ?_, ?_, hparts⟩
  · exact (hcut _ hm _).2 ⟨"a*.$?", by simp, _, reads_tokens _, _, rfl, hparts⟩
  · decide +kernel
  · decide +kernel

end RoleAudit.ExclusionMatcher
