import RoleAudit.Text.CodeRanges

/-!
# Letters that merge

In some scripts two letters take one shape, which is no wider than one of them. A ligature is found
from its last letter on: that letter waits for what stands before it.
-/

namespace RoleAudit.Text

/-- A last letter that waits for the rest of its ligature. Where a joiner has to stand before it,
`joined` says that it does. -/
inductive Ligature where
  /-- Arabic alef, after lam. -/
  | alef
  /-- Hebrew lamed, after alef and a joiner. -/
  | lamed (joined : Bool)
  /-- A Khmer letter that goes below the line, after the sign that puts it there. -/
  | subscript
  /-- Buginese ya, after a vowel sign and a joiner. -/
  | ya (joined : Bool)
  /-- Buginese ya with the vowel sign, after the letter a. -/
  | vowelYa
  /-- A Tifinagh consonant, after another with a joiner. -/
  | consonant (joined : Bool)
  /-- A Tifinagh consonant with the joiner of its script, after another. -/
  | joinedConsonant
  /-- A Lisu tone, after another. -/
  | tone
  /-- Old Turkic i, after a letter and a joiner. -/
  | orkhonI (joined : Bool)
  /-- Kirat Rai e, after another vowel sign. -/
  | vowelE
  /-- Kirat Rai ai, after another vowel sign. -/
  | vowelAi
  deriving DecidableEq, Repr

/-- The forms of Arabic alef. -/
def alefRanges : CodeRanges :=
  [(0x622, 0x623), (0x625, 0x625), (0x627, 0x627), (0x671, 0x673), (0x675, 0x675), (0x773, 0x774),
    (0x870, 0x882)]

/-- The forms of Arabic lam. -/
def lamRanges : CodeRanges :=
  [(0x644, 0x644), (0x6B5, 0x6B8), (0x76A, 0x76A), (0x8A6, 0x8A6), (0x8C7, 0x8C7)]

/-- The Khmer letters that take no column below the line. -/
def subscriptRanges : CodeRanges :=
  [(0x1780, 0x1782), (0x1784, 0x1787), (0x1789, 0x178C), (0x178E, 0x1793), (0x1795, 0x1798),
    (0x179B, 0x179D), (0x17A0, 0x17A0), (0x17A2, 0x17A2), (0x17A7, 0x17A7), (0x17AB, 0x17AC),
    (0x17AF, 0x17AF)]

/-- The Tifinagh consonants. -/
def tifinaghRanges : CodeRanges := [(0x2D31, 0x2D65), (0x2D6F, 0x2D6F)]

/-- Marks that are never shown and do not part a ligature. -/
def hiddenMarkRanges : CodeRanges :=
  [(0x34F, 0x34F), (0x17B4, 0x17B5), (0x180B, 0x180D), (0x180F, 0x180F), (0xFE00, 0xFE0F),
    (0xE0100, 0xE01EF)]

namespace Ligature

/-- The ligature that a last letter may belong to. -/
def ofLast? (c : Char) : Option Ligature :=
  match c.toNat with
  | 0x5DC => some (lamed false)
  | 0x1A10 => some (ya false)
  | 0xA4FC => some tone
  | 0xA4FD => some tone
  | 0x10C03 => some (orkhonI false)
  | 0x16D67 => some vowelE
  | 0x16D68 => some vowelAi
  | _ =>
    if alefRanges.contains c then some alef
    else if subscriptRanges.contains c then some subscript
    else if tifinaghRanges.contains c then some (consonant false)
    else none

/-- The ligature with a joiner before it. -/
def join : Ligature → Ligature
  | lamed _ => lamed true
  | ya _ => ya true
  | consonant _ => consonant true
  | orkhonI _ => orkhonI true
  | other => other

/-- The columns that a letter before a waiting ligature adds, and the ligature that waits on; `none`
where the letter is no part of it. A letter that merges adds nothing; one that takes a column back
from what merges with it adds less than nothing. -/
def extend? (l : Ligature) (c : Char) : Option (Int × Option Ligature) :=
  match l, c.toNat with
  | lamed true, 0x5D0 => some (0, none)
  | subscript, 0x17D2 => some (-1, none)
  | ya true, 0x1A17 => some (0, some vowelYa)
  | vowelYa, 0x1A15 => some (0, none)
  | consonant _, 0x2D7F => some (1, some joinedConsonant)
  | orkhonI true, 0x10C32 => some (0, none)
  | vowelE, 0x16D67 => some (0, some vowelAi)
  | vowelE, 0x16D63 => some (0, none)
  | vowelE, 0x16D69 => some (0, none)
  | vowelAi, 0x16D63 => some (0, none)
  | tone, n => if 0xA4F8 ≤ n && n ≤ 0xA4FB then some (0, none) else none
  | alef, _ => if lamRanges.contains c then some (0, none) else none
  | consonant true, _ => if tifinaghRanges.contains c then some (0, none) else none
  | joinedConsonant, _ => if tifinaghRanges.contains c then some (-1, none) else none
  | _, _ => none

end Ligature

end RoleAudit.Text
