import Shading.Text.Invisible

namespace Shading

/-!
# Ligatures

Letters that are drawn as one and take the columns of one.  A text is read from its end: `Ligature`
is the last part of such a group, whose first part is still to come, and `Ligature.take?` puts a
letter in front of it.
-/

inductive Ligature
  /-- An Arabic alef, which joins a lam. -/
  | alef
  /-- A Hebrew lamed; tied to an alef they are one. -/
  | lamed (tied : Bool)
  /-- A Khmer letter that a coeng puts below the letter before it. -/
  | subscript
  /-- A Buginese ya; tied to the vowel sign i. -/
  | ya (tied : Bool)
  /-- The vowel sign i tied to a ya, which join the letter a. -/
  | vowelYa
  /-- A Tifinagh consonant. -/
  | tifinagh (tied : Bool)
  /-- A Tifinagh consonant with the sign for joining in front of it. -/
  | joinedTifinagh
  /-- The second of two Lisu tone letters. -/
  | tone
  /-- An Old Turkic i; tied to the letter ec. -/
  | orkhonI (tied : Bool)
  deriving DecidableEq, Repr

namespace Ligature

def alefRanges : CodePoints :=
  [(0x622, 0x623), (0x625, 0x625), (0x627, 0x627), (0x671, 0x673), (0x675, 0x675), (0x773, 0x774),
   (0x870, 0x882)]

def lamRanges : CodePoints :=
  [(0x644, 0x644), (0x6b5, 0x6b8), (0x76a, 0x76a), (0x8a6, 0x8a6), (0x8c7, 0x8c7)]

/-- The Khmer letters whose form below another letter takes no column. -/
def subscriptRanges : CodePoints :=
  [(0x1780, 0x1782), (0x1784, 0x1787), (0x1789, 0x178c), (0x178e, 0x1793), (0x1795, 0x1798),
   (0x179b, 0x179d), (0x17a0, 0x17a0), (0x17a2, 0x17a2), (0x17a7, 0x17a7), (0x17ab, 0x17ac),
   (0x17af, 0x17af)]

def tifinaghRanges : CodePoints :=
  [(0x2d31, 0x2d65), (0x2d6f, 0x2d6f)]

/-- Marks that can stand anywhere in a ligature and are not drawn: selectors of a letter's form. -/
def markRanges : CodePoints :=
  [(0x34f, 0x34f), (0x17b4, 0x17b5), (0x180b, 0x180d), (0x180f, 0x180f), (0xfe00, 0xfe0f),
   (0xe0100, 0xe01ef)]

/-- The ligature that a letter can be the last part of. -/
def ofChar? (c : Char) : Option Ligature :=
  if c.toNat < 0x5dc then none
  else if c = '\u05dc' then some (.lamed false)
  else if alefRanges.contains c then some .alef
  else if subscriptRanges.contains c then some .subscript
  else if c = '\u1a10' then some (.ya false)
  else if tifinaghRanges.contains c then some (.tifinagh false)
  else if c = '\ua4fc' || c = '\ua4fd' then some .tone
  else if c.toNat = 0x10c03 then some (.orkhonI false)
  else none

/-- The ligature after a joiner in front of it. -/
def tie : Ligature → Ligature
  | .lamed _ => .lamed true
  | .ya _ => .ya true
  | .tifinagh _ => .tifinagh true
  | .orkhonI _ => .orkhonI true
  | other => other

/-- The ligature after a mark in front of it that does not end it.  In Arabic this is any invisible
    character across which letters join, elsewhere a joiner or a selector of a letter's form. -/
def pass? (ligature : Ligature) (c : Char) : Option Ligature :=
  match ligature with
  | .alef => if isJoinTransparent c then some .alef else none
  | other =>
    if c = zeroWidthJoiner then some other.tie
    else if markRanges.contains c then some other
    else none

/-- The columns that a letter adds in front of the last part of a ligature, with what is still to
    come; nothing if they are not drawn as one. -/
def take? : Ligature → Char → Option (Int × Option Ligature)
  | .alef, c => if lamRanges.contains c then some (0, none) else none
  | .lamed tied, c => if tied && c = '\u05d0' then some (0, none) else none
  | .subscript, c => if c = '\u17d2' then some (-1, none) else none
  | .ya tied, c => if tied && c = '\u1a17' then some (0, some .vowelYa) else none
  | .vowelYa, c => if c = '\u1a15' then some (0, none) else none
  | .tifinagh tied, c =>
    if c = '\u2d7f' then some (1, some .joinedTifinagh)
    else if tied && tifinaghRanges.contains c then some (0, none)
    else none
  | .joinedTifinagh, c => if tifinaghRanges.contains c then some (-1, none) else none
  | .tone, c => if 0xa4f8 ≤ c.toNat && c.toNat ≤ 0xa4fb then some (0, none) else none
  | .orkhonI tied, c => if tied && c.toNat = 0x10c32 then some (0, none) else none

end Ligature

end Shading
