import Shading.Fault
import Shading.Text.Emoji
import Shading.Text.Ligature
import Shading.Text.Wide

namespace Shading

/-!
# Columns of text

How many columns a line of text takes on a terminal.  Most characters take theirs one by one, but
the parts of a ligature or of an emoji take the columns of one glyph, and a selector after a
character can change its width.  What a colour sequence shows, from the bracket after an escape
character to the next `m`, takes no columns.

* `Tail`, `Tail.prepend` — a text as the character in front of it sees it.
* `glyphColumns` — the columns of a text that has no colour sequences.
* `hiddenColumns` — the columns that colour sequences take away.
* `columns` — the columns of a text.
-/

/-- What a selector asks the character before it to be drawn as. -/
inductive GlyphStyle
  | text
  | emoji
  deriving DecidableEq, Repr

/-- What a text begins with, as far as it matters to the character in front of it. -/
inductive Tail
  | plain
  /-- A selector of the style. -/
  | selector (style : GlyphStyle)
  /-- The last part of a ligature, perhaps with a selector in front of it. -/
  | ligature (part : Ligature) (style : Option GlyphStyle)
  /-- The end of an emoji. -/
  | emoji (part : EmojiEnd)
  /-- A selector for an emoji that a joiner ties to the next one. -/
  | styledJoiner
  deriving DecidableEq, Repr

namespace Tail

/-- The style that a character selects. -/
def styleOf? (c : Char) : Option GlyphStyle :=
  if c = '\ufe0e' then some .text else if c = '\ufe0f' then some .emoji else none

/-- A text that begins with `c` and goes on with nothing that `c` is drawn together with. -/
def ofChar (c : Char) : Tail :=
  match styleOf? c, Ligature.ofChar? c, EmojiEnd.ofChar? c with
  | some style, _, _ => .selector style
  | none, some part, _ => .ligature part none
  | none, none, some part => .emoji part
  | none, none, none => .plain

/-- The columns of a character that is drawn by itself, and the text that it begins. -/
def alone (c : Char) : Int × Tail := (charColumns c, ofChar c)

/-- A character in front of the last part of a ligature. -/
def prependLigature (part : Ligature) (style : Option GlyphStyle) (c : Char) : Int × Tail :=
  if style = some .emoji && takesEmojiStyle c then (2, .emoji .emoji)
  else if style = some .text && takesTextStyle c then (1, .plain)
  else match styleOf? c with
    | some style => (0, .ligature part (some style))
    | none =>
      match part.take? c, part.pass? c with
      | some (columns, some part), _ => (columns, .ligature part none)
      | some (columns, none), _ => (columns, .plain)
      | none, some part => (0, .ligature part none)
      | none, none => alone c

/-- A character in front of the end of an emoji. -/
def prependEmoji (part : EmojiEnd) (c : Char) : Int × Tail :=
  match styleOf? c, part.take? c with
  | some .emoji, _ =>
    (0, if part = .joiner || part = .keycap then .styledJoiner else .selector .emoji)
  | some .text, _ => (0, .selector .text)
  | none, some (columns, part) => (columns, .emoji part)
  | none, none => alone c

/-- The columns that a character adds to the text it stands in front of, and the text that the two
    make. -/
def prepend (c : Char) : Tail → Int × Tail
  | .plain => alone c
  | .selector .emoji => if takesEmojiStyle c then (2, .emoji .emoji) else alone c
  | .selector .text => if takesTextStyle c then (1, .plain) else alone c
  | .ligature part style => prependLigature part style c
  | .emoji part => prependEmoji part c
  | .styledJoiner => if takesEmojiStyle c then (0, .emoji .emoji) else alone c

end Tail

/-- The columns of a text, and what it begins with. -/
def measureText (text : List Char) : Int × Tail :=
  text.foldr (fun c (columns, tail) =>
    let (more, tail) := tail.prepend c
    (columns + more, tail)) (0, .plain)

/-- The columns of a text, escape and other control characters taking one each. -/
def glyphColumns (text : List Char) : Nat := (measureText text).1.toNat

/-- Where a text stands with respect to colour sequences. -/
inductive ColourScan
  | outside
  /-- Behind an escape character. -/
  | escape
  | inside
  deriving DecidableEq, Repr

/-- The columns that colour sequences take away: one for each of their characters behind the escape
    that takes any. -/
def hiddenColumns : ColourScan → List Char → Nat
  | _, [] => 0
  | .outside, c :: rest => hiddenColumns (if c = '\x1b' then .escape else .outside) rest
  | .escape, c :: rest =>
    if c = '[' then 1 + hiddenColumns .inside rest else hiddenColumns .outside rest
  | .inside, c :: rest =>
    let hidden := if isControl c || charColumns c = 0 then 0 else 1
    hidden + hiddenColumns (if c = 'm' then .outside else .inside) rest

/-- How many columns a line takes.  A colour sequence must not take away more than there are, as one
    can in which several characters are drawn as a single glyph. -/
def columns (line : List Char) : Except Fault Nat :=
  let hidden := hiddenColumns .outside line
  let shown := glyphColumns line
  if hidden ≤ shown then .ok (shown - hidden) else .error .overhidden

end Shading
