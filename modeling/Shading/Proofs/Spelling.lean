import Shading.Proofs.Declarations

namespace Shading

/-!
# Spelling

How the items of a listing are written: always in one way of those that the grammar leaves open.

* `isIndex_repr`, `Address.isWritten_constant`, `Token.isWritten_number` and so on — the items;
* `commaChars`, `argumentChars` — items between commas;
* `Line.parse?_directive`, `Line.parse?_operation`, `Line.parse?_label` — whole lines;
* `IsBareLine`, `PlainText` — lines that are read to their end.
-/

/-! ### Items -/

theorem isIndex_repr {n : Nat} (hn : n < UInt32.size) : IsIndex n.repr.toList n where
  ne_nil := by
    rw [Nat.toList_repr]
    exact Nat.toDigits_ne_nil
  isDigits := by
    intro c hc
    rw [Nat.toList_repr] at hc
    exact Nat.isDigit_of_mem_toDigits (by decide) (by decide) hc
  value_eq := by
    rw [Nat.toList_repr]
    exact Nat.ofDigitChars_ten_toDigits
  lt := hn

namespace Operand

variable {n : Nat}

theorem isWritten_constant (hn : n < UInt32.size) :
    IsWritten (Address.constant n).text.toList (.constant n) := by
  have htext : (Address.constant n).text.toList = '#' :: n.repr.toList := by simp [Address.text]
  rw [htext]
  exact .constant (isIndex_repr hn)

theorem isWritten_temporary (hn : n < UInt32.size) :
    IsWritten (Address.temporary n).text.toList (.temporary n) := by
  have htext : (Address.temporary n).text.toList = '%' :: n.repr.toList := by simp [Address.text]
  rw [htext]
  exact .temporary (isIndex_repr hn)

theorem isWritten_symbolNamed {name : String} (hname : IsName name) :
    IsWritten ("@" ++ name).toList (.symbolNamed name) := by
  have htext : ("@" ++ name).toList = '@' :: name.toList := by simp
  rw [htext]
  exact .symbolNamed hname

end Operand

namespace Token

theorem isWritten_number {x : Float32} (hfinite : x.isFinite = true) :
    IsWritten (floatText x).toList (.number x) := by
  obtain ⟨numeral, hscan, rfl⟩ := scan_floatText hfinite .nil
  obtain ⟨written, hwritten, htext⟩ := Numeral.eq_of_scan hscan
  rw [List.append_nil, List.append_nil] at htext
  rw [htext]
  exact .number hwritten

theorem isWritten_quoted {text : String} (htext : IsQuotable text) :
    IsWritten ("\"" ++ text ++ "\"").toList (.quoted text) := by
  have hwhole : ("\"" ++ text ++ "\"").toList = '"' :: (text.toList ++ ['"']) := by simp
  rw [hwhole]
  exact .quoted htext.1

end Token

/-! ### Lists of items -/

section Lists

variable {α : Type} {written : List Char → α → Prop} {text more : List Char} {x : α} {xs : List α}

theorem isBlank_space : IsBlank [' '] := List.forall_mem_singleton.mpr rfl

/-- An item after one blank. -/
theorem MoreOf.blank (first : written text x) (rest : MoreOf written more xs) :
    MoreOf written (' ' :: (text ++ more)) (x :: xs) :=
  .cons (.blank (List.cons_ne_nil ' ' []) isBlank_space) first rest

/-- An item after a comma and a blank. -/
theorem MoreOf.comma (first : written text x) (rest : MoreOf written more xs) :
    MoreOf written (',' :: ' ' :: (text ++ more)) (x :: xs) :=
  .cons (.comma .nil isBlank_space) first rest

/-- Arguments of which the first stands after one blank. -/
theorem ArgumentsOf.blank (first : written text x) (rest : MoreOf written more xs) :
    ArgumentsOf written (' ' :: (text ++ more)) (x :: xs) :=
  .cons (List.cons_ne_nil ' ' []) isBlank_space first rest

/-- The characters of further items, each after a comma. -/
def commaChars (texts : List String) : List Char :=
  texts.flatMap fun text => ',' :: ' ' :: text.toList

/-- The characters of arguments with commas between them. -/
def argumentChars : List String → List Char
  | [] => []
  | texts => ' ' :: (String.intercalate ", " texts).toList

theorem toList_commaList (first : String) (rest : List String) :
    (String.intercalate ", " (first :: rest)).toList = first.toList ++ commaChars rest := by
  induction rest generalizing first with
  | nil => simp [commaChars]
  | cons second rest ih =>
    rw [String.intercalate_cons_cons, String.toList_append, String.toList_append, ih]
    simp [commaChars]

theorem argumentChars_cons (first : String) (rest : List String) :
    argumentChars (first :: rest) = ' ' :: (first.toList ++ commaChars rest) :=
  congrArg (List.cons ' ') (toList_commaList first rest)

theorem moreOf_commaChars {texts : List String}
    (h : List.Forall₂ (fun text x => written text.toList x) texts xs) :
    MoreOf written (commaChars texts) xs := by
  induction h with
  | nil => exact .nil
  | cons first _ ih => exact .comma first ih

theorem argumentsOf_argumentChars {texts : List String}
    (h : List.Forall₂ (fun text x => written text.toList x) texts xs) :
    ArgumentsOf written (argumentChars texts) xs := by
  cases h with
  | nil => exact .nil
  | cons hfirst hrest =>
    rw [argumentChars_cons]
    exact .blank hfirst (moreOf_commaChars hrest)

end Lists

/-! ### Lines -/

namespace Line

/-- A statement that begins its line, or stands after some blanks. -/
theorem parse?_said {blank text : List Char} {statement : Statement} (hblank : IsBlank blank)
    (h : statement.IsWritten text) : parse? (blank ++ text) = some ⟨none, some statement⟩ := by
  have hlayout := IsLayout.mk hblank .none (.some h) .nil
  rw [List.nil_append, List.append_nil] at hlayout
  exact parse?_of_isLayout hlayout

theorem parse?_directive {name : String} {text : List Char} {tokens : List Token}
    (hname : IsName name) (harguments : ArgumentsOf Token.IsWritten text tokens) :
    parse? ('.' :: (name.toList ++ text)) = some ⟨none, some (.directive name tokens)⟩ :=
  parse?_said .nil (.directive hname harguments)

theorem parse?_label {name : String} (hname : IsName name) :
    parse? (name.toList ++ [':']) = some ⟨some name, none⟩ := by
  have hlayout := IsLayout.mk .nil (.some hname .nil .nil) .none .nil
  rw [List.nil_append, List.nil_append, List.append_nil, List.append_nil] at hlayout
  exact parse?_of_isLayout hlayout

theorem parse?_operation {mnemonic : String} {key : Option String} {text : List Char}
    {operands : List Operand} (hmnemonic : IsName mnemonic) (hkey : IsKeyText key)
    (harguments : ArgumentsOf Operand.IsWritten text operands) :
    parse? (' ' :: ' ' :: (mnemonic.toList ++ (keyChars key ++ text)))
      = some ⟨none, some (.operation mnemonic key operands)⟩ := by
  have hread := parse?_said (isBlank_space.append isBlank_space)
    (.operation hmnemonic hkey harguments)
  exact hread

end Line

/-! ### Comments and line ends -/

/-- Text without quotes and semicolons is kept. -/
theorem beforeComment_append {text rest : List Char} (hquote : '"' ∉ text) (hcomment : ';' ∉ text) :
    beforeComment (text ++ rest) = text ++ beforeComment rest := by
  unfold beforeComment
  induction text with
  | nil => rfl
  | cons c text ih =>
    rw [List.mem_cons, not_or] at hquote hcomment
    have hc : ¬ (c = ';' ∧ false = false) := fun h => hcomment.1 h.1.symm
    have hstate : (if c = '"' then !false else false) = false := if_neg (Ne.symm hquote.1)
    rw [List.cons_append, beforeCommentFrom, if_neg hc, hstate, ih hquote.2 hcomment.2,
      List.cons_append]

theorem beforeComment_eq {text : List Char} (hquote : '"' ∉ text) (hcomment : ';' ∉ text) :
    beforeComment text = text := by
  have h : beforeComment (text ++ []) = text ++ beforeComment [] :=
    beforeComment_append hquote hcomment
  rwa [List.append_nil, show beforeComment [] = [] from rfl, List.append_nil] at h

/-- Between quotes a semicolon begins no comment. -/
theorem beforeComment_quoted {text : List Char} (hquote : '"' ∉ text) :
    beforeComment ('"' :: (text ++ ['"'])) = '"' :: (text ++ ['"']) := by
  show '"' :: beforeCommentFrom true (text ++ ['"']) = _
  rw [beforeCommentFrom_string hquote]
  rfl

/-- A line that has no line feed and does not end in a carriage return. -/
structure IsLine (text : List Char) : Prop where
  not_mem : '\n' ∉ text
  getLast_ne : ∀ c ∈ text.getLast?, c ≠ '\r'

theorem splitLines_line {text rest : List Char} (h : IsLine text) :
    splitLines (text ++ '\n' :: rest) = text :: splitLines rest := by
  induction text with
  | nil => rfl
  | cons c text ih =>
    have hnot := h.not_mem
    rw [List.mem_cons, not_or] at hnot
    have htail : IsLine text := by
      refine ⟨hnot.2, fun d hd => h.getLast_ne d ?_⟩
      cases text with
      | nil => cases hd
      | cons => rwa [List.getLast?_cons_cons]
    rw [List.cons_append, splitLines.eq_def]
    split
    next heq => cases heq
    next heq => exact absurd (List.cons.inj heq).1.symm hnot.1
    next heq =>
      -- a carriage return before the line feed would have to be the last character
      obtain ⟨rfl, hrest⟩ := List.cons.inj heq
      cases text with
      | nil => exact absurd rfl (h.getLast_ne '\r' rfl)
      | cons d text =>
        obtain ⟨rfl, -⟩ := List.cons.inj hrest
        exact absurd List.mem_cons_self hnot.2
    next heq =>
      obtain ⟨rfl, rfl⟩ := List.cons.inj heq
      rw [ih htail]

theorem splitLines_lines {lines : List (List Char)} (h : ∀ line ∈ lines, IsLine line) :
    splitLines (lines.flatMap (· ++ ['\n'])) = lines := by
  induction lines with
  | nil => rfl
  | cons line lines ih =>
    rw [List.forall_mem_cons] at h
    rw [List.flatMap_cons, List.append_assoc, List.singleton_append, splitLines_line h.1, ih h.2]

/-- A line that holds no comment. -/
structure IsBareLine (text : List Char) : Prop extends IsLine text where
  beforeComment_eq : beforeComment text = text

/-! ### Plain text -/

/-- A character that neither quotes, nor begins a comment, nor ends a line. -/
def isPlain (c : Char) : Bool := c != '"' && c != ';' && c != '\n' && c != '\r'

def PlainText (text : List Char) : Prop := ∀ c ∈ text, isPlain c = true

namespace PlainText

variable {text text' : List Char}

theorem cons {c : Char} (hc : isPlain c = true) (h : PlainText text) : PlainText (c :: text) :=
  List.forall_mem_cons.mpr ⟨hc, h⟩

theorem append (h : PlainText text) (h' : PlainText text') : PlainText (text ++ text') :=
  List.forall_mem_append.mpr ⟨h, h'⟩

theorem not_mem (h : PlainText text) {c : Char} (hc : isPlain c = false) : c ∉ text := by
  intro hmem
  rw [h c hmem] at hc
  cases hc

/-- Plain text is all read. -/
theorem isBareLine (h : PlainText text) : IsBareLine text where
  not_mem := h.not_mem rfl
  getLast_ne := by
    rintro c hc rfl
    exact h.not_mem rfl (List.mem_of_getLast? hc)
  beforeComment_eq := Shading.beforeComment_eq (h.not_mem rfl) (h.not_mem rfl)

/-- Plain text with a quoted text after it. -/
theorem isBareLine_quoted (h : PlainText text) {quoted : String} (hquoted : IsQuotable quoted) :
    IsBareLine (text ++ ("\"" ++ quoted ++ "\"").toList) := by
  have hchars : ("\"" ++ quoted ++ "\"").toList = '"' :: (quoted.toList ++ ['"']) := by simp
  rw [hchars]
  refine ⟨⟨?_, ?_⟩, ?_⟩
  · have hmem : '\n' ∉ text := h.not_mem rfl
    simp [hmem, hquoted.2]
  · rw [← List.cons_append, ← List.append_assoc, List.getLast?_concat]
    rintro c ⟨rfl⟩
    decide
  · rw [beforeComment_append (h.not_mem rfl) (h.not_mem rfl), beforeComment_quoted hquoted.1]

end PlainText

theorem plainText_commaList {texts : List String} (h : ∀ text ∈ texts, PlainText text.toList) :
    PlainText (String.intercalate ", " texts).toList := by
  cases texts with
  | nil => simp [PlainText]
  | cons first rest =>
    obtain ⟨hfirst, hrest⟩ := List.forall_mem_cons.mp h
    rw [toList_commaList]
    refine hfirst.append fun c hc => ?_
    obtain ⟨text, htext, hc⟩ := List.mem_flatMap.mp hc
    simp only [List.mem_cons] at hc
    obtain rfl | rfl | hc := hc
    · rfl
    · rfl
    · exact hrest text htext c hc

theorem plainText_argumentChars {texts : List String} (h : ∀ text ∈ texts, PlainText text.toList) :
    PlainText (argumentChars texts) := by
  unfold argumentChars
  split
  next => simp [PlainText]
  next => exact (plainText_commaList h).cons rfl

theorem isPlain_of_isNamePart {c : Char} (h : isNamePart c = true) : isPlain c = true := by
  unfold isPlain
  simp only [Bool.and_eq_true, bne_iff_ne]
  refine ⟨⟨⟨?_, ?_⟩, ?_⟩, ?_⟩ <;>
  · rintro rfl
    cases h

theorem IsName.plainText {name : String} (h : IsName name) : PlainText name.toList := by
  obtain ⟨c, rest, htext, hstart, hrest⟩ := h
  rw [htext]
  exact List.forall_mem_cons.mpr ⟨isPlain_of_isNamePart (isNamePart_of_isNameStart hstart),
    fun d hd => isPlain_of_isNamePart (hrest d hd)⟩

theorem plainText_keyChars {key : Option String} (h : IsKeyText key) : PlainText (keyChars key) := by
  cases key with
  | none => simp [PlainText, keyChars]
  | some text =>
    refine PlainText.cons rfl fun c hc => isPlain_of_isNamePart ?_
    simp [isNamePart, (h text rfl).2 c hc]

theorem isPlain_of_isDigit {c : Char} (h : c.isDigit = true) : isPlain c = true := by
  refine isPlain_of_isNamePart ?_
  simp [isNamePart, Char.isAlphanum, h]

/-- Nothing in an operand begins a comment. -/
theorem Operand.IsWritten.plainText {text : List Char} {operand : Operand}
    (h : IsWritten text operand) : PlainText text := by
  have hdigits : ∀ {digits : List Char} {i : Nat}, IsIndex digits i → PlainText digits :=
    fun h c hc => isPlain_of_isDigit (h.isDigits c hc)
  cases h with
  | constant h => exact (hdigits h).cons rfl
  | temporary h => exact (hdigits h).cons rfl
  | symbol h => exact (hdigits h).cons rfl
  | symbolNamed h => exact h.plainText.cons rfl
  | word h => exact h.plainText

theorem plainText_positionalChars (x : Decimal) : PlainText (x.positionalChars false) := by
  have hdigits : PlainText (Nat.toDigits 10 x.digits) := fun c hc =>
    isPlain_of_isDigit (Nat.isDigit_of_mem_toDigits (by decide) (by decide) hc)
  have hzeros : ∀ n, PlainText (List.replicate n '0') := by
    intro n c hc
    rw [(List.mem_replicate.mp hc).2]
    rfl
  have hpoint : PlainText ['.'] := by simp [PlainText, isPlain]
  unfold Decimal.positionalChars
  dsimp only
  split
  next => exact (hdigits.append (hzeros _)).append (by simp [PlainText])
  next =>
    split
    next =>
      refine PlainText.append (fun c hc => hdigits c (List.mem_of_mem_take hc)) ?_
      exact hpoint.append fun c hc => hdigits c (List.mem_of_mem_drop hc)
    next => exact (hzeros 1).append (hpoint.append ((hzeros _).append hdigits))

theorem plainText_floatText {x : Float32} (h : x.isFinite = true) :
    PlainText (floatText x).toList := by
  rw [toList_floatText (Binary32.magnitude_lt_infinity h)]
  refine PlainText.append ?_ (plainText_positionalChars _)
  split <;> simp [PlainText, isPlain]

end Shading
