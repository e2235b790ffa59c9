import Shading.Assembly.Line
import Shading.Proofs.Floats

namespace Shading

/-!
# The grammar of items

What an item of a line may look like, told apart from how it is read: which characters make up an
index, a numeral, an operand or a token.  Each reader is held against it both ways: what it reads is
written so (`eq_of_…`), and what is written so is read, wherever the item may end (`…_append`).

* `IsName`, `IsIndex`, `Numeral.IsWritten`, `Operand.IsWritten`, `Token.IsWritten` — the items of a line;
* `Spells` — a text that a reader reads as an item, whatever separator follows;
* `Operand.eq_of_scan`, `Operand.IsWritten.spells`, and the same for tokens — the two directions.
-/

/-! ### Blanks -/

/-- Spaces and tabs. -/
def IsBlank (text : List Char) : Prop := ∀ c ∈ text, isSpace c = true

section Blanks

variable {blank text rest : List Char}

theorem IsBlank.nil : IsBlank [] := fun _ h => absurd h List.not_mem_nil

theorem IsBlank.append (h : IsBlank blank) (h' : IsBlank rest) : IsBlank (blank ++ rest) :=
  List.forall_mem_append.mpr ⟨h, h'⟩

theorem skipSpace_eq_nil : skipSpace text = [] ↔ IsBlank text :=
  List.dropWhile_eq_nil_iff

theorem exists_blank (text : List Char) : ∃ blank, IsBlank blank ∧ text = blank ++ skipSpace text :=
  ⟨text.takeWhile isSpace, List.all_eq_true.mp List.all_takeWhile,
    List.takeWhile_append_dropWhile.symm⟩

theorem exists_blank_cons {c : Char} (hc : isSpace c = true) (text : List Char) :
    ∃ blank, blank ≠ [] ∧ IsBlank blank ∧ c :: text = blank ++ skipSpace (c :: text) := by
  obtain ⟨blank, hblank, htext⟩ := exists_blank text
  refine ⟨c :: blank, List.cons_ne_nil c blank, List.forall_mem_cons.mpr ⟨hc, hblank⟩, ?_⟩
  rw [skipSpace, List.dropWhile_cons_of_pos hc, List.cons_append]
  exact congrArg (List.cons c) htext

theorem IsBlank.skipSpace_append (h : IsBlank blank) (rest : List Char) :
    skipSpace (blank ++ rest) = skipSpace rest :=
  List.dropWhile_append_of_pos h

/-- The characters that can begin an item: neither blank nor punctuation. -/
def startsItem (c : Char) : Bool := !(isSpace c || c == ',' || c == ':')

/-- The text begins with a character that can begin an item. -/
def BeginsItem (text : List Char) : Prop := ∃ c tail, text = c :: tail ∧ startsItem c = true

namespace BeginsItem

theorem append (h : BeginsItem text) (rest : List Char) : BeginsItem (text ++ rest) := by
  obtain ⟨c, tail, rfl, hc⟩ := h
  exact ⟨c, tail ++ rest, rfl, hc⟩

theorem skipSpace_eq (h : BeginsItem text) : skipSpace text = text := by
  obtain ⟨c, tail, rfl, hc⟩ := h
  have hspace : isSpace c = false := by
    unfold startsItem at hc
    grind
  simp [skipSpace, hspace]

theorem head_ne (h : BeginsItem text) {d : Char} (hd : startsItem d = false) :
    ∀ c ∈ text.head?, c ≠ d := by
  obtain ⟨c, tail, rfl, hc⟩ := h
  rintro _ ⟨⟩ rfl
  rw [hc] at hd
  cases hd

end BeginsItem

theorem IsBlank.endsItem (h : IsBlank blank) : EndsItem blank := by
  cases blank with
  | nil => exact .nil
  | cons c blank =>
    have hc := h c List.mem_cons_self
    simp only [isSpace, Bool.or_eq_true, beq_iff_eq] at hc
    obtain rfl | rfl := hc
    · exact .space _
    · exact .tab _

theorem EndsItem.append (h : EndsItem text) (h' : EndsItem rest) : EndsItem (text ++ rest) := by
  cases h with
  | nil => exact h'
  | space => exact .space _
  | tab => exact .tab _
  | comma => exact .comma _

end Blanks

/-! ### Names and indices -/

/-- A name of the grammar: a letter or an underscore, then more of these and digits. -/
def IsName (text : String) : Prop :=
  ∃ c rest, text.toList = c :: rest ∧ isNameStart c = true ∧ ∀ d ∈ rest, isNamePart d = true

section Names

variable {text digits rest : List Char} {name : String} {i : Nat}

theorem isNamePart_of_isNameStart {c : Char} (h : isNameStart c = true) : isNamePart c = true := by
  unfold isNameStart at h
  unfold isNamePart Char.isAlphanum
  grind

/-- A letter is no digit. -/
theorem not_isDigit_of_isNameStart {c : Char} (h : isNameStart c = true) : c.isDigit = false := by
  rw [Bool.eq_false_iff]
  intro hdigit
  simp only [isNameStart, Char.isAlpha, Char.isUpper, Char.isLower, Bool.or_eq_true,
    Bool.and_eq_true, decide_eq_true_eq, beq_iff_eq, UInt32.le_iff_toNat_le] at h
  simp only [Char.isDigit, Bool.and_eq_true, decide_eq_true_eq, UInt32.le_iff_toNat_le] at hdigit
  obtain (h | h) | rfl := h
  · simp at h hdigit
    omega
  · simp at h hdigit
    omega
  · revert hdigit
    decide

theorem EndsItem.not_isNamePart (h : EndsItem rest) : ∀ c ∈ rest.head?, isNamePart c = false := by
  cases h <;> simp <;> decide

theorem IsName.beginsItem (h : IsName name) : BeginsItem name.toList := by
  obtain ⟨c, tail, htext, hstart, -⟩ := h
  refine ⟨c, tail, htext, ?_⟩
  unfold startsItem isSpace
  rw [Bool.not_eq_true', Bool.eq_false_iff]
  intro hc
  simp only [Bool.or_eq_true, beq_iff_eq] at hc
  obtain ((rfl | rfl) | rfl) | rfl := hc <;> cases hstart

theorem eq_of_name? (h : name? text = some (name, rest)) :
    IsName name ∧ text = name.toList ++ rest := by
  cases text with
  | nil => cases h
  | cons c text =>
    rw [name?] at h
    split at h
    next hc =>
      simp only [Option.some.injEq, Prod.mk.injEq] at h
      obtain ⟨rfl, rfl⟩ := h
      refine ⟨⟨c, _, String.toList_ofList, hc, List.all_eq_true.mp List.all_takeWhile⟩, ?_⟩
      rw [String.toList_ofList, List.cons_append, List.takeWhile_append_dropWhile]
    next => cases h

theorem name?_append (hname : IsName name) (hrest : ∀ c ∈ rest.head?, isNamePart c = false) :
    name? (name.toList ++ rest) = some (name, rest) := by
  obtain ⟨c, tail, htext, hstart, htail⟩ := hname
  obtain ⟨htake, hdrop⟩ := span_append htail hrest
  rw [htext, List.cons_append, name?, if_pos hstart, htake, hdrop, ← htext, String.ofList_toList]

/-- Digits, of which there may be none. -/
def IsDigits (text : List Char) : Prop := ∀ c ∈ text, c.isDigit = true

theorem isDigits_takeWhile (text : List Char) : IsDigits (text.takeWhile Char.isDigit) :=
  List.all_eq_true.mp List.all_takeWhile

/-- Digits that stand for an index of 32 bits. -/
structure IsIndex (digits : List Char) (i : Nat) : Prop where
  ne_nil : digits ≠ []
  isDigits : IsDigits digits
  value_eq : Nat.ofDigitChars 10 digits 0 = i
  lt : i < UInt32.size

theorem eq_of_index? (h : index? text = some (i, rest)) :
    ∃ digits, IsIndex digits i ∧ text = digits ++ rest := by
  unfold index? at h
  dsimp only at h
  split at h
  next => cases h
  next hdigits =>
    rw [not_or, Nat.not_le] at hdigits
    simp only [Option.some.injEq, Prod.mk.injEq] at h
    obtain ⟨rfl, rfl⟩ := h
    refine ⟨text.takeWhile Char.isDigit, ⟨?_, isDigits_takeWhile text, rfl, hdigits.2⟩,
      List.takeWhile_append_dropWhile.symm⟩
    simpa using hdigits.1

theorem IsIndex.index?_append (h : IsIndex digits i) (hrest : ∀ c ∈ rest.head?, c.isDigit = false) :
    index? (digits ++ rest) = some (i, rest) := by
  obtain ⟨htake, hdrop⟩ := span_append h.isDigits hrest
  have hempty : digits.isEmpty = false := List.isEmpty_eq_false_iff.mpr h.ne_nil
  have hlt := h.lt
  rw [index?, htake, hdrop]
  simp [h.value_eq, hempty, hlt]

/-- A name is no index. -/
theorem IsName.index?_eq_none (h : IsName name) (rest : List Char) :
    index? (name.toList ++ rest) = none := by
  obtain ⟨c, tail, htext, hstart, -⟩ := h
  simp [index?, htext, not_isDigit_of_isNameStart hstart]

end Names

/-! ### Numerals -/

namespace Numeral

/-- A sign that may be left out; true for a minus. -/
inductive SignOf : List Char → Bool → Prop
  | none : SignOf [] false
  | plus : SignOf ['+'] false
  | minus : SignOf ['-'] true

/-- Digits before a point and after it.  One side may be empty, and with digits before it the point
    may be left out. -/
inductive MantissaOf : List Char → List Char → List Char → Prop
  | whole {whole : List Char} (hne : whole ≠ []) (hwhole : IsDigits whole) :
      MantissaOf whole whole []
  | point {whole fraction : List Char} (hne : whole ≠ [] ∨ fraction ≠ []) (hwhole : IsDigits whole)
      (hfraction : IsDigits fraction) : MantissaOf (whole ++ '.' :: fraction) whole fraction

/-- A power of ten that may be left out. -/
inductive ExponentOf : List Char → Int → Prop
  | none : ExponentOf [] 0
  | some {letter : Char} {sign digits : List Char} {negative : Bool}
      (hletter : letter = 'e' ∨ letter = 'E') (hsign : SignOf sign negative) (hne : digits ≠ [])
      (hdigits : IsDigits digits) :
      ExponentOf (letter :: (sign ++ digits))
        (if negative then -(Nat.ofDigitChars 10 digits 0 : Int) else Nat.ofDigitChars 10 digits 0)

/-- A numeral as it stands in a line. -/
inductive IsWritten : List Char → Numeral → Prop
  | mk {sign mantissa whole fraction exponent : List Char} {negative : Bool} {power : Int}
      (hsign : SignOf sign negative) (hmantissa : MantissaOf mantissa whole fraction)
      (hexponent : ExponentOf exponent power) :
      IsWritten (sign ++ (mantissa ++ exponent))
        ⟨negative, ⟨Nat.ofDigitChars 10 (whole ++ fraction) 0, power - fraction.length⟩⟩

variable {text rest whole fraction : List Char} {numeral : Numeral} {negative : Bool} {power : Int}

theorem exists_signOf (text : List Char) :
    ∃ sign, SignOf sign (Numeral.sign text).1 ∧ text = sign ++ (Numeral.sign text).2 := by
  unfold Numeral.sign
  split
  · exact ⟨_, .plus, rfl⟩
  · exact ⟨_, .minus, rfl⟩
  · exact ⟨_, .none, rfl⟩

theorem eq_of_mantissa? (h : mantissa? text = some (whole, fraction, rest)) :
    ∃ mantissa, MantissaOf mantissa whole fraction ∧ text = mantissa ++ rest := by
  have hsplit : text = text.takeWhile Char.isDigit ++ text.dropWhile Char.isDigit :=
    List.takeWhile_append_dropWhile.symm
  unfold mantissa? at h
  split at h
  next after hpoint =>
    dsimp only at h
    split at h
    next => cases h
    next hne =>
      simp only [Option.some.injEq, Prod.mk.injEq] at h
      obtain ⟨rfl, rfl, rfl⟩ := h
      refine ⟨_, .point ?_ (isDigits_takeWhile text) (isDigits_takeWhile after), ?_⟩
      · rw [Bool.and_eq_true, List.isEmpty_iff, List.isEmpty_iff] at hne
        exact Classical.not_and_iff_not_or_not.mp hne
      · rw [List.append_assoc, List.cons_append, List.takeWhile_append_dropWhile, ← hpoint]
        exact hsplit
  next =>
    dsimp only at h
    split at h
    next => cases h
    next hne =>
      simp only [Option.some.injEq, Prod.mk.injEq] at h
      obtain ⟨rfl, rfl, rfl⟩ := h
      exact ⟨_, .whole (by simpa using hne) (isDigits_takeWhile text), hsplit⟩

theorem eq_of_exponent (h : exponent text = .found power rest) :
    ∃ exponent, ExponentOf exponent power ∧ text = exponent ++ rest := by
  cases text with
  | nil =>
    simp only [exponent, Scan.found.injEq] at h
    obtain ⟨rfl, rfl⟩ := h
    exact ⟨[], .none, rfl⟩
  | cons c text =>
    rw [exponent] at h
    split at h
    next hletter =>
      obtain ⟨sign, hsign, htext⟩ := exists_signOf text
      dsimp only at h
      split at h
      next => cases h
      next hne =>
        simp only [Scan.found.injEq] at h
        obtain ⟨rfl, rfl⟩ := h
        refine ⟨_, .some hletter hsign (by simpa using hne) (isDigits_takeWhile _), ?_⟩
        rw [List.cons_append, List.append_assoc, List.takeWhile_append_dropWhile, ← htext]
    next =>
      simp only [Scan.found.injEq] at h
      obtain ⟨rfl, rfl⟩ := h
      exact ⟨[], .none, rfl⟩

theorem eq_of_scan (h : scan text = .found numeral rest) :
    ∃ written, IsWritten written numeral ∧ text = written ++ rest := by
  obtain ⟨sign, hsign, htext⟩ := exists_signOf text
  unfold scan at h
  dsimp only at h
  split at h
  next => cases h
  next whole fraction after hmantissa =>
    obtain ⟨mantissa, hwritten, hafter⟩ := eq_of_mantissa? hmantissa
    split at h
    next power last hexponent =>
      obtain ⟨exponent, hpower, hlast⟩ := eq_of_exponent hexponent
      simp only [Scan.found.injEq] at h
      obtain ⟨rfl, rfl⟩ := h
      refine ⟨_, .mk hsign hwritten hpower, ?_⟩
      rw [List.append_assoc, List.append_assoc, ← hlast, ← hafter, ← htext]
    next => cases h
    next => cases h

/-- Signs are told apart from what digits and points can begin. -/
theorem SignOf.sign_append {sign : List Char} (h : SignOf sign negative)
    (hplus : ∀ c ∈ rest.head?, c ≠ '+') (hminus : ∀ c ∈ rest.head?, c ≠ '-') :
    Numeral.sign (sign ++ rest) = (negative, rest) := by
  cases h with
  | none =>
    show Numeral.sign rest = _
    unfold Numeral.sign
    split
    next => exact absurd rfl (hplus '+' rfl)
    next => exact absurd rfl (hminus '-' rfl)
    next => rfl
  | plus => rfl
  | minus => rfl

theorem head_ne_of_isDigits {digits : List Char} (hne : digits ≠ []) (h : IsDigits digits) {d : Char}
    (hd : d.isDigit = false) : ∀ c ∈ (digits ++ rest).head?, c ≠ d := by
  obtain ⟨c, tail, rfl⟩ := List.exists_cons_of_ne_nil hne
  rintro _ ⟨⟩ rfl
  rw [h c List.mem_cons_self] at hd
  cases hd

theorem MantissaOf.head_ne {mantissa : List Char} (h : MantissaOf mantissa whole fraction) {d : Char}
    (hd : d.isDigit = false) (hpoint : d ≠ '.') : ∀ c ∈ (mantissa ++ rest).head?, c ≠ d := by
  cases h with
  | whole hne hwhole => exact head_ne_of_isDigits hne hwhole hd
  | point hne hwhole hfraction =>
    cases whole with
    | nil =>
      rintro _ ⟨⟩
      exact hpoint.symm
    | cons c whole =>
      rw [List.append_assoc]
      exact head_ne_of_isDigits (List.cons_ne_nil c whole) hwhole hd

theorem MantissaOf.mantissa?_append {mantissa : List Char} (h : MantissaOf mantissa whole fraction)
    (hrest : ∀ c ∈ rest.head?, c.isDigit = false) (hpoint : ∀ c ∈ rest.head?, c ≠ '.') :
    mantissa? (mantissa ++ rest) = some (whole, fraction, rest) := by
  cases h with
  | whole hne hwhole => exact mantissa?_whole hne hwhole hrest hpoint
  | point hne hwhole hfraction =>
    rw [List.append_assoc, List.cons_append]
    exact mantissa?_point hne hwhole hfraction hrest

theorem ExponentOf.exponent_append {exponent : List Char} (h : ExponentOf exponent power)
    (hrest : EndsItem rest) : Numeral.exponent (exponent ++ rest) = .found power rest := by
  cases h with
  | none => exact exponent_eq hrest
  | @some letter sign digits negative hletter hsign hne hdigits =>
    obtain ⟨htake, hdrop⟩ := span_append hdigits hrest.not_isDigit
    have hsigned : Numeral.sign (sign ++ (digits ++ rest)) = (negative, digits ++ rest) :=
      hsign.sign_append (head_ne_of_isDigits hne hdigits rfl) (head_ne_of_isDigits hne hdigits rfl)
    have hempty : digits.isEmpty = false := List.isEmpty_eq_false_iff.mpr hne
    rw [List.cons_append, List.append_assoc, Numeral.exponent, if_pos hletter, hsigned]
    simp only [htake, hdrop, hempty, Bool.false_eq_true, if_false]

/-- After a mantissa there is neither a digit nor a point. -/
theorem ExponentOf.head_append {exponent : List Char} (h : ExponentOf exponent power)
    (hrest : EndsItem rest) :
    ∀ c ∈ (exponent ++ rest).head?, c.isDigit = false ∧ c ≠ '.' := by
  cases h with
  | none => exact fun c hc => ⟨hrest.not_isDigit c hc, hrest.ne_point c hc⟩
  | some hletter =>
    rintro _ ⟨⟩
    obtain rfl | rfl := hletter <;> decide

theorem IsWritten.scan_append (h : IsWritten text numeral) (hrest : EndsItem rest) :
    scan (text ++ rest) = .found numeral rest := by
  cases h with
  | @mk sign mantissa whole fraction exponent negative power hsign hmantissa hexponent =>
    have hhead := hexponent.head_append hrest
    have hsigned : Numeral.sign (sign ++ (mantissa ++ (exponent ++ rest)))
        = (negative, mantissa ++ (exponent ++ rest)) :=
      hsign.sign_append (hmantissa.head_ne rfl (by decide)) (hmantissa.head_ne rfl (by decide))
    have hread := hmantissa.mantissa?_append (fun c hc => (hhead c hc).1) (fun c hc => (hhead c hc).2)
    rw [List.append_assoc, List.append_assoc]
    simp only [scan, hsigned, hread, hexponent.exponent_append hrest]

/-- A numeral begins with a sign, a digit or a point. -/
theorem scan_eq_absent {c : Char} (hdigit : c.isDigit = false) (hpoint : c ≠ '.') (hplus : c ≠ '+')
    (hminus : c ≠ '-') : scan (c :: text) = .absent := by
  have hsign : sign (c :: text) = (false, c :: text) :=
    SignOf.none.sign_append (by simpa using hplus) (by simpa using hminus)
  have hmantissa : mantissa? (c :: text) = none := by
    have htake : (c :: text).takeWhile Char.isDigit = [] := by simp [hdigit]
    have hdrop : (c :: text).dropWhile Char.isDigit = c :: text := by simp [hdigit]
    unfold mantissa?
    rw [htake, hdrop]
    dsimp only
    split
    next heq => exact absurd (List.cons.inj heq).1 hpoint
    next => rfl
  simp only [scan, hsign, hmantissa]

/-- A numeral begins with no punctuation and no quote. -/
theorem IsWritten.exists_head (h : IsWritten text numeral) :
    ∃ c tail, text = c :: tail ∧ startsItem c = true ∧ c ≠ '"' := by
  have hscan := h.scan_append .nil
  rw [List.append_nil] at hscan
  cases text with
  | nil => cases hscan
  | cons c tail =>
    have hpunctuation : ∀ d ∈ [' ', '\t', ',', ':', '"'], c ≠ d := by
      intro d hd hc
      have habsent : scan (c :: tail) = .absent := by
        subst hc
        simp only [List.mem_cons, List.not_mem_nil, or_false] at hd
        obtain rfl | rfl | rfl | rfl | rfl := hd <;>
          exact scan_eq_absent rfl (by decide) (by decide) (by decide)
      cases habsent.symm.trans hscan
    refine ⟨c, tail, rfl, ?_, hpunctuation '"' (by simp)⟩
    simp [startsItem, isSpace, hpunctuation]

end Numeral

/-! ### Items -/

/-- A text that a reader reads as an item, whatever separator follows. -/
structure Spells {α : Type} (item : List Char → Scan α) (text : List Char) (x : α) : Prop where
  beginsItem : BeginsItem text
  scan_eq : ∀ rest, EndsItem rest → item (text ++ rest) = .found x rest

namespace Operand

/-- An operand as it stands in a line. -/
inductive IsWritten : List Char → Operand → Prop
  | constant {digits : List Char} {i : Nat} (h : IsIndex digits i) :
      IsWritten ('#' :: digits) (.constant i)
  | temporary {digits : List Char} {i : Nat} (h : IsIndex digits i) :
      IsWritten ('%' :: digits) (.temporary i)
  | symbol {digits : List Char} {i : Nat} (h : IsIndex digits i) :
      IsWritten ('@' :: digits) (.symbol i)
  | symbolNamed {name : String} (h : IsName name) : IsWritten ('@' :: name.toList) (.symbolNamed name)
  | word {name : String} (h : IsName name) : IsWritten name.toList (.word name)

variable {text rest : List Char} {operand : Operand}

theorem eq_of_scan (h : scan text = .found operand rest) :
    ∃ written, IsWritten written operand ∧ text = written ++ rest := by
  unfold scan at h
  dsimp only at h
  split at h
  next after =>
    cases hindex : index? after with
    | none => simp [hindex] at h
    | some found =>
      obtain ⟨i, last⟩ := found
      obtain ⟨digits, hdigits, rfl⟩ := eq_of_index? hindex
      obtain ⟨rfl, rfl⟩ : .constant i = operand ∧ last = rest := by simpa [hindex] using h
      exact ⟨_, .constant hdigits, rfl⟩
  next after =>
    cases hindex : index? after with
    | none => simp [hindex] at h
    | some found =>
      obtain ⟨i, last⟩ := found
      obtain ⟨digits, hdigits, rfl⟩ := eq_of_index? hindex
      obtain ⟨rfl, rfl⟩ : .temporary i = operand ∧ last = rest := by simpa [hindex] using h
      exact ⟨_, .temporary hdigits, rfl⟩
  next after =>
    split at h
    next i last hindex =>
      obtain ⟨digits, hdigits, rfl⟩ := eq_of_index? hindex
      simp only [Scan.found.injEq] at h
      obtain ⟨rfl, rfl⟩ := h
      exact ⟨_, .symbol hdigits, rfl⟩
    next =>
      cases hname : name? after with
      | none => simp [hname] at h
      | some found =>
        obtain ⟨name, last⟩ := found
        obtain ⟨hisName, rfl⟩ := eq_of_name? hname
        obtain ⟨rfl, rfl⟩ : .symbolNamed name = operand ∧ last = rest := by simpa [hname] using h
        exact ⟨_, .symbolNamed hisName, rfl⟩
  next =>
    cases hname : name? text with
    | none => simp [hname] at h
    | some found =>
      obtain ⟨name, last⟩ := found
      obtain ⟨hisName, rfl⟩ := eq_of_name? hname
      obtain ⟨rfl, rfl⟩ : .word name = operand ∧ last = rest := by simpa [hname] using h
      exact ⟨_, .word hisName, rfl⟩

/-- A name is not taken for an operand that begins with a sign. -/
theorem scan_name {name : String} (hname : IsName name) (hrest : EndsItem rest) :
    scan (name.toList ++ rest) = .found (.word name) rest := by
  have hread := name?_append hname hrest.not_isNamePart
  obtain ⟨c, tail, htext, hstart, -⟩ := hname
  rw [htext, List.cons_append] at hread ⊢
  unfold scan
  split
  next heq =>
    obtain ⟨rfl, -⟩ := List.cons.inj heq
    cases hstart
  next heq =>
    obtain ⟨rfl, -⟩ := List.cons.inj heq
    cases hstart
  next heq =>
    obtain ⟨rfl, -⟩ := List.cons.inj heq
    cases hstart
  next => simp [hread]

theorem IsWritten.spells (h : IsWritten text operand) : Spells scan text operand := by
  cases h with
  | @constant digits i h =>
    refine ⟨⟨'#', digits, rfl, rfl⟩, fun rest hrest => ?_⟩
    simp only [List.cons_append, scan, h.index?_append hrest.not_isDigit, Option.map_some]
  | @temporary digits i h =>
    refine ⟨⟨'%', digits, rfl, rfl⟩, fun rest hrest => ?_⟩
    simp only [List.cons_append, scan, h.index?_append hrest.not_isDigit, Option.map_some]
  | @symbol digits i h =>
    refine ⟨⟨'@', digits, rfl, rfl⟩, fun rest hrest => ?_⟩
    simp only [List.cons_append, scan, h.index?_append hrest.not_isDigit]
  | @symbolNamed name h =>
    refine ⟨⟨'@', name.toList, rfl, rfl⟩, fun rest hrest => ?_⟩
    simp only [List.cons_append, scan, h.index?_eq_none, name?_append h hrest.not_isNamePart,
      Option.map_some]
  | word h => exact ⟨h.beginsItem, fun rest hrest => scan_name h hrest⟩

end Operand

namespace Token

/-- A token as it stands in a line. -/
inductive IsWritten : List Char → Token → Prop
  | word {name : String} (h : IsName name) : IsWritten name.toList (.word name)
  | number {text : List Char} {numeral : Numeral} (h : numeral.IsWritten text) :
      IsWritten text (.number numeral.toFloat32)
  | quoted {text : String} (h : '"' ∉ text.toList) :
      IsWritten ('"' :: (text.toList ++ ['"'])) (.quoted text)

variable {text rest : List Char} {token : Token}

theorem eq_of_quoted? {inner : String} (h : quoted? text = some (inner, rest)) :
    '"' ∉ inner.toList ∧ text = '"' :: (inner.toList ++ '"' :: rest) := by
  unfold quoted? at h
  split at h
  next start =>
    have hsplit : start = start.takeWhile (· != '"') ++ start.dropWhile (· != '"') :=
      List.takeWhile_append_dropWhile.symm
    split at h
    next quote after hdrop =>
      simp only [Option.some.injEq, Prod.mk.injEq] at h
      obtain ⟨rfl, rfl⟩ := h
      -- the text was taken up to the first quote
      have hquote : quote = '"' := by
        have hhead := List.head?_dropWhile_not (· != '"') start
        simpa [hdrop] using hhead
      rw [hdrop, hquote] at hsplit
      rw [String.toList_ofList]
      refine ⟨fun hmem => ?_, congrArg (List.cons '"') hsplit⟩
      simpa using List.all_eq_true.mp List.all_takeWhile _ hmem
    next => cases h
  next => cases h

theorem quoted?_append {inner : String} (h : '"' ∉ inner.toList) :
    quoted? ('"' :: (inner.toList ++ '"' :: rest)) = some (inner, rest) := by
  have hinner : ∀ c ∈ inner.toList, (c != '"') = true := by
    intro c hc
    rw [bne_iff_ne]
    rintro rfl
    exact h hc
  have hquote : ∀ c ∈ ('"' :: rest).head?, (c != '"') = false := by simp
  obtain ⟨htake, hdrop⟩ := span_append hinner hquote
  simp only [quoted?, htake, hdrop, String.ofList_toList]

theorem quoted?_eq_none {c : Char} (hc : c ≠ '"') : quoted? (c :: text) = none := by
  unfold quoted?
  split
  next heq => exact absurd (List.cons.inj heq).1 hc
  next => rfl

theorem eq_of_scan (h : scan text = .found token rest) :
    ∃ written, IsWritten written token ∧ text = written ++ rest := by
  unfold scan at h
  split at h
  next inner after hquoted =>
    obtain ⟨hinner, rfl⟩ := eq_of_quoted? hquoted
    simp only [Scan.found.injEq] at h
    obtain ⟨rfl, rfl⟩ := h
    exact ⟨_, .quoted hinner, by simp⟩
  next =>
    split at h
    next numeral after hnumeral =>
      obtain ⟨written, hwritten, rfl⟩ := Numeral.eq_of_scan hnumeral
      simp only [Scan.found.injEq] at h
      obtain ⟨rfl, rfl⟩ := h
      exact ⟨written, .number hwritten, rfl⟩
    next => cases h
    next =>
      split at h
      next name after hname =>
        obtain ⟨hisName, rfl⟩ := eq_of_name? hname
        simp only [Scan.found.injEq] at h
        obtain ⟨rfl, rfl⟩ := h
        exact ⟨_, .word hisName, rfl⟩
      next => cases h

/-- A name is taken for neither a quoted text nor a numeral. -/
theorem scan_name {name : String} (hname : IsName name) (hrest : EndsItem rest) :
    scan (name.toList ++ rest) = .found (.word name) rest := by
  have hread := name?_append hname hrest.not_isNamePart
  obtain ⟨c, tail, htext, hstart, -⟩ := hname
  rw [htext, List.cons_append] at hread ⊢
  have hquoted : quoted? (c :: (tail ++ rest)) = none := by
    refine quoted?_eq_none ?_
    rintro rfl
    cases hstart
  have hnumeral : Numeral.scan (c :: (tail ++ rest)) = .absent := by
    refine Numeral.scan_eq_absent (not_isDigit_of_isNameStart hstart) ?_ ?_ ?_ <;>
    · rintro rfl
      cases hstart
  simp only [scan, hquoted, hnumeral, hread]

theorem IsWritten.spells (h : IsWritten text token) : Spells scan text token := by
  cases h with
  | word h => exact ⟨h.beginsItem, fun rest hrest => scan_name h hrest⟩
  | number h =>
    obtain ⟨c, tail, rfl, hc, hquote⟩ := h.exists_head
    refine ⟨⟨c, tail, rfl, hc⟩, fun rest hrest => ?_⟩
    have hread := h.scan_append hrest
    rw [List.cons_append] at hread ⊢
    simp only [scan, quoted?_eq_none hquote, hread]
  | @quoted inner h =>
    refine ⟨⟨'"', _, rfl, rfl⟩, fun rest hrest => ?_⟩
    have hwhole : '"' :: (inner.toList ++ ['"']) ++ rest = '"' :: (inner.toList ++ '"' :: rest) := by
      simp
    rw [hwhole]
    simp only [scan, quoted?_append h]

end Token

end Shading
