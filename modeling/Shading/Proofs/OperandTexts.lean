import Shading.Proofs.Reading

namespace Shading

/-!
# The texts of operand words

An operand word that stands for something is listed as an operand.  One that does not is listed as a
number, which no operand is, so that the line cannot be read.

* `IsOperandText` — operands and numbers;
* `SymbolTable.operandOf` — the operand that an address is listed as;
* `eq_of_addressWord`, `code_eq_lowByte` — what is read back from the text of a word;
* `Line.exists_operands` — a line of such texts that can be read.
-/

/-! ### The texts of operand words -/

namespace Operand

variable {text : List Char} {operand operand' : Operand}

theorem IsWritten.unique (h : IsWritten text operand) (h' : IsWritten text operand') :
    operand = operand' := by
  have hread := (h.spells.scan_eq [] .nil).symm.trans (h'.spells.scan_eq [] .nil)
  exact (Scan.found.inj hread).1

/-- No operand begins with a digit. -/
theorem IsWritten.not_isDigit {c : Char} (h : IsWritten (c :: text) operand) : c.isDigit = false := by
  generalize hwhole : c :: text = whole at h
  cases h with
  | constant => exact (List.cons.inj hwhole).1 ▸ rfl
  | temporary => exact (List.cons.inj hwhole).1 ▸ rfl
  | symbol => exact (List.cons.inj hwhole).1 ▸ rfl
  | symbolNamed => exact (List.cons.inj hwhole).1 ▸ rfl
  | word h =>
    obtain ⟨d, tail, htext, hstart, -⟩ := h
    rw [htext] at hwhole
    exact (List.cons.inj hwhole).1 ▸ not_isDigit_of_isNameStart hstart

theorem scan_digit {c : Char} (hc : c.isDigit = true) : scan (c :: text) = .absent := by
  have hname : name? (c :: text) = none := by
    have hstart : isNameStart c = false := by
      rw [Bool.eq_false_iff]
      intro hstart
      rw [not_isDigit_of_isNameStart hstart] at hc
      cases hc
    rw [name?, hstart]
    rfl
  unfold scan
  split
  next heq =>
    obtain ⟨rfl, -⟩ := List.cons.inj heq
    cases hc
  next heq =>
    obtain ⟨rfl, -⟩ := List.cons.inj heq
    cases hc
  next heq =>
    obtain ⟨rfl, -⟩ := List.cons.inj heq
    cases hc
  next => simp [hname]

end Operand

theorem beginsItem_digit {c : Char} (hc : c.isDigit = true) (tail : List Char) :
    BeginsItem (c :: tail) := by
  refine ⟨c, tail, rfl, ?_⟩
  unfold startsItem isSpace
  rw [Bool.not_eq_true', Bool.eq_false_iff]
  intro hpunctuation
  simp only [Bool.or_eq_true, beq_iff_eq] at hpunctuation
  obtain ((rfl | rfl) | rfl) | rfl := hpunctuation <;> cases hc

/-- A text that begins with a digit. -/
def IsNumber (text : String) : Prop := ∃ c tail, text.toList = c :: tail ∧ c.isDigit = true

theorem IsNumber.not_isWritten {text : String} {operand : Operand} (h : IsNumber text) :
    ¬ operand.IsWritten text.toList := by
  intro hwritten
  obtain ⟨c, tail, htext, hc⟩ := h
  rw [htext] at hwritten
  rw [hwritten.not_isDigit] at hc
  cases hc

/-- A text that is an operand, or a number. -/
structure IsOperandText (text : String) : Prop where
  plainText : PlainText text.toList
  exists_operand : (∃ operand, Operand.IsWritten text.toList operand) ∨ IsNumber text

theorem Operand.IsWritten.isOperandText {text : String} {operand : Operand}
    (h : operand.IsWritten text.toList) : IsOperandText text :=
  ⟨h.plainText, .inl ⟨operand, h⟩⟩

theorem isNumber_repr (n : Nat) : IsNumber n.repr := by
  obtain ⟨c, tail, htext⟩ := List.exists_cons_of_ne_nil (Nat.toDigits_ne_nil (n := n) (b := 10))
  refine ⟨c, tail, ?_, ?_⟩
  · rw [Nat.toList_repr, htext]
  · refine Nat.isDigit_of_mem_toDigits (b := 10) (n := n) (by decide) (by decide) ?_
    rw [htext]
    exact List.mem_cons_self

theorem isOperandText_repr (n : Nat) : IsOperandText n.repr := by
  refine ⟨fun c hc => isPlain_of_isDigit ?_, .inr (isNumber_repr n)⟩
  rw [Nat.toList_repr] at hc
  exact Nat.isDigit_of_mem_toDigits (by decide) (by decide) hc

theorem toList_hex (digits n : Nat) : (hex digits n).toList = '0' :: 'x' ::
    (List.replicate (digits - (Nat.toDigits 16 n).length) '0' ++ Nat.toDigits 16 n) := by
  simp [hex]

theorem isNumber_hex (digits n : Nat) : IsNumber (hex digits n) := ⟨'0', _, toList_hex digits n, rfl⟩

theorem plainText_toDigits (n : Nat) : PlainText (Nat.toDigits 16 n) := by
  have hdigit : ∀ d < 16, isPlain (Nat.digitChar d) = true := by decide
  induction n using Nat.strongRecOn with
  | ind n ih =>
    by_cases hlt : n < 16
    · rw [Nat.toDigits_of_lt_base hlt]
      exact List.forall_mem_singleton.mpr (hdigit n hlt)
    · rw [Nat.toDigits_of_base_le (by decide) (Nat.not_lt.mp hlt)]
      exact (ih (n / 16) (by omega)).append
        (List.forall_mem_singleton.mpr (hdigit (n % 16) (Nat.mod_lt n (by decide))))

theorem isOperandText_hex (digits n : Nat) : IsOperandText (hex digits n) := by
  have hzeros : PlainText (List.replicate (digits - (Nat.toDigits 16 n).length) '0') := by
    intro c hc
    rw [(List.mem_replicate.mp hc).2]
    rfl
  refine ⟨?_, .inr (isNumber_hex digits n)⟩
  rw [toList_hex]
  exact ((hzeros.append (plainText_toDigits n)).cons rfl).cons rfl

/-- The operand that an address is listed as: a symbol that does not exist has no name. -/
def SymbolTable.operandOf (table : SymbolTable) : Address → Operand
  | .constant i => .constant i
  | .symbol i => (table.name? i).elim (.symbol i) .symbolNamed
  | .temporary i => .temporary i

theorem SymbolTable.isWritten_addressText {table : SymbolTable}
    (hnames : ∀ symbol ∈ table.symbols, IsName symbol.name) {address : Address}
    (h : address.index < 0x40000000) :
    Operand.IsWritten (table.addressText address).toList (table.operandOf address) := by
  have hindex : address.index < UInt32.size := Nat.lt_trans h (by decide)
  cases address with
  | constant i => exact Operand.isWritten_constant hindex
  | temporary i => exact Operand.isWritten_temporary hindex
  | symbol i =>
    have htext : (table.addressText (.symbol i)).toList
        = '@' :: ((table.name? i).getD i.repr).toList := by
      simp [addressText]
    rw [htext, operandOf]
    cases hname : table.name? i with
    | none => exact .symbol (isIndex_repr hindex)
    | some name =>
      obtain ⟨symbol, hsymbol, rfl⟩ := Option.map_eq_some_iff.mp hname
      exact .symbolNamed (hnames symbol (Array.mem_of_getElem? hsymbol))

section Texts

variable {shader : Shader} (hnames : ∀ symbol ∈ shader.symbols.symbols, IsName symbol.name)

include hnames

theorem isOperandText_addressText (word : Word) : IsOperandText (shader.addressText word) := by
  cases hdecode : Address.decode? word with
  | none =>
    have htext : shader.addressText word = hex 8 word.toNat := by rw [Shader.addressText, hdecode]
    exact htext ▸ isOperandText_hex 8 word.toNat
  | some address =>
    obtain ⟨hindex, rfl⟩ := Address.word_of_decode? hdecode
    rw [Shader.addressText_word hindex]
    exact (SymbolTable.isWritten_addressText hnames hindex).isOperandText

/-- An operand that an operand word is listed as gives the word back. -/
theorem eq_of_addressWord (hdistinct : (shader.symbols.symbols.toList.map Symbol.name).Nodup)
    {draft : Draft} (hsymbols : draft.symbols = shader.symbols) {operand : Operand} {word word' : Word}
    (hwritten : operand.IsWritten (shader.addressText word).toList)
    (h : draft.addressWord operand = .ok word') : word' = word := by
  cases hdecode : Address.decode? word with
  | none =>
    have htext : shader.addressText word = hex 8 word.toNat := by rw [Shader.addressText, hdecode]
    rw [htext] at hwritten
    exact absurd hwritten (isNumber_hex 8 word.toNat).not_isWritten
  | some address =>
    obtain ⟨hindex, rfl⟩ := Address.word_of_decode? hdecode
    rw [Shader.addressText_word hindex] at hwritten
    obtain rfl := hwritten.unique (SymbolTable.isWritten_addressText hnames hindex)
    obtain ⟨address', haddress, -, rfl⟩ := Draft.addressWord_eq_ok.mp h
    suffices hsame : address' = address by rw [hsame]
    cases address with
    | constant i =>
      simp only [SymbolTable.operandOf, Draft.address] at haddress
      split at haddress
      next => exact (Except.ok.inj haddress).symm
      next => cases haddress
    | temporary i => exact (Except.ok.inj haddress).symm
    | symbol i =>
      by_cases hi : i < shader.symbols.size
      · -- the symbol is found under its name
        obtain ⟨name, hname⟩ : ∃ name, shader.symbols.name? i = some name :=
          ⟨_, by rw [SymbolTable.name?, Array.getElem?_eq_getElem hi]; rfl⟩
        have hslot := (SymbolTable.slot?_eq_some hdistinct).mpr hname
        simp only [SymbolTable.operandOf, hname, Option.elim_some, Draft.address, hsymbols,
          hslot] at haddress
        exact (Except.ok.inj haddress).symm
      · have hname : shader.symbols.name? i = none := by
          rw [SymbolTable.name?, Array.getElem?_eq_none (Nat.not_lt.mp hi)]
          rfl
        simp only [SymbolTable.operandOf, hname, Option.elim_none, Draft.address, hsymbols,
          if_neg hi] at haddress
        cases haddress

end Texts

/-- The word that is left of an identifier whose low byte is listed. -/
def lowByte (word : Word) : Word := UInt32.ofNat (word.toNat % 256)

section Identifiers

variable {α : Type} [Vocabulary α] [LawfulVocabulary α]

theorem isOperandText_codeText (word : Word) : IsOperandText (Shader.codeText α word) := by
  unfold Shader.codeText
  split
  next name _ => exact (Operand.IsWritten.word (Vocabulary.isName_name name)).isOperandText
  next => exact isOperandText_repr _

/-- What the text of an identifier names has its low byte for a code. -/
theorem code_eq_lowByte [DecidableEq α] {word : Word} {name : String} {id : α}
    (hwritten : (Operand.word name).IsWritten (Shader.codeText α word).toList)
    (h : Vocabulary.ofName? name = some id) :
    UInt32.ofNat (Vocabulary.code id) = lowByte word := by
  unfold Shader.codeText at hwritten
  split at hwritten
  next id' hcode =>
    have hsame := hwritten.unique (.word (Vocabulary.isName_name id'))
    obtain rfl := Operand.word.inj hsame
    rw [Vocabulary.ofName?_name, Option.some.injEq] at h
    rw [← h, Vocabulary.code_of_ofCode? hcode]
    rfl
  next => exact absurd hwritten (isNumber_repr _).not_isWritten

end Identifiers

/-! ### Lines of such texts -/

theorem isBlank_comma {rest : List Char} : ¬ IsBlank (',' :: rest) :=
  fun h => absurd (h ',' List.mem_cons_self) (by decide)

theorem endsItem_commaChars (texts : List String) : EndsItem (commaChars texts) := by
  cases texts with
  | nil => exact .nil
  | cons text texts => exact .comma _

theorem IsOperandText.beginsItem {text : String} (h : IsOperandText text) :
    BeginsItem text.toList := by
  obtain ⟨operand, hwritten⟩ | ⟨c, tail, htext, hc⟩ := h.exists_operand
  · exact hwritten.spells.beginsItem
  · exact htext ▸ beginsItem_digit hc tail

/-- If all of a list is read then each text is, as the operand that it is written for. -/
theorem forall₂_of_scanMore {texts : List String} {count : Nat} {operands : List Operand}
    {rest : List Char} (htexts : ∀ text ∈ texts, IsOperandText text)
    (hscan : scanMore Operand.scan count (commaChars texts) = .found operands rest)
    (hrest : IsBlank rest) :
    List.Forall₂ (fun text operand => Operand.IsWritten text.toList operand) texts operands := by
  induction texts generalizing count operands with
  | nil =>
    cases count <;>
    · obtain ⟨rfl, -⟩ := Scan.found.inj hscan
      exact .nil
  | cons text texts ih =>
    obtain ⟨htext, htexts⟩ := List.forall_mem_cons.mp htexts
    rw [commaChars, List.flatMap_cons, List.cons_append, List.cons_append, ← commaChars] at hscan
    cases count with
    | zero =>
      obtain ⟨-, rfl⟩ := Scan.found.inj hscan
      exact absurd hrest isBlank_comma
    | succ count =>
      have hseparator := (IsSeparator.comma .nil isBlank_space).separator?_append
        (htext.beginsItem.append (commaChars texts))
      rw [List.nil_append, List.cons_append, List.singleton_append] at hseparator
      simp only [scanMore, hseparator] at hscan
      obtain ⟨operand, hwritten⟩ | ⟨c, tail, hchars, hc⟩ := htext.exists_operand
      · rw [hwritten.spells.scan_eq _ (endsItem_commaChars texts)] at hscan
        dsimp only at hscan
        split at hscan
        next others last hothers =>
          obtain ⟨rfl, rfl⟩ := Scan.found.inj hscan
          exact .cons hwritten (ih htexts hothers)
        next => cases hscan
      · rw [hchars, List.cons_append, Operand.scan_digit hc] at hscan
        obtain ⟨-, rfl⟩ := Scan.found.inj hscan
        exact absurd hrest isBlank_comma

theorem forall₂_of_scanArguments {texts : List String} {operands : List Operand} {rest : List Char}
    (htexts : ∀ text ∈ texts, IsOperandText text)
    (hscan : scanArguments Operand.scan (argumentChars texts) = .found operands rest)
    (hrest : IsBlank rest) :
    List.Forall₂ (fun text operand => Operand.IsWritten text.toList operand) texts operands := by
  cases texts with
  | nil =>
    obtain ⟨rfl, -⟩ := Scan.found.inj hscan
    exact .nil
  | cons text texts =>
    obtain ⟨htext, htexts⟩ := List.forall_mem_cons.mp htexts
    have hskip := (htext.beginsItem.append (commaChars texts)).skipSpace_eq
    rw [argumentChars_cons] at hscan
    replace hscan : scanItems Operand.scan (skipSpace (text.toList ++ commaChars texts)) = _ := hscan
    rw [hskip] at hscan
    unfold scanItems at hscan
    obtain ⟨operand, hwritten⟩ | ⟨c, tail, hdigit, hc⟩ := htext.exists_operand
    · rw [hwritten.spells.scan_eq _ (endsItem_commaChars texts)] at hscan
      dsimp only at hscan
      split at hscan
      next others last hothers =>
        obtain ⟨rfl, rfl⟩ := Scan.found.inj hscan
        exact .cons hwritten (forall₂_of_scanMore htexts hothers hrest)
      next => cases hscan
    · rw [hdigit, List.cons_append, Operand.scan_digit hc] at hscan
      obtain ⟨-, rfl⟩ := Scan.found.inj hscan
      rw [hdigit, List.cons_append, skipSpace_eq_nil.mpr hrest] at hskip
      cases hskip

theorem endsItem_argumentChars (texts : List String) : EndsItem (argumentChars texts) := by
  cases texts with
  | nil => exact .nil
  | cons text texts => exact .space _

/-- If a line of such texts is read then it is an operation, and each text is its operand. -/
theorem Line.exists_operands {mnemonic : String} {key : Option String} {texts : List String}
    {parsed : Line} (hmnemonic : IsName mnemonic) (hkey : IsKeyText key)
    (htexts : ∀ text ∈ texts, IsOperandText text)
    (h : parse? (' ' :: ' ' :: (mnemonic.toList ++ (keyChars key ++ argumentChars texts)))
      = some parsed) :
    ∃ operands, parsed = ⟨none, some (.operation mnemonic key operands)⟩ ∧
      List.Forall₂ (fun text operand => Operand.IsWritten text.toList operand) texts operands := by
  have hends := endsItem_argumentChars texts
  have hcolon : ∀ c ∈ (skipSpace (argumentChars texts)).head?, c ≠ ':' := by
    cases texts with
    | nil => simp [argumentChars, skipSpace]
    | cons text texts =>
      have hitem := (htexts text List.mem_cons_self).beginsItem.append (commaChars texts)
      rw [argumentChars_cons]
      show ∀ c ∈ (skipSpace (text.toList ++ commaChars texts)).head?, c ≠ ':'
      rw [hitem.skipSpace_eq]
      exact hitem.head_ne rfl
  have hbegins := hmnemonic.beginsItem.append (keyChars key ++ argumentChars texts)
  have hskip : skipSpace (' ' :: ' ' :: (mnemonic.toList ++ (keyChars key ++ argumentChars texts)))
      = mnemonic.toList ++ (keyChars key ++ argumentChars texts) := hbegins.skipSpace_eq
  unfold parse? at h
  rw [hskip, Statement.label?_mnemonic hmnemonic hends hcolon] at h
  dsimp only at h
  split at h
  next statement rest hscan =>
    obtain ⟨operands, hoperands, rfl⟩ := (Statement.scan_mnemonic hmnemonic hkey hends).mp hscan
    split at h
    next hempty =>
      refine ⟨operands, (Option.some.inj h).symm, forall₂_of_scanArguments htexts hoperands ?_⟩
      exact skipSpace_eq_nil.mp (List.isEmpty_iff.mp hempty)
    next => cases h
  next =>
    rw [hbegins.skipSpace_eq] at h
    obtain ⟨c, tail, hchars, -⟩ := hbegins
    rw [hchars] at h
    cases h
  next => cases h

end Shading
