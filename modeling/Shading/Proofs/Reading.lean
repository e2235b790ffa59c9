import Shading.Proofs.Listing

namespace Shading

/-!
# Reading a listing

What the lines of a listing do when they are assembled again.

* `Reads P lines Q` — every draft with `P` takes the lines and then has `Q`; the rules put lines
  together as a program logic puts commands together;
* `Reads.title`, `Reads.symbol`, `Reads.constant` — the lines of declarations;
* `Draft.emit_parts` — an operation line gives the slots of the operation it was listed for;
* `assemble_of_reads` — a text of such lines is assembled.
-/

/-! ### Reading line by line -/

/-- Lines that every draft with the first property takes, and that leave it with the second. -/
structure Reads (P : Draft → Prop) (lines : List String) (Q : Draft → Prop) : Prop where
  isLine : ∀ line ∈ lines, IsLine line.toList
  exists_next : ∀ (draft : Draft) (number : Nat), P draft → ∃ next,
    ((lines.map String.toList).zipIdx number).foldlM
      (fun (draft : Draft) line => draft.addLine line.2 line.1) draft = .ok next ∧ Q next

namespace Reads

variable {P Q R : Draft → Prop} {lines lines' : List String}

theorem nil (h : ∀ draft, P draft → Q draft) : Reads P [] Q := by
  refine ⟨by simp, fun draft number hP => ?_⟩
  exact ⟨draft, rfl, h draft hP⟩

theorem mono (h : Reads P lines Q) (hQ : ∀ draft, Q draft → R draft) : Reads P lines R := by
  refine ⟨h.isLine, fun draft number hP => ?_⟩
  obtain ⟨next, hnext, hnextQ⟩ := h.exists_next draft number hP
  exact ⟨next, hnext, hQ next hnextQ⟩

theorem weaken (h : Reads Q lines R) (hP : ∀ draft, P draft → Q draft) : Reads P lines R :=
  ⟨h.isLine, fun draft number hdraft => h.exists_next draft number (hP draft hdraft)⟩

theorem append (h : Reads P lines Q) (h' : Reads Q lines' R) : Reads P (lines ++ lines') R := by
  refine ⟨List.forall_mem_append.mpr ⟨h.isLine, h'.isLine⟩, fun draft number hP => ?_⟩
  obtain ⟨middle, hmiddle, hQ⟩ := h.exists_next draft number hP
  obtain ⟨next, hnext, hR⟩ := h'.exists_next middle (number + lines.length) hQ
  refine ⟨next, ?_, hR⟩
  rw [List.map_append, List.zipIdx_append, List.foldlM_append, List.length_map, bind_eq_ok]
  exact ⟨middle, hmiddle, hnext⟩

theorem line {text : String} {parsed : Line} (hbare : IsBareLine text.toList)
    (hparse : Line.parse? text.toList = some parsed)
    (hadd : ∀ draft number, P draft → ∃ next, draft.addParsed number parsed = .ok next ∧ Q next) :
    Reads P [text] Q := by
  refine ⟨List.forall_mem_singleton.mpr hbare.toIsLine, fun draft number hP => ?_⟩
  obtain ⟨next, hnext, hQ⟩ := hadd draft number hP
  have hline : draft.addLine number text.toList = .ok next := by
    refine Draft.addLine_eq_ok.mpr ⟨parsed, ?_, hnext⟩
    rw [hbare.beforeComment_eq, hparse]
  refine ⟨next, ?_, hQ⟩
  rw [List.map_singleton, List.zipIdx_singleton, List.foldlM_cons, bind_eq_ok]
  exact ⟨next, hline, rfl⟩

/-- The lines of entries one after the other, with an invariant over the entries read so far. -/
theorem flatMap {α : Type} {spelling : α → List String} (I : List α → Draft → Prop)
    {entries : List α} (h : ∀ before entry after, entries = before ++ entry :: after →
      Reads (I before) (spelling entry) (I (before ++ [entry]))) :
    Reads (I []) (entries.flatMap spelling) (I entries) := by
  suffices general : ∀ after before, entries = before ++ after →
      Reads (I before) (after.flatMap spelling) (I entries) from general entries [] rfl
  intro after
  induction after with
  | nil =>
    intro before hentries
    rw [hentries, List.append_nil]
    exact nil fun _ hI => hI
  | cons entry after ih =>
    intro before hentries
    refine (h before entry after hentries).append (ih (before ++ [entry]) ?_)
    rw [hentries, List.append_assoc, List.singleton_append]

theorem map {α : Type} {spelling : α → String} (I : List α → Draft → Prop)
    {entries : List α} (h : ∀ before entry after, entries = before ++ entry :: after →
      Reads (I before) [spelling entry] (I (before ++ [entry]))) :
    Reads (I []) (entries.map spelling) (I entries) := by
  rw [List.map_eq_flatMap]
  exact flatMap I h

end Reads

theorem splitLines_join {lines : List String} (h : ∀ line ∈ lines, IsLine line.toList) :
    splitLines (String.join (lines.map (· ++ "\n"))).toList = lines.map String.toList := by
  have hchars : (String.join (lines.map (· ++ "\n"))).toList
      = (lines.map String.toList).flatMap (· ++ ['\n']) := by
    rw [String.toList_join, List.flatMap_map, List.flatMap_map]
    refine List.flatMap_congr fun line _ => ?_
    simp
  rw [hchars]
  refine splitLines_lines fun text htext => ?_
  obtain ⟨line, hline, rfl⟩ := List.mem_map.mp htext
  exact h line hline

theorem assemble_of_reads {lines : List String} {shader : Shader}
    (h : Reads (· = Draft.new) lines fun draft => draft.finish = .ok shader) :
    assemble (String.join (lines.map (· ++ "\n"))) = .ok shader := by
  obtain ⟨draft, hlines, hfinish⟩ := h.exists_next Draft.new 1 rfl
  refine assemble_eq_ok.mpr ⟨draft, ?_, hfinish⟩
  rw [splitLines_join h.isLine, hlines]

/-! ### Literals -/

theorem forall₂_map {α β γ : Type} {R : β → γ → Prop} {f : α → β} {g : α → γ} {xs : List α}
    (h : ∀ x ∈ xs, R (f x) (g x)) : List.Forall₂ R (xs.map f) (xs.map g) := by
  rw [List.forall₂_map_left_iff, List.forall₂_map_right_iff, List.forall₂_same]
  exact h

/-- The tokens of a literal. -/
def Value.tokens (value : Value) : List Token :=
  match value.text with
  | some text => [.quoted text]
  | none => value.floats.toList.map .number

/-- Elements that are no strings have components. -/
theorem exists_cons_of_components {type : ElementType} {floats : List Float32}
    (htype : type ≠ .string) (hcount : floats.length = type.components) :
    ∃ x xs, floats = x :: xs := by
  refine List.exists_cons_of_length_pos ?_
  rw [hcount]
  cases type <;> first | exact absurd rfl htype | decide

namespace Value.IsLiteral

variable {value : Value}

theorem argumentsOf (h : value.IsLiteral) (hfinite : ∀ x ∈ value.floats, x.isFinite = true) :
    ArgumentsOf Token.IsWritten (' ' :: value.literalText.toList) value.tokens := by
  cases h with
  | quoted htext =>
    have hquoted := ArgumentsOf.blank (Token.isWritten_quoted htext) .nil
    rwa [List.append_nil] at hquoted
  | numbers htype hcount =>
    obtain ⟨x, xs, rfl⟩ := exists_cons_of_components htype hcount
    have hwritten := forall₂_map (R := fun text token => Token.IsWritten text.toList token)
      (f := floatText) (g := .number) fun y hy =>
        Token.isWritten_number (hfinite y (List.mem_toArray.mpr hy))
    exact argumentsOf_argumentChars hwritten

/-- A literal can stand at the end of a line. -/
theorem isBareLine (h : value.IsLiteral) (hfinite : ∀ x ∈ value.floats, x.isFinite = true)
    {text : List Char} (htext : PlainText text) : IsBareLine (text ++ value.literalText.toList) := by
  cases h with
  | quoted hquoted => exact htext.isBareLine_quoted hquoted
  | numbers htype hcount =>
    refine (htext.append (plainText_commaList fun number hnumber => ?_)).isBareLine
    obtain ⟨x, hx, rfl⟩ := List.mem_map.mp hnumber
    exact plainText_floatText (hfinite x (Array.mem_toList_iff.mp hx))

end Value.IsLiteral

namespace Draft

variable {value : Value} {type : ElementType} {floats : List Float32}

theorem numbers_map : numbers (floats.map .number) = .ok floats := by
  rw [numbers, List.mapM_map]
  exact (mapM_of_eq_ok (g := id) fun _ _ => rfl).trans (congrArg Except.ok (List.map_id floats))

theorem literal_eq (htype : type ≠ .string) (hcount : floats.length = type.components) :
    literal type floats = .ok (Value.ofNumbers type floats) := by
  unfold literal
  dsimp only
  split
  next x htriple =>
    -- one number does not fill a triple
    have hthree : type.components = 3 := beq_iff_eq.mp htriple
    rw [hthree] at hcount
    cases hcount
  next =>
    rw [if_pos ⟨htype, hcount⟩]
    rfl

theorem default?_tokens (h : value.IsLiteral) :
    default? value.type value.tokens = .ok (some value) := by
  cases h with
  | quoted => rfl
  | @numbers type floats htype hcount =>
    have hliteral := literal_eq htype hcount
    show default? type (floats.map .number) = _
    obtain ⟨x, xs, rfl⟩ := exists_cons_of_components htype hcount
    have hread : default? type ((x :: xs).map .number)
        = (do return some (← literal type (← numbers ((x :: xs).map .number)))) := by
      cases type <;> rfl
    rw [hread, numbers_map]
    show (do return some (← literal type (x :: xs))) = _
    rw [hliteral]
    rfl

theorem inGroups_eq_self {α : Type} {width : Nat} {xs : List α} (h : xs.length = width)
    (hpos : 0 < width) : inGroups width xs = [xs] := by
  have hcount : (xs.length + width - 1) / width = 1 := by
    rw [h, Nat.div_eq_iff hpos]
    omega
  rw [inGroups, hcount, List.range_one, List.map_singleton, Nat.zero_mul, List.drop_zero, ← h,
    List.take_length]

theorem wordAt_eq {arguments : List Token} {n : Nat} {part : DirectivePart} {text : String}
    (h : arguments[n]? = some (.word text)) : wordAt arguments n part = .ok text := by
  rw [wordAt, h]

theorem oneAt_name {α : Type} [DecidableEq α] [Vocabulary α] [LawfulVocabulary α]
    {arguments : List Token} {n : Nat} {part : DirectivePart} (word : α)
    (h : arguments[n]? = some (.word (Vocabulary.name word))) :
    oneAt arguments n part = .ok word := by
  simp only [oneAt, wordAt_eq h, bind_eq_ok]
  refine ⟨_, rfl, ?_⟩
  rw [Vocabulary.ofName?_name]
  rfl

theorem constantList_tokens (h : value.IsLiteral) :
    constantList (.word (Vocabulary.name value.type) :: value.tokens) = .ok [value] := by
  simp only [constantList, bind_eq_ok]
  refine ⟨value.type, oneAt_name value.type rfl, ?_⟩
  rw [List.drop_one, List.tail_cons]
  cases h with
  | quoted => rfl
  | @numbers type floats htype hcount =>
    obtain ⟨x, xs, rfl⟩ := exists_cons_of_components htype hcount
    -- the numbers of one literal are one group
    have hgroups := inGroups_eq_self hcount (by rw [← hcount]; exact Nat.succ_pos _)
    show (if type = .string then _ else _) = _
    rw [if_neg htype]
    simp only [bind_eq_ok]
    refine ⟨x :: xs, numbers_map, ?_⟩
    have hwhole : ¬ ((x :: xs).isEmpty = true ∨ (x :: xs).length % type.components ≠ 0) := by
      simp [hcount]
    refine (if_neg hwhole).trans ?_
    show (inGroups type.components (x :: xs)).mapM (literal type) = _
    rw [hgroups]
    simp only [List.mapM_cons, List.mapM_nil, bind_eq_ok, pure_eq_ok]
    exact ⟨_, literal_eq htype hcount, [], rfl, rfl⟩

end Draft

/-! ### Lines of declarations -/

/-- The characters of a literal at the end of a line, if there is one. -/
def literalChars (value : Option Value) : List Char :=
  (value.map fun value => ' ' :: value.literalText.toList).getD []

def literalTokens (value : Option Value) : List Token := (value.map Value.tokens).getD []

/-- The arguments of the directive that declares a symbol. -/
def Symbol.tokens (symbol : Symbol) : List Token :=
  .word (Vocabulary.name symbol.storage) :: .word (Vocabulary.name symbol.type) ::
    .word symbol.name :: literalTokens symbol.default

namespace Draft

variable {draft : Draft}

theorem symbol_tokens {symbol : Symbol} (h : symbol.IsDeclared) :
    Draft.symbol symbol.kind symbol.tokens = .ok symbol := by
  have hdefault : default? symbol.type (symbol.tokens.drop 3) = .ok symbol.default := by
    show default? symbol.type (literalTokens symbol.default) = _
    cases hvalue : symbol.default with
    | none => rfl
    | some value =>
      obtain ⟨hliteral, htype⟩ := h.default_isLiteral value hvalue
      rw [← htype]
      exact default?_tokens hliteral
  simp only [Draft.symbol, bind_eq_ok, pure_eq_ok]
  exact ⟨symbol.storage, oneAt_name symbol.storage rfl, symbol.type, oneAt_name symbol.type rfl,
    symbol.name, wordAt_eq rfl, symbol.default, hdefault, rfl⟩

theorem directive_symbol {symbol : Symbol} (h : symbol.IsDeclared)
    (hname : symbol.name ∉ draft.symbols.symbols.toList.map Symbol.name) :
    draft.directive (Vocabulary.name symbol.kind) symbol.tokens
      = .ok { draft with symbols := ⟨draft.symbols.symbols.push symbol⟩ } := by
  have hinsert := SymbolTable.insert?_eq_some.mpr ⟨hname, rfl⟩
  simp only [directive, Vocabulary.ofName?_name, symbol_tokens h, bind_eq_ok, mapError_eq_ok]
  refine ⟨symbol, rfl, ?_⟩
  rw [hinsert]
  rfl

theorem directive_title (kind : ShaderKind) (name : String) :
    draft.directive "shader" [.word (Vocabulary.name kind), .word name]
      = .ok { draft with kind := kind, name := name } := by
  have hnone : (Vocabulary.ofName? "shader" : Option SymbolKind) = none := by decide
  simp only [directive, hnone, mapError_eq_ok, bind_eq_ok, pure_eq_ok]
  exact ⟨kind, oneAt_name kind rfl, name, wordAt_eq rfl, rfl⟩

theorem directive_constant {value : Value} (h : value.IsLiteral) :
    draft.directive "constant" (.word (Vocabulary.name value.type) :: value.tokens)
      = .ok { draft with constants := draft.constants.push value } := by
  have hnone : (Vocabulary.ofName? "constant" : Option SymbolKind) = none := by decide
  simp only [directive, hnone, mapError_eq_ok, bind_eq_ok, pure_eq_ok]
  exact ⟨[value], constantList_tokens h, by simp⟩

end Draft

/-- Words, each after a blank, and what follows them. -/
theorem moreOf_words {words : List String} {text : List Char} {tokens : List Token}
    (hwords : ∀ word ∈ words, IsName word) (hrest : MoreOf Token.IsWritten text tokens) :
    MoreOf Token.IsWritten ((words.flatMap fun word => ' ' :: word.toList) ++ text)
      (words.map .word ++ tokens) := by
  induction words with
  | nil => exact hrest
  | cons word words ih =>
    obtain ⟨hword, hwords⟩ := List.forall_mem_cons.mp hwords
    rw [List.flatMap_cons, List.append_assoc, List.cons_append]
    exact .blank (.word hword) (ih hwords)

theorem plainText_words {words : List String} (hwords : ∀ word ∈ words, IsName word) :
    PlainText (words.flatMap fun word => ' ' :: word.toList) := by
  intro c hc
  obtain ⟨word, hword, hc⟩ := List.mem_flatMap.mp hc
  exact PlainText.cons rfl (hwords word hword).plainText c hc

namespace Reads

variable {draft next : Draft}

/-- A directive with words for arguments, and perhaps a literal behind them. -/
theorem directive {text : String} (name first : String) (words : List String)
    (value : Option Value) (hname : IsName name)
    (hwords : ∀ word ∈ first :: words, IsName word)
    (hvalue : ∀ v, value = some v → v.IsLiteral ∧ ∀ x ∈ v.floats, x.isFinite = true)
    (hchars : text.toList = '.' :: (name.toList ++
      (((first :: words).flatMap fun word => ' ' :: word.toList) ++ literalChars value)))
    (hdirective : draft.directive name ((first :: words).map .word ++ literalTokens value)
      = .ok next) :
    Reads (· = draft) [text] (· = next) := by
  have hliteral : MoreOf Token.IsWritten (literalChars value) (literalTokens value) := by
    cases value with
    | none => exact .nil
    | some v =>
      obtain ⟨hv, hfinite⟩ := hvalue v rfl
      exact (hv.argumentsOf hfinite).moreOf
  -- names are plain, so that only a literal can hold what would begin a comment
  have hbare : IsBareLine text.toList := by
    have hplain := (hname.plainText.append (plainText_words hwords)).cons (c := '.') rfl
    rw [hchars, ← List.append_assoc, ← List.cons_append]
    cases value with
    | none =>
      rw [show literalChars none = [] from rfl, List.append_nil]
      exact hplain.isBareLine
    | some v =>
      obtain ⟨hv, hfinite⟩ := hvalue v rfl
      have hblank : PlainText [' '] := by simp [PlainText, isPlain]
      have hline := hv.isBareLine hfinite (hplain.append hblank)
      rwa [List.append_assoc, List.singleton_append] at hline
  have harguments : ArgumentsOf Token.IsWritten
      (((first :: words).flatMap fun word => ' ' :: word.toList) ++ literalChars value)
      ((first :: words).map .word ++ literalTokens value) := by
    obtain ⟨hfirst, hwords⟩ := List.forall_mem_cons.mp hwords
    rw [List.flatMap_cons, List.append_assoc, List.cons_append]
    exact .blank (.word hfirst) (moreOf_words hwords hliteral)
  have hparse := Line.parse?_directive hname harguments
  rw [← hchars] at hparse
  refine line hbare hparse fun draft number hdraft => ?_
  subst hdraft
  refine ⟨next, ?_, rfl⟩
  show (draft.directive name _).mapError Failure.error = _
  rw [hdirective]
  rfl

theorem title {shader : Shader} (hname : IsName shader.name) :
    Reads (· = draft) [shader.titleLine]
      (· = { draft with kind := shader.kind, name := shader.name }) := by
  have hkind := Vocabulary.isName_name shader.kind
  refine directive "shader" (Vocabulary.name shader.kind) [shader.name] none
    (isName_of_passes rfl) (by simp [hkind, hname]) (by simp) ?_
    (Draft.directive_title shader.kind shader.name)
  simp [Shader.titleLine, literalChars]

theorem symbol {symbol : Symbol} (h : symbol.IsDeclared)
    (hfinite : ∀ value, symbol.default = some value → ∀ x ∈ value.floats, x.isFinite = true)
    (hname : symbol.name ∉ draft.symbols.symbols.toList.map Symbol.name) :
    Reads (· = draft) [symbol.line]
      (· = { draft with symbols := ⟨draft.symbols.symbols.push symbol⟩ }) := by
  have hstorage := Vocabulary.isName_name symbol.storage
  have htype := Vocabulary.isName_name symbol.type
  refine directive (Vocabulary.name symbol.kind) (Vocabulary.name symbol.storage)
    [Vocabulary.name symbol.type, symbol.name] symbol.default
    (Vocabulary.isName_name symbol.kind) (by simp [hstorage, htype, h.isName])
    (fun value hvalue => ⟨(h.default_isLiteral value hvalue).1, hfinite value hvalue⟩) ?_
    (Draft.directive_symbol h hname)
  unfold Symbol.line literalChars
  cases symbol.default <;> simp

theorem constant {value : Value} (h : value.IsLiteral)
    (hfinite : ∀ x ∈ value.floats, x.isFinite = true) :
    Reads (· = draft) [value.line] (· = { draft with constants := draft.constants.push value }) := by
  have htype := Vocabulary.isName_name value.type
  refine directive "constant" (Vocabulary.name value.type) [] (some value)
    (isName_of_passes rfl) (by simp [htype]) (by rintro _ ⟨⟩; exact ⟨h, hfinite⟩) ?_
    (Draft.directive_constant h)
  simp [Value.line, literalChars]

end Reads

/-! ### Lines of operations -/

theorem isName_labelText (offset : Nat) : IsName (Shader.labelText offset) := by
  refine ⟨'L', offset.repr.toList, by simp [Shader.labelText], rfl, fun c hc => ?_⟩
  rw [Nat.toList_repr] at hc
  have hdigit := Nat.isDigit_of_mem_toDigits (by decide) (by decide) hc
  simp [isNamePart, Char.isAlphanum, hdigit]

namespace Part

variable {constants : Nat} {table : SymbolTable} {part : Part}

/-- The operand that a part is read as. -/
def operand (table : SymbolTable) : Part → Operand
  | .name text => .word text
  | .address (.constant i) => .constant i
  | .address (.symbol i) => .symbolNamed ((table.name? i).getD i.repr)
  | .address (.temporary i) => .temporary i

/-- A part that the line of a valid operation can have. -/
def IsListed (constants : Nat) (table : SymbolTable) : Part → Prop
  | .name text => IsName text
  | .address place => place.IsIn constants table.size

theorem isName_symbol (hnames : ∀ symbol ∈ table.symbols, IsName symbol.name) {i : Nat}
    (hi : i < table.size) : IsName ((table.name? i).getD i.repr) := by
  have hget : table.symbols[i]? = some (table.symbols[i]) := Array.getElem?_eq_getElem hi
  rw [SymbolTable.name?, hget]
  exact hnames _ (Array.getElem_mem hi)

theorem IsListed.isWritten (h : part.IsListed constants table)
    (hnames : ∀ symbol ∈ table.symbols, IsName symbol.name) :
    Operand.IsWritten (part.text table).toList (part.operand table) := by
  cases part with
  | name text => exact .word h
  | address place =>
    have hindex : place.index < UInt32.size := Nat.lt_trans h.1 (by decide)
    cases place with
    | constant i => exact Operand.isWritten_constant hindex
    | symbol i => exact Operand.isWritten_symbolNamed (isName_symbol hnames h.2)
    | temporary i => exact Operand.isWritten_temporary hindex

end Part

theorem Operation.IsValid.isListed {constants : Nat} {table : SymbolTable}
    {operation : Operation Nat} (h : operation.IsValid constants table.size) :
    ∀ part ∈ operation.parts, part.IsListed constants table := by
  have haddresses : ∀ addresses : List Address, (∀ place ∈ addresses, place ∈ operation.addresses) →
      ∀ part ∈ addresses.map Part.address, part.IsListed constants table := by
    intro addresses hmem part hpart
    obtain ⟨place, hplace, rfl⟩ := List.mem_map.mp hpart
    exact h.isIn place (hmem place hplace)
  cases operation with
  | jump condition target => exact List.forall_mem_singleton.mpr (isName_labelText target)
  | call function result arguments =>
    exact List.forall_mem_cons.mpr ⟨Vocabulary.isName_name function,
      haddresses (result :: arguments) fun _ hplace => hplace⟩
  | convert key result source type =>
    have htype : (Part.name (Vocabulary.name type)).IsListed constants table :=
      Vocabulary.isName_name type
    exact List.forall_mem_append.mpr ⟨haddresses [result, source] fun _ hplace => hplace,
      List.forall_mem_singleton.mpr htype⟩
  | plain opcode key operands => exact haddresses operands fun _ hplace => hplace

/-- The key as it stands in a line, if there is one. -/
def Key.text? (key : Key) : Option String := if key = Key.none then Option.none else some key.text

theorem Opcode.Takes.readKey_text? {opcode : Opcode} {key : Key} (h : opcode.Takes key) :
    Draft.readKey opcode key.text? = .ok key ∧ IsKeyText key.text? := by
  unfold Opcode.Takes at h
  unfold Draft.readKey
  cases hrequires : opcode.requiresKey with
  | false =>
    rw [hrequires] at h
    obtain rfl : key = Key.none := h
    exact ⟨rfl, fun text htext => (by cases htext)⟩
  | true =>
    rw [hrequires] at h
    obtain ⟨hwritten, hshape⟩ := h
    obtain ⟨hparse, htext⟩ := hwritten.parse?_text
    have hkey : key.text? = some key.text := if_neg hwritten.ne_none
    rw [hkey]
    refine ⟨?_, htext⟩
    simp only [hparse, hshape, if_true]

theorem Instruction.toList_text (instruction : Instruction) : instruction.text.toList
    = (Vocabulary.name instruction.opcode).toList ++ keyChars instruction.key.text? := by
  unfold Instruction.text Key.text?
  split <;> simp [keyChars]

namespace Operation

variable {constants : Nat} {table : SymbolTable} {operation : Operation Nat}

/-- What the line of an operation says. -/
def statement (table : SymbolTable) (operation : Operation Nat) : Statement :=
  .operation (Vocabulary.name operation.instruction.opcode) operation.instruction.key.text?
    (operation.parts.map (Part.operand table))

theorem toList_line (table : SymbolTable) (operation : Operation Nat) :
    (operation.line table).toList = ' ' :: ' ' ::
      ((Vocabulary.name operation.instruction.opcode).toList ++ (keyChars
        operation.instruction.key.text? ++ argumentChars (operation.parts.map (Part.text table)))) := by
  unfold line argumentChars
  cases operation.parts.map (Part.text table) <;> simp [Instruction.toList_text]

theorem argumentsOf (h : operation.IsValid constants table.size)
    (hnames : ∀ symbol ∈ table.symbols, IsName symbol.name) :
    ArgumentsOf Operand.IsWritten (argumentChars (operation.parts.map (Part.text table)))
      (operation.parts.map (Part.operand table)) :=
  argumentsOf_argumentChars (forall₂_map fun part hpart => (h.isListed part hpart).isWritten hnames)

/-- The line of an operation is read as what it says. -/
theorem parse?_line (h : operation.IsValid constants table.size)
    (hnames : ∀ symbol ∈ table.symbols, IsName symbol.name) :
    IsBareLine (operation.line table).toList ∧
      Line.parse? (operation.line table).toList = some ⟨none, some (operation.statement table)⟩ := by
  have hmnemonic := Vocabulary.isName_name operation.instruction.opcode
  have hkey := h.isComplete.takes.readKey_text?.2
  rw [toList_line]
  refine ⟨?_, Line.parse?_operation hmnemonic hkey (argumentsOf h hnames)⟩
  have hplain := plainText_keyChars hkey
  have harguments : PlainText (argumentChars (operation.parts.map (Part.text table))) := by
    refine plainText_argumentChars fun text htext => ?_
    obtain ⟨part, hpart, rfl⟩ := List.mem_map.mp htext
    exact ((h.isListed part hpart).isWritten hnames).plainText
  exact (((hmnemonic.plainText.append (hplain.append harguments)).cons rfl).cons rfl).isBareLine

end Operation

/-! ### What operation lines add -/

theorem SymbolTable.slot?_name {table : SymbolTable}
    (hdistinct : (table.symbols.toList.map Symbol.name).Nodup) {i : Nat} (hi : i < table.size) :
    table.slot? ((table.name? i).getD i.repr) = some i := by
  have hname : table.name? i = some (table.symbols[i]).name := by
    rw [name?, Array.getElem?_eq_getElem hi]
    rfl
  rw [hname, Option.getD_some, slot?_eq_some hdistinct, hname]

namespace Draft

variable {draft : Draft} {line : Nat} {operation : Operation Nat}

theorem temporariesFor_operand (table : SymbolTable) (place : Address) :
    temporariesFor ((Part.address place).operand table) = place.temporariesFor := by
  cases place <;> rfl

/-- The operands of a line call for the temporaries of its operation. -/
theorem temporariesFor_parts (table : SymbolTable) (operation : Operation Nat) (n : Nat) :
    ((operation.parts.map (Part.operand table)).map temporariesFor).foldl max n
      = (operation.addresses.map Address.temporariesFor).foldl max n := by
  have hname : ∀ text, temporariesFor ((Part.name text).operand table) = 0 := fun _ => rfl
  cases operation <;>
    simp [Operation.parts, Operation.addresses, temporariesFor_operand, hname, Function.comp_def]

variable (hdistinct : (draft.symbols.symbols.toList.map Symbol.name).Nodup)

include hdistinct

theorem address_operand {place : Address} (h : place.IsIn draft.constants.size draft.symbols.size) :
    draft.address ((Part.address place).operand draft.symbols) = .ok place := by
  cases place with
  | constant i => exact if_pos h.2
  | symbol i =>
    simp only [Part.operand, address, SymbolTable.slot?_name hdistinct h.2]
  | temporary i => rfl

theorem addressWord_operand {place : Address}
    (h : place.IsIn draft.constants.size draft.symbols.size) :
    draft.addressWord ((Part.address place).operand draft.symbols) = .ok place.word :=
  addressWord_eq_ok.mpr ⟨place, address_operand hdistinct h, h.1, rfl⟩

theorem addressSlots_operands {addresses : List Address}
    (h : ∀ place ∈ addresses, place.IsIn draft.constants.size draft.symbols.size) :
    draft.addressSlots ((addresses.map Part.address).map (Part.operand draft.symbols))
      = .ok (addresses.map (Slot.word ·.word)) := by
  refine addressSlots_eq_ok.mpr ⟨addresses, ?_, fun place hplace => (h place hplace).1, rfl⟩
  rw [List.map_map, List.mapM_map]
  exact (mapM_of_eq_ok (g := id) fun place hplace => address_operand hdistinct (h place hplace)).trans
    (congrArg Except.ok (List.map_id addresses))

/-- **Operation lines.**  The line of an operation gives back its slots. -/
theorem emit_parts (hvalid : operation.IsValid draft.constants.size draft.symbols.size) :
    draft.emit line (Vocabulary.name operation.instruction.opcode)
        operation.instruction.key.text? (operation.parts.map (Part.operand draft.symbols))
      = .ok (operation.map fun target => (Shader.labelText target, line)).slots := by
  have hkey := hvalid.isComplete.takes.readKey_text?.1
  have hin := hvalid.isIn
  refine emit_eq_ok.mpr ⟨operation.instruction.opcode, operation.instruction.key,
    (operation.map fun target => (Shader.labelText target, line)).slots.tail,
    Vocabulary.ofName?_name _, hkey, ?_, ?_, by cases operation <;> rfl⟩
  · -- there are as many operands as the opcode asks for
    cases operation with
    | jump condition target => rfl
    | call function result arguments => simp [Operation.parts, Operation.instruction,
        Instruction.plain, Opcode.operandCount?]
    | convert key result source type => rfl
    | plain opcode key operands =>
      have hcount : opcode.operandCount? = some operands.length := hvalid.isComplete.2.2
      simp [Operation.parts, Operation.instruction, hcount]
  · -- each operand is read back as the slot that it was written for
    cases operation with
    | jump condition target => rfl
    | call function result arguments =>
      obtain ⟨hresult, harguments⟩ := List.forall_mem_cons.mp hin
      obtain ⟨hleast, hmost⟩ := hvalid.isComplete
      refine operandSlots_call.mpr ⟨_, function, result.word, _, rfl,
        Vocabulary.ofName?_name function, ?_, ?_, addressWord_operand hdistinct hresult,
        addressSlots_operands hdistinct harguments, ?_⟩
      · simpa using hleast
      · simpa using hmost
      · simp [Operation.map, Operation.slots, Operation.layout]
    | convert key result source type =>
      exact operandSlots_convert.mpr ⟨[.word result.word, .word source.word], _, type,
        addressSlots_operands hdistinct hin, rfl, Vocabulary.ofName?_name type, rfl⟩
    | plain opcode key operands =>
      show draft.operandSlots line opcode _ = _
      rw [operandSlots_plain hvalid.isComplete.1]
      exact addressSlots_operands hdistinct hin

end Draft

namespace Reads

variable {P Q : Draft → Prop}

/-- The line of a label that is new marks the end of the code so far. -/
theorem label {name : String} (hname : IsName name)
    (h : ∀ draft, P draft → draft.labels.contains name = false ∧
      Q { draft with labels := draft.labels.insert name draft.code.size }) :
    Reads P [name ++ ":"] Q := by
  have hchars : (name ++ ":").toList = name.toList ++ [':'] := by simp
  have hplain : PlainText (name ++ ":").toList := by
    rw [hchars]
    exact hname.plainText.append (by simp [PlainText, isPlain])
  have hparse := Line.parse?_label hname
  rw [← hchars] at hparse
  refine line hplain.isBareLine hparse fun draft number hP => ?_
  obtain ⟨hnew, hQ⟩ := h draft hP
  refine ⟨_, ?_, hQ⟩
  show (draft.mark name).mapError Failure.error >>= pure = _
  rw [Draft.mark_eq_ok.mpr ⟨hnew, rfl⟩]
  rfl

/-- The line of an operation adds its slots, and as many temporaries as it addresses. -/
theorem operation {operation : Operation Nat} {constants : Nat} {table : SymbolTable}
    (hvalid : operation.IsValid constants table.size)
    (hnames : ∀ symbol ∈ table.symbols, IsName symbol.name)
    (hdistinct : (table.symbols.toList.map Symbol.name).Nodup)
    (h : ∀ draft number, P draft → draft.constants.size = constants ∧ draft.symbols = table ∧
      Q { draft with
        code := draft.code ++ (operation.map fun target => (Shader.labelText target, number)).slots
        temporaries :=
          (operation.addresses.map Address.temporariesFor).foldl max draft.temporaries }) :
    Reads P [operation.line table] Q := by
  obtain ⟨hbare, hparse⟩ := Operation.parse?_line hvalid hnames
  refine line hbare hparse fun draft number hP => ?_
  obtain ⟨rfl, rfl, hQ⟩ := h draft number hP
  refine ⟨_, ?_, hQ⟩
  show draft.addStatement number (operation.statement draft.symbols) = _
  simp only [Operation.statement, Draft.addStatement, Draft.emit_parts hdistinct hvalid,
    Draft.temporariesFor_parts]
  rfl

end Reads

end Shading
