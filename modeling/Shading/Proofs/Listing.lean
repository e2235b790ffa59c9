import Shading.Assembly.Listing
import Shading.Proofs.Operations

namespace Shading

/-!
# What a listing says

The listing of an assembled shader, line by line: its declarations, then each operation at its offset,
with a label at each offset that a jump leads to.

* `Operation.located` — operations with their offsets, and `walk_eq`: a walk meets just these;
* `Operation.IsBoundary.mem_places` — a boundary is one of these offsets or the end;
* `Operation.line` — the line of an operation, and `Shader.instructionText_eq`;
* `Value.literalText`, `Symbol.line` — the texts of declarations;
* `Shader.IsMadeOf.listing_eq` — the listing as a whole.
-/

/-! ### Where operations stand -/

namespace Operation

variable {code : Array Word} {ip : Nat} {operation : Operation Nat} {operations : List (Operation Nat)}

/-- Operations with their offsets, from a given one on. -/
def located : Nat → List (Operation Nat) → List (Nat × Operation Nat)
  | _, [] => []
  | ip, operation :: rest => (ip, operation) :: located (ip + operation.size) rest

/-- The words of the operation stand in the code from an offset on. -/
def StandsAt (code : Array Word) (ip : Nat) (operation : Operation Nat) : Prop :=
  ∃ after, code.toList.drop ip = operation.words ++ after

theorem length_words : operation.words.length = operation.size := length_layout _ _ operation

theorem StandsAt.getElem?_eq (h : operation.StandsAt code ip) {n : Nat} (hn : n < operation.size) :
    code[ip + n]? = operation.words[n]? := by
  obtain ⟨after, hafter⟩ := h
  rw [← Array.getElem?_toList, ← List.getElem?_drop, hafter,
    List.getElem?_append_left (length_words.symm ▸ hn)]

theorem StandsAt.fetch_eq (h : operation.StandsAt code ip) {n : Nat} {word : Word}
    (hword : operation.words[n]? = some word) : fetch code (ip + n) = .ok word := by
  have hn : n < operation.size := length_words ▸ (List.getElem?_eq_some_iff.mp hword).1
  rw [Shading.fetch_eq, h.getElem?_eq hn, hword]

theorem StandsAt.size_le (h : operation.StandsAt code ip) : ip + operation.size ≤ code.size := by
  obtain ⟨after, hafter⟩ := h
  have hlength := congrArg List.length hafter
  have hpos := operation.size_pos
  rw [List.length_drop, List.length_append, length_words, Array.length_toList] at hlength
  omega

theorem located_standsAt (hcode : code.toList.drop ip = operations.flatMap words) :
    ∀ place ∈ located ip operations, place.2.StandsAt code place.1 ∧ place.2 ∈ operations := by
  induction operations generalizing ip with
  | nil => simp [located]
  | cons first rest ih =>
    rw [List.flatMap_cons] at hcode
    have hrest : code.toList.drop (ip + first.size) = rest.flatMap words := by
      rw [← List.drop_drop, hcode, ← length_words, List.drop_left]
    rw [located, List.forall_mem_cons]
    refine ⟨⟨⟨_, hcode⟩, List.mem_cons_self⟩, fun place hplace => ?_⟩
    obtain ⟨hstands, hmem⟩ := ih hrest place hplace
    exact ⟨hstands, List.mem_cons_of_mem _ hmem⟩

/-- What a complete operation has for a key can be decoded. -/
theorem IsComplete.isWellFormed (h : operation.IsComplete) :
    operation.instruction.key.isWellFormed = true := by
  have htakes := h.takes
  unfold Opcode.Takes at htakes
  split at htakes
  next => exact htakes.1.isWellFormed
  next => exact htakes ▸ Key.isWellFormed_none

theorem arity_lt (function : Builtin) : function.arity.2 < 4294967296 := by
  cases function <;> exact Nat.le_of_ble_eq_true rfl

theorem IsComplete.toNat_count {function : Builtin} {result : Address} {arguments : List Address}
    (h : (call function result arguments : Operation Nat).IsComplete) :
    (UInt32.ofNat arguments.length).toNat = arguments.length := by
  have hlt := Nat.lt_of_le_of_lt h.2 (arity_lt function)
  exact UInt32.toNat_ofNat_of_lt' hlt

/-- An instruction takes the words of its operation. -/
theorem StandsAt.instructionSize_eq (h : operation.StandsAt code ip) (hcomplete : operation.IsComplete) :
    instructionSize code ip operation.instruction.opcode = .ok operation.size := by
  cases operation with
  | jump condition target => rfl
  | call function result arguments =>
    have hcount : fetch code (ip + 3) = .ok (UInt32.ofNat arguments.length) := h.fetch_eq rfl
    show (do return 4 + (← fetch code (ip + 3)).toNat) = _
    rw [hcount]
    show Except.ok (4 + (UInt32.ofNat arguments.length).toNat) = _
    rw [hcomplete.toNat_count]
    rfl
  | convert key result source type => rfl
  | plain opcode key operands =>
    show instructionSize code ip opcode = _
    rw [instructionSize, hcomplete.2.2]
    rfl

theorem walkFrom_eq {count : Nat} (hcode : code.toList.drop ip = operations.flatMap words)
    (hcomplete : ∀ operation ∈ operations, operation.IsComplete)
    (hcount : operations.length ≤ count) :
    walkFrom code count ip
      = .ok ⟨(located ip operations).map fun place => (place.1, place.2.instruction), none⟩ := by
  -- operations have at least one word each, so the count is no limit to them
  induction operations generalizing ip count with
  | nil =>
    have hend : ¬ ip < code.size := by
      have hlength := congrArg List.length hcode
      simp at hlength
      omega
    cases count with
    | zero => rfl
    | succ count => rw [walkFrom, dif_neg hend]; rfl
  | cons first rest ih =>
    obtain ⟨hfirst, hrest⟩ := List.forall_mem_cons.mp hcomplete
    have hstands : first.StandsAt code ip := ⟨_, hcode⟩
    have hcode' : code.toList.drop (ip + first.size) = rest.flatMap words := by
      rw [← List.drop_drop, hcode, List.flatMap_cons, ← length_words, List.drop_left]
    obtain ⟨count, rfl⟩ : ∃ n, count = n + 1 := Nat.exists_eq_add_one.mpr (by simp at hcount; omega)
    have hlt : ip < code.size := by
      have hsize := hstands.size_le
      have hpos := first.size_pos
      omega
    have hword : code[ip] = first.instruction.encode := by
      have hget : code[ip]? = some first.instruction.encode := hstands.getElem?_eq first.size_pos
      exact (Array.getElem?_eq_some_iff.mp hget).2
    rw [walkFrom, dif_pos hlt, hword, Instruction.decode_encode hfirst.isWellFormed]
    simp only [bind_eq_ok, pure_eq_ok]
    exact ⟨_, hstands.instructionSize_eq hfirst, _,
      ih hcode' hrest (Nat.le_of_succ_le_succ hcount), rfl⟩

theorem map_snd_located : (located ip operations).map Prod.snd = operations := by
  induction operations generalizing ip with
  | nil => rfl
  | cons first rest ih => rw [located, List.map_cons, ih]

theorem length_le_totalSize : operations.length ≤ totalSize operations := by
  induction operations with
  | nil => exact Nat.le_refl 0
  | cons first rest ih =>
    have hpos := first.size_pos
    simp only [totalSize, List.map_cons, List.sum_cons, List.length_cons] at *
    omega

theorem totalSize_cons {τ : Type} (first : Operation τ) (rest : List (Operation τ)) :
    totalSize (first :: rest) = first.size + totalSize rest := by
  simp [totalSize]

/-- Operations stand behind the ones before them. -/
theorem located_split {start ip : Nat} {operation : Operation Nat}
    {before after : List (Nat × Operation Nat)}
    (h : located start operations = before ++ (ip, operation) :: after) :
    ip = start + totalSize (before.map Prod.snd) ∧ ∀ place ∈ before.map Prod.fst, place < ip := by
  induction before generalizing start operations with
  | nil =>
    cases operations with
    | nil => cases h
    | cons first rest =>
      obtain ⟨hplace, -⟩ := List.cons.inj h
      obtain ⟨rfl, -⟩ := Prod.mk.inj hplace
      exact ⟨rfl, by simp⟩
  | cons place before ih =>
    cases operations with
    | nil => cases h
    | cons first rest =>
      obtain ⟨rfl, hrest⟩ := List.cons.inj h
      obtain ⟨hip, hbefore⟩ := ih hrest
      have hpos := first.size_pos
      rw [List.map_cons, totalSize_cons]
      refine ⟨by rw [hip]; exact Nat.add_assoc _ _ _, List.forall_mem_cons.mpr ⟨?_, hbefore⟩⟩
      show start < ip
      omega

theorem lt_totalSize_of_mem {place : Nat} (h : place ∈ (located 0 operations).map Prod.fst) :
    place < totalSize operations := by
  obtain ⟨⟨_, operation⟩, hmem, rfl⟩ := List.mem_map.mp h
  obtain ⟨before, after, hsplit⟩ := List.append_of_mem hmem
  obtain ⟨rfl, -⟩ := located_split hsplit
  have htotal : totalSize operations = totalSize (before.map Prod.snd) +
      (operation.size + totalSize (after.map Prod.snd)) := by
    conv_lhs => rw [← @map_snd_located 0 operations, hsplit]
    simp [totalSize]
  have hpos := operation.size_pos
  omega

/-- A boundary is the offset of an operation or the end. -/
theorem mem_places {start : Nat} {before after : List (Operation Nat)}
    (h : operations = before ++ after) :
    start + totalSize before ∈ (located start operations).map Prod.fst ++
      [start + totalSize operations] := by
  induction before generalizing start operations with
  | nil =>
    cases after with
    | nil => simp [h]
    | cons first after =>
      subst h
      exact List.mem_cons_self
  | cons first before ih =>
    subst h
    have hrest := @ih (before ++ after) (start + first.size) rfl
    rw [List.cons_append, totalSize_cons, totalSize_cons, ← Nat.add_assoc, ← Nat.add_assoc]
    exact List.mem_cons_of_mem _ hrest

theorem IsBoundary.mem_places {offset : Nat} (h : IsBoundary operations offset) :
    offset ∈ (located 0 operations).map Prod.fst ++ [totalSize operations] := by
  obtain ⟨before, after, hsplit, rfl⟩ := h
  have hmem := @Operation.mem_places operations 0 before after hsplit
  rwa [Nat.zero_add, Nat.zero_add] at hmem

end Operation

/-! ### The lines of operations -/

/-- An operand as it is listed. -/
inductive Part
  | name (text : String)
  | address (address : Address)

/-- The text of an address: a symbol is named. -/
def SymbolTable.addressText (table : SymbolTable) : Address → String
  | .symbol i => "@" ++ (table.name? i).getD i.repr
  | address => address.text

def Part.text (table : SymbolTable) : Part → String
  | .name text => text
  | .address place => table.addressText place

namespace Operation

/-- The operands of an operation, in the order in which they are listed. -/
def parts : Operation Nat → List Part
  | jump _ target => [.name (Shader.labelText target)]
  | call function result arguments =>
    .name (Vocabulary.name function) :: .address result :: arguments.map .address
  | convert _ result source type =>
    [.address result, .address source, .name (Vocabulary.name type)]
  | plain _ _ operands => operands.map .address

/-- The line of an operation. -/
def line (table : SymbolTable) (operation : Operation Nat) : String :=
  match operation.parts.map (Part.text table) with
  | [] => "  " ++ operation.instruction.text
  | texts => "  " ++ operation.instruction.text ++ " " ++ String.intercalate ", " texts

end Operation

namespace Shader

variable {shader : Shader} {ip : Nat} {operation : Operation Nat}

theorem addressText_word {address : Address} (h : address.index < 0x40000000) :
    shader.addressText address.word = shader.symbols.addressText address := by
  rw [addressText, Address.decode?_word h]
  cases address <;> rfl

theorem codeText_code {α : Type} [DecidableEq α] [Vocabulary α] [LawfulVocabulary α] (word : α) :
    codeText α (UInt32.ofNat (Vocabulary.code word)) = Vocabulary.name word := by
  have hlt := Vocabulary.code_lt word
  have hcode : (UInt32.ofNat (Vocabulary.code word)).toNat % 256 = Vocabulary.code word := by
    rw [UInt32.toNat_ofNat']
    omega
  rw [codeText, hcode, Vocabulary.ofCode?_code]

/-- Addresses among the words from an offset on. -/
theorem addressTexts_words {before words after : List Word} (hip : ip ≤ shader.code.size)
    (h : shader.code.toList.drop ip = before ++ (words ++ after)) :
    shader.addressTexts ip before.length words.length = .ok (words.map shader.addressText) := by
  have hle : ip + before.length + words.length ≤ shader.code.size := by
    have hlength := congrArg List.length h
    simp only [List.length_drop, List.length_append, Array.length_toList] at hlength
    omega
  have hextract : (shader.code.extract (ip + before.length)
      (ip + before.length + words.length)).toList = words := by
    rw [Array.toList_extract, List.extract_eq_take_drop, ← List.drop_drop, h, List.drop_left,
      Nat.add_sub_cancel_left, List.take_left]
  rw [addressTexts, if_pos hle, hextract]

/-- The addresses among the words of an operation. -/
theorem addressTexts_eq (before : List Word) (addresses : List Address) (after : List Word)
    (hstands : operation.StandsAt shader.code ip)
    (hwords : operation.words = before ++ addresses.map Address.word ++ after)
    (hindices : ∀ address ∈ addresses, address.index < 0x40000000) :
    shader.addressTexts ip before.length addresses.length
      = .ok (addresses.map shader.symbols.addressText) := by
  have hip := hstands.size_le
  obtain ⟨rest, hrest⟩ := hstands
  rw [hwords, List.append_assoc, List.append_assoc] at hrest
  have htexts := addressTexts_words (Nat.le_of_add_right_le hip) hrest
  rw [List.length_map, List.map_map] at htexts
  rw [htexts]
  refine congrArg Except.ok (List.map_congr_left fun address haddress => ?_)
  rw [Function.comp_apply, addressText_word (hindices address haddress)]

/-- A valid operation that stands in the code of a shader; its target fits in a word. -/
structure Holds (shader : Shader) (ip : Nat) (operation : Operation Nat) : Prop where
  standsAt : operation.StandsAt shader.code ip
  isValid : operation.IsValid shader.constants.size shader.symbols.size
  target_lt : ∀ target, operation.target? = some target → target < 4294967296

theorem Holds.operandTexts_eq (h : shader.Holds ip operation) :
    shader.operandTexts ip operation.instruction.opcode
      = .ok (operation.parts.map (Part.text shader.symbols)) := by
  obtain ⟨hstands, hvalid, htarget⟩ := h
  have hindices : ∀ address ∈ operation.addresses, address.index < 0x40000000 :=
    fun address haddress => (hvalid.isIn address haddress).1
  cases operation with
  | jump condition target =>
    have hword : shader.operandWord ip 1 = .ok (UInt32.ofNat target) := hstands.fetch_eq rfl
    -- the target is read back from its word, which holds all of it
    have hlt := htarget target rfl
    show (do return [labelText (← shader.operandWord ip 1).toNat]) = _
    rw [hword]
    show Except.ok [labelText (UInt32.ofNat target).toNat] = .ok [labelText target]
    rw [UInt32.toNat_ofNat_of_lt' hlt]
  | call function result arguments =>
    obtain ⟨hresult, harguments⟩ := List.forall_mem_cons.mp hindices
    have hfunction : shader.operandWord ip 1 = .ok (UInt32.ofNat (Vocabulary.code function)) :=
      hstands.fetch_eq rfl
    have hcount : shader.operandWord ip 3 = .ok (UInt32.ofNat arguments.length) :=
      hstands.fetch_eq rfl
    have hresultText : shader.addressTexts ip 2 1 = .ok [shader.symbols.addressText result] :=
      addressTexts_eq [_, _] [result] (_ :: arguments.map Address.word) hstands rfl
        (by simpa using hresult)
    have hargumentTexts : shader.addressTexts ip 4 arguments.length
        = .ok (arguments.map shader.symbols.addressText) :=
      addressTexts_eq [_, _, _, _] arguments [] hstands (List.append_nil _).symm harguments
    simp only [operandTexts, Operation.instruction, Instruction.plain, bind_eq_ok, pure_eq_ok]
    rw [← hvalid.isComplete.toNat_count] at hargumentTexts
    refine ⟨_, hfunction, _, hcount, _, hresultText, _, hargumentTexts, ?_⟩
    simp [Operation.parts, Part.text, codeText_code]
  | convert key result source type =>
    have htype : shader.operandWord ip 3 = .ok (UInt32.ofNat (Vocabulary.code type)) :=
      hstands.fetch_eq rfl
    have haddresses : shader.addressTexts ip 1 2
        = .ok [shader.symbols.addressText result, shader.symbols.addressText source] :=
      addressTexts_eq [_] [result, source] [_] hstands rfl hindices
    simp only [operandTexts, Operation.instruction, bind_eq_ok, pure_eq_ok]
    refine ⟨_, haddresses, _, htype, ?_⟩
    simp [Operation.parts, Part.text, codeText_code]
  | plain opcode key operands =>
    obtain ⟨hplain, -, hcount⟩ := hvalid.isComplete
    have haddresses : shader.addressTexts ip 1 operands.length
        = .ok (operands.map shader.symbols.addressText) :=
      addressTexts_eq [_] operands [] hstands (List.append_nil _).symm hindices
    have hopcode : shader.operandTexts ip opcode
        = shader.addressTexts ip 1 (opcode.operandCount?.getD 0) := by
      cases opcode <;> first | rfl | cases hplain
    show shader.operandTexts ip opcode = _
    rw [hopcode, hcount, Option.getD_some, haddresses]
    simp [Operation.parts, Part.text, Function.comp_def]

theorem Holds.instructionText_eq (h : shader.Holds ip operation) :
    shader.instructionText ip operation.instruction = .ok (operation.line shader.symbols) := by
  rw [instructionText, h.operandTexts_eq, Operation.line]
  cases operation.parts.map (Part.text shader.symbols) <;> rfl

theorem Holds.targets_eq {places : List (Nat × Operation Nat)}
    (h : ∀ place ∈ places, shader.Holds place.1 place.2) :
    shader.targets (places.map fun place => (place.1, place.2.instruction))
      = .ok (places.filterMap fun place => place.2.target?) := by
  unfold targets
  induction places with
  | nil => rfl
  | cons place places ih =>
    obtain ⟨ip, operation⟩ := place
    obtain ⟨hplace, hplaces⟩ := List.forall_mem_cons.mp h
    have hih := ih hplaces
    cases operation with
    | jump condition target =>
      have hword : shader.operandWord ip 1 = .ok (UInt32.ofNat target) :=
        hplace.standsAt.fetch_eq rfl
      have hlt := hplace.target_lt target rfl
      rw [List.map_cons, List.filter_cons_of_pos rfl, List.mapM_cons]
      simp only [bind_eq_ok, pure_eq_ok]
      refine ⟨target, ⟨_, hword, UInt32.toNat_ofNat_of_lt' hlt⟩, _, hih, rfl⟩
    | call function result arguments => exact hih
    | convert key result source type => exact hih
    | plain opcode key operands =>
      -- only plain opcodes are written in this form, and jumps are none
      have hjump : opcode.isJump = false := by
        have hplain := hplace.isValid.isComplete.1
        cases opcode <;> first | rfl | cases hplain
      rw [List.map_cons, List.filter_cons_of_neg (by simp [Operation.instruction, hjump])]
      exact hih

/-- The lines of code: each operation, after a label if a jump leads to it. -/
def codeLines (shader : Shader) (operations : List (Operation Nat)) : List String :=
  let targets := operations.filterMap Operation.target?
  ((Operation.located 0 operations).flatMap fun place =>
    labelLine targets place.1 ++ [place.2.line shader.symbols]) ++
    labelLine targets (Operation.totalSize operations)

namespace IsMadeOf

variable {operations : List (Operation Nat)}

theorem size_code (h : shader.IsMadeOf operations) :
    shader.code.size = Operation.totalSize operations := by
  rw [← Array.length_toList, h.code_eq]
  exact Operation.length_flatMap_layout _ _

theorem holds (h : shader.IsMadeOf operations) (hsize : shader.code.size < 4294967296) :
    ∀ place ∈ Operation.located 0 operations, shader.Holds place.1 place.2 := by
  intro place hplace
  obtain ⟨hstands, hmem⟩ := @Operation.located_standsAt shader.code 0 _ h.code_eq place hplace
  refine ⟨hstands, h.isValid place.2 hmem, fun target htarget => ?_⟩
  obtain ⟨before, after, rfl, rfl⟩ := h.isBoundary place.2 hmem target htarget
  have htotal := h.size_code
  simp only [Operation.totalSize, List.map_append, List.sum_append] at htotal ⊢
  omega

theorem walk_eq (h : shader.IsMadeOf operations) :
    walk shader.code = .ok ⟨(Operation.located 0 operations).map fun place =>
      (place.1, place.2.instruction), none⟩ := by
  refine Operation.walkFrom_eq h.code_eq (fun operation hoperation =>
    (h.isValid operation hoperation).isComplete) ?_
  rw [h.size_code]
  exact Operation.length_le_totalSize

theorem instructionLines_eq (h : shader.IsMadeOf operations)
    (hsize : shader.code.size < 4294967296) :
    shader.instructionLines ((Operation.located 0 operations).map fun place =>
      (place.1, place.2.instruction)) = .ok (shader.codeLines operations) := by
  have hholds := h.holds hsize
  have htargets : ((Operation.located 0 operations).filterMap fun place => place.2.target?)
      = operations.filterMap Operation.target? := by
    conv_rhs => rw [← @Operation.map_snd_located 0 operations, List.filterMap_map]
    rfl
  simp only [instructionLines, bind_eq_ok, pure_eq_ok]
  refine ⟨_, Holds.targets_eq hholds, (Operation.located 0 operations).map fun place =>
    labelLine (operations.filterMap Operation.target?) place.1 ++ [place.2.line shader.symbols],
    ?_, ?_⟩
  · rw [List.mapM_map, htargets]
    refine mapM_of_eq_ok fun place hplace => ?_
    show (do return _ ++ [← shader.instructionText place.1 place.2.instruction]) = _
    rw [(hholds place hplace).instructionText_eq]
    rfl
  · rw [htargets, h.size_code, codeLines, List.flatMap_def]

end IsMadeOf

end Shader

/-! ### The lines of declarations -/

/-- The text of a literal. -/
def Value.literalText (value : Value) : String :=
  match value.text with
  | some text => "\"" ++ text ++ "\""
  | none => String.intercalate ", " (value.floats.toList.map floatText)

theorem Value.IsLiteral.literal_eq {value : Value} (h : value.IsLiteral) :
    value.literal = .ok value.literalText := by
  cases h with
  | quoted htext => rfl
  | @numbers type floats htype hcount =>
    show (if type = .string then _ else _) = _
    rw [if_neg htype]
    rfl

/-- The line that declares a symbol. -/
def Symbol.line (symbol : Symbol) : String :=
  let declaration := "." ++ Vocabulary.name symbol.kind ++ " " ++ Vocabulary.name symbol.storage ++
    " " ++ Vocabulary.name symbol.type ++ " " ++ symbol.name
  match symbol.default with
  | some value => declaration ++ " " ++ value.literalText
  | none => declaration

theorem Symbol.IsDeclared.declaration_eq {symbol : Symbol} (h : symbol.IsDeclared) :
    symbol.declaration = .ok symbol.line := by
  unfold Symbol.declaration Symbol.line
  cases hdefault : symbol.default with
  | none => rfl
  | some value =>
    dsimp only
    rw [(h.default_isLiteral value hdefault).1.literal_eq]
    rfl

/-- The line that declares a constant. -/
def Value.line (value : Value) : String :=
  ".constant " ++ Vocabulary.name value.type ++ " " ++ value.literalText

namespace Shader

variable {shader : Shader} {operations : List (Operation Nat)}

/-- The line that names the shader. -/
def titleLine (shader : Shader) : String :=
  ".shader " ++ Vocabulary.name shader.kind ++ " " ++ shader.name

/-- The lines of a listing. -/
def lines (shader : Shader) (operations : List (Operation Nat)) : List String :=
  shader.titleLine :: shader.symbols.symbols.toList.map Symbol.line ++
    shader.constants.toList.map Value.line ++ shader.codeLines operations

theorem declarations_eq (hdeclared : Declared shader.name shader.constants shader.symbols) :
    shader.declarations = .ok (shader.titleLine :: shader.symbols.symbols.toList.map Symbol.line ++
      shader.constants.toList.map Value.line) := by
  have hsymbols : shader.symbols.symbols.toList.mapM Symbol.declaration
      = .ok (shader.symbols.symbols.toList.map Symbol.line) :=
    mapM_of_eq_ok fun symbol hsymbol =>
      (hdeclared.isDeclared symbol (Array.mem_toList_iff.mp hsymbol)).declaration_eq
  have hconstants : (shader.constants.toList.mapM fun value =>
        return s!".constant {value.type} " ++ (← value.literal))
      = .ok (shader.constants.toList.map Value.line) := by
    refine mapM_of_eq_ok fun value hvalue => ?_
    rw [(hdeclared.isLiteral value (Array.mem_toList_iff.mp hvalue)).literal_eq]
    rfl
  simp only [declarations, bind_eq_ok, pure_eq_ok]
  exact ⟨_, hsymbols, _, hconstants, rfl⟩

/-- **Listings.**  What the listing of an assembled shader consists of. -/
theorem IsMadeOf.listing_eq (h : shader.IsMadeOf operations)
    (hdeclared : Declared shader.name shader.constants shader.symbols)
    (hsize : shader.code.size < 4294967296) :
    shader.listing = .ok (String.join ((shader.lines operations).map (· ++ "\n"))) := by
  simp only [listing, bind_eq_ok]
  refine ⟨_, declarations_eq hdeclared, _, h.walk_eq, ?_⟩
  dsimp only
  rw [h.instructionLines_eq hsize]
  rfl

end Shader

end Shading
