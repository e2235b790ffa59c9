import Shading.Proofs.OperandTexts
import Shading.Proofs.RoundTrip
import Shading.Proofs.Soundness

namespace Shading

/-!
# Listings of code that was never assembled

Any code that can be decoded to its end has a listing, whatever its operand words are.  Such a listing
may be refused when it is assembled.  If it is not, it gives the code back word for word, with one
exception: of the word that names a function or a type, only the low byte is listed.

* `OperandWords`, `InstructionAt` — an instruction and the words that follow it;
* `Fits` — slots that become the word they were listed for, and `Draft.emit_fits`;
* `Yields P lines Q` — a draft with `P` that takes the lines has `Q` then;
* `Relisting` — drafts that hold the code listed so far;
* `idPlaces`, `lowIds` — the words that name functions and types, and the code with their low bytes;
* `listing_represents_code` — what a listing gives back.
-/

/-! ### Instructions and their words -/

/-- The words that can follow an instruction word.  A call says itself how many arguments it has. -/
inductive OperandWords : Opcode → List Word → Prop
  | jump (condition : JumpCondition) (target : Word) : OperandWords (.jump condition) [target]
  | call (function result count : Word) {arguments : List Word}
      (hcount : count.toNat = arguments.length) :
      OperandWords .call (function :: result :: count :: arguments)
  | convert (result source type : Word) : OperandWords .convert [result, source, type]
  | plain {opcode : Opcode} {words : List Word} (hplain : opcode.isPlain = true)
      (hcount : opcode.operandCount? = some words.length) : OperandWords opcode words

/-- An instruction with its operand words, from an offset on. -/
structure InstructionAt (code : Array Word) (ip : Nat) (instruction : Instruction)
    (words : List Word) : Prop where
  drop_eq : code.toList.drop ip = instruction.encode ::
    (words ++ code.toList.drop (ip + (words.length + 1)))
  size_le : ip + (words.length + 1) ≤ code.size
  isWellFormed : instruction.key.isWellFormed = true
  operandWords : OperandWords instruction.opcode words

namespace Tiles

variable {code : Array Word} {start stop ip size : Nat} {word : Word} {instruction : Instruction}
  {instructions : List (Nat × Instruction)}

theorem instructionSize_pos {opcode : Opcode} (h : instructionSize code ip opcode = .ok size) :
    0 < size := by
  unfold instructionSize at h
  split at h
  next =>
    obtain rfl := Except.ok.inj h
    omega
  next =>
    simp only [bind_eq_ok, pure_eq_ok] at h
    obtain ⟨count, -, rfl⟩ := h
    omega

/-- No instruction is shorter than a word. -/
theorem length_le (h : Tiles code start instructions stop) : start + instructions.length ≤ stop := by
  induction h with
  | done => exact Nat.le_refl _
  | next _ _ hsize _ ih =>
    have hpos := instructionSize_pos hsize
    rw [List.length_cons]
    omega

/-- The words that an instruction takes are as many as its opcode or its count says. -/
theorem operandWords {opcode : Opcode} {words after : List Word}
    (hsize : instructionSize code ip opcode = .ok (words.length + 1))
    (hdrop : code.toList.drop ip = word :: (words ++ after)) : OperandWords opcode words := by
  have hfixed : ∀ {count : Nat}, opcode.operandCount? = some count → count = words.length := by
    intro count hcount
    rw [instructionSize, hcount] at hsize
    have hsame := Except.ok.inj hsize
    omega
  cases hplain : opcode.isPlain with
  | true =>
    obtain ⟨count, hcount⟩ := Opcode.exists_operandCount hplain
    exact .plain hplain (hfixed hcount ▸ hcount)
  | false =>
    cases opcode with
    | jump condition =>
      obtain ⟨target, rfl⟩ := List.length_eq_one_iff.mp (hfixed rfl).symm
      exact .jump condition target
    | convert =>
      obtain ⟨result, source, type, rfl⟩ := List.length_eq_three.mp (hfixed rfl).symm
      exact .convert result source type
    | call =>
      simp only [instructionSize, Opcode.operandCount?, bind_eq_ok, pure_eq_ok, fetch_eq_ok] at hsize
      obtain ⟨count, hcount, hsame⟩ := hsize
      -- a call takes no fewer than four words
      obtain _ | ⟨function, _ | ⟨result, _ | ⟨count', arguments⟩⟩⟩ := words
      · simp only [List.length_nil] at hsame
        omega
      · simp only [List.length_cons, List.length_nil] at hsame
        omega
      · simp only [List.length_cons, List.length_nil] at hsame
        omega
      · rw [← Array.getElem?_toList, ← List.getElem?_drop, hdrop] at hcount
        obtain rfl : count' = count := by simpa using hcount
        refine .call function result count' ?_
        simp only [List.length_cons] at hsame
        omega
    | _ => cases hplain

/-- The instruction that a tiling begins with. -/
theorem instructionAt (hword : code[ip]? = some word)
    (hdecode : Instruction.decode word = .ok instruction)
    (hsize : instructionSize code ip instruction.opcode = .ok size) (hle : ip + size ≤ code.size) :
    ∃ words, InstructionAt code ip instruction words ∧ size = words.length + 1 := by
  obtain ⟨rfl, hkey⟩ := Instruction.encode_of_decode hdecode
  obtain ⟨rest, rfl⟩ := Nat.exists_eq_add_one.mpr (instructionSize_pos hsize)
  have hhead : code.toList.drop ip = instruction.encode :: code.toList.drop (ip + 1) := by
    obtain ⟨hlt, hget⟩ := Array.getElem?_eq_some_iff.mp hword
    rw [List.drop_eq_getElem_cons (by simpa using hlt), Array.getElem_toList, hget]
  have hlength : ((code.toList.drop (ip + 1)).take rest).length = rest := by
    rw [List.length_take, List.length_drop, Array.length_toList]
    omega
  have hdrop : code.toList.drop ip = instruction.encode ::
      ((code.toList.drop (ip + 1)).take rest ++ code.toList.drop (ip + (rest + 1))) := by
    have htail : code.toList.drop (ip + (rest + 1)) = (code.toList.drop (ip + 1)).drop rest := by
      rw [List.drop_drop, Nat.add_assoc, Nat.add_comm 1]
    rw [hhead, htail, List.take_append_drop]
  refine ⟨(code.toList.drop (ip + 1)).take rest, ⟨?_, ?_, hkey, ?_⟩, by rw [hlength]⟩
  · rw [hlength]
    exact hdrop
  · rw [hlength]
    exact hle
  · refine operandWords ?_ hdrop
    rw [hlength]
    exact hsize

theorem walkFrom_eq {count : Nat} (h : Tiles code start instructions code.size)
    (hcount : instructions.length ≤ count) : walkFrom code count start = .ok ⟨instructions, none⟩ := by
  generalize hstop : code.size = stop at h
  induction h generalizing count with
  | done ip =>
    have hend : ¬ ip < code.size := by omega
    cases count with
    | zero => rfl
    | succ count =>
      rw [walkFrom, dif_neg hend]
  | @next ip size stop word instruction rest hword hdecode hsize hrest ih =>
    obtain ⟨count, rfl⟩ : ∃ n, count = n + 1 := Nat.exists_eq_add_one.mpr (by simp at hcount; omega)
    obtain ⟨hlt, hget⟩ := Array.getElem?_eq_some_iff.mp hword
    rw [walkFrom, dif_pos hlt, hget, hdecode]
    simp only [bind_eq_ok, pure_eq_ok]
    exact ⟨size, hsize, _, ih (Nat.le_of_succ_le_succ hcount) hstop, rfl⟩

end Tiles

/-! ### The lines of instructions -/

namespace Shader

/-- The texts of operand words. -/
def textsOf (shader : Shader) : Opcode → List Word → List String
  | .jump _, words => words.map fun target => labelText target.toNat
  | .call, function :: result :: _ :: arguments =>
    codeText Builtin function :: shader.addressText result :: arguments.map shader.addressText
  | .convert, [result, source, type] =>
    [shader.addressText result, shader.addressText source, codeText ElementType type]
  | _, words => words.map shader.addressText

theorem textsOf_plain {opcode : Opcode} (shader : Shader) (words : List Word)
    (h : opcode.isPlain = true) : shader.textsOf opcode words = words.map shader.addressText := by
  cases opcode <;> first | rfl | cases h

/-- The line of an instruction with its operand words. -/
def instructionLine (shader : Shader) (instruction : Instruction) (words : List Word) : String :=
  match shader.textsOf instruction.opcode words with
  | [] => "  " ++ instruction.text
  | texts => "  " ++ instruction.text ++ " " ++ String.intercalate ", " texts

theorem toList_instructionLine (shader : Shader) (instruction : Instruction) (words : List Word) :
    (shader.instructionLine instruction words).toList = ' ' :: ' ' ::
      ((Vocabulary.name instruction.opcode).toList ++ (keyChars instruction.key.text? ++
        argumentChars (shader.textsOf instruction.opcode words))) := by
  unfold instructionLine argumentChars
  cases shader.textsOf instruction.opcode words <;> simp [Instruction.toList_text]

end Shader

namespace InstructionAt

variable {shader : Shader} {ip : Nat} {instruction : Instruction} {words : List Word}

theorem operandWord_eq (h : InstructionAt shader.code ip instruction words) {n : Nat} {word : Word}
    (hword : words[n]? = some word) : shader.operandWord ip (n + 1) = .ok word := by
  obtain ⟨hlt, -⟩ := List.getElem?_eq_some_iff.mp hword
  rw [Shader.operandWord, fetch_eq_ok, ← Array.getElem?_toList, ← List.getElem?_drop, h.drop_eq,
    List.getElem?_cons_succ, List.getElem?_append_left hlt, hword]

theorem addressTexts_eq (h : InstructionAt shader.code ip instruction words)
    (before addresses after : List Word) (hwords : words = before ++ (addresses ++ after)) :
    shader.addressTexts ip (before.length + 1) addresses.length
      = .ok (addresses.map shader.addressText) := by
  have hdrop := h.drop_eq
  rw [hwords, List.append_assoc, List.append_assoc, ← List.cons_append] at hdrop
  exact Shader.addressTexts_words (Nat.le_of_add_right_le h.size_le) hdrop

theorem operandTexts_eq (h : InstructionAt shader.code ip instruction words) :
    shader.operandTexts ip instruction.opcode = .ok (shader.textsOf instruction.opcode words) := by
  obtain ⟨opcode, key⟩ := instruction
  cases h.operandWords with
  | jump condition target =>
    simp only [Shader.operandTexts, bind_eq_ok, pure_eq_ok]
    exact ⟨target, h.operandWord_eq rfl, rfl⟩
  | @call function result count arguments hcount =>
    have hresult : shader.addressTexts ip 2 1 = .ok [shader.addressText result] :=
      h.addressTexts_eq [function] [result] (count :: arguments) rfl
    have harguments : shader.addressTexts ip 4 arguments.length
        = .ok (arguments.map shader.addressText) :=
      h.addressTexts_eq [function, result, count] arguments [] (by simp)
    rw [← hcount] at harguments
    simp only [Shader.operandTexts, bind_eq_ok, pure_eq_ok]
    exact ⟨function, h.operandWord_eq rfl, count, h.operandWord_eq rfl, _, hresult, _, harguments, rfl⟩
  | convert result source type =>
    have haddresses : shader.addressTexts ip 1 2
        = .ok [shader.addressText result, shader.addressText source] :=
      h.addressTexts_eq [] [result, source] [type] rfl
    simp only [Shader.operandTexts, bind_eq_ok, pure_eq_ok]
    exact ⟨_, haddresses, type, h.operandWord_eq rfl, rfl⟩
  | plain hplain hcount =>
    have haddresses : shader.addressTexts ip 1 words.length = .ok (words.map shader.addressText) :=
      h.addressTexts_eq [] words [] (by simp)
    have hopcode : shader.operandTexts ip opcode
        = shader.addressTexts ip 1 (opcode.operandCount?.getD 0) := by
      cases opcode <;> first | rfl | cases hplain
    show shader.operandTexts ip opcode = .ok (shader.textsOf opcode words)
    replace hcount : opcode.operandCount? = some words.length := hcount
    rw [hopcode, hcount, Option.getD_some, haddresses, Shader.textsOf_plain shader words hplain]

theorem instructionText_eq (h : InstructionAt shader.code ip instruction words) :
    shader.instructionText ip instruction = .ok (shader.instructionLine instruction words) := by
  rw [Shader.instructionText, h.operandTexts_eq, Shader.instructionLine]
  cases shader.textsOf instruction.opcode words <;> rfl

theorem isOperandText (h : InstructionAt shader.code ip instruction words)
    (hnames : ∀ symbol ∈ shader.symbols.symbols, IsName symbol.name) :
    ∀ text ∈ shader.textsOf instruction.opcode words, IsOperandText text := by
  have haddress := isOperandText_addressText hnames
  have haddresses : ∀ words : List Word, ∀ text ∈ words.map shader.addressText,
      IsOperandText text := by
    intro words text htext
    obtain ⟨word, -, rfl⟩ := List.mem_map.mp htext
    exact haddress word
  obtain ⟨opcode, key⟩ := instruction
  cases h.operandWords with
  | jump condition target =>
    exact List.forall_mem_singleton.mpr (Operand.IsWritten.word (isName_labelText _)).isOperandText
  | call function result count hcount =>
    exact List.forall_mem_cons.mpr ⟨isOperandText_codeText function,
      List.forall_mem_cons.mpr ⟨haddress result, haddresses _⟩⟩
  | convert result source type =>
    exact List.forall_mem_cons.mpr ⟨haddress result, List.forall_mem_cons.mpr ⟨haddress source,
      List.forall_mem_singleton.mpr (isOperandText_codeText type)⟩⟩
  | plain hplain hcount =>
    rw [Shader.textsOf_plain shader words hplain]
    exact haddresses words

end InstructionAt

/-! ### What the lines add -/

/-- A slot that becomes the word: a label has the word in its name. -/
inductive Fits : Slot → Word → Prop
  | word (word : Word) : Fits (.word word) word
  | target (word : Word) (line : Nat) : Fits (.target (Shader.labelText word.toNat) line) word

/-- The place of the word that names a function or a type, counted from the instruction word. -/
def Opcode.idPlace? : Opcode → Option Nat
  | .call => some 1
  | .convert => some 3
  | _ => none

theorem Opcode.idPlace?_plain {opcode : Opcode} (h : opcode.isPlain = true) :
    opcode.idPlace? = none := by
  cases opcode <;> first | rfl | cases h

/-- What is listed of the word at a place of an instruction. -/
def Opcode.listed (opcode : Opcode) (n : Nat) (word : Word) : Word :=
  if opcode.idPlace? = some n then lowByte word else word

theorem Opcode.mapIdx_listed {opcode : Opcode} (h : opcode.idPlace? = none) (words : List Word) :
    words.mapIdx opcode.listed = words := by
  have hlisted : opcode.listed = fun _ word => word := by
    funext n word
    simp [listed, h]
  refine List.ext_getElem? fun n => ?_
  simp [hlisted]

theorem Opcode.mapIdx_listed_call (word function : Word) (rest : List Word) :
    (word :: function :: rest).mapIdx call.listed = word :: lowByte function :: rest := by
  refine List.ext_getElem? fun n => ?_
  rw [List.getElem?_mapIdx]
  obtain _ | _ | n := n
  · rfl
  · rfl
  · have hlisted : call.listed (n + 2) = id := by
      funext other
      simp [listed, idPlace?]
    rw [hlisted, Option.map_id]
    rfl

theorem Key.isKeyText_text? {key : Key} (h : key.isWellFormed = true) : IsKeyText key.text? := by
  obtain rfl | hwritten := eq_none_or_isWritten h
  · rintro _ ⟨⟩
  · rw [Key.text?, if_neg hwritten.ne_none]
    exact hwritten.parse?_text.2

/-- The key that is listed is the only one that can be read. -/
theorem Draft.eq_of_readKey {opcode : Opcode} {key key' : Key} (hkey : key.isWellFormed = true)
    (h : readKey opcode key.text? = .ok key') : key' = key := by
  obtain rfl | hwritten := Key.eq_none_or_isWritten hkey
  · unfold readKey at h
    split at h
    next => exact (Except.ok.inj h).symm
    next heq => cases heq
    next => cases h
    next heq => cases heq
  · rw [Key.text?, if_neg hwritten.ne_none] at h
    unfold readKey at h
    split at h
    next heq => cases heq
    next => cases h
    next heq => cases heq
    next heq =>
      obtain rfl := Option.some.inj heq
      rw [hwritten.parse?_text.1] at h
      dsimp only at h
      split at h
      next => exact (Except.ok.inj h).symm
      next => cases h

section Slots

variable {shader : Shader} {draft : Draft} {operands : List Operand} {slots : List Slot} {line : Nat}
  (hnames : ∀ symbol ∈ shader.symbols.symbols, IsName symbol.name)
  (hdistinct : (shader.symbols.symbols.toList.map Symbol.name).Nodup)
  (hsymbols : draft.symbols = shader.symbols)

include hnames hdistinct hsymbols

theorem addressSlots_fits {words : List Word}
    (hwritten : List.Forall₂ (fun text operand => Operand.IsWritten text.toList operand)
      (words.map shader.addressText) operands) (h : draft.addressSlots operands = .ok slots) :
    List.Forall₂ Fits slots words := by
  induction words generalizing operands slots with
  | nil =>
    cases hwritten
    obtain rfl := Except.ok.inj h
    exact .nil
  | cons word words ih =>
    cases hwritten with
    | cons hfirst hrest =>
      simp only [Draft.addressSlots_cons, bind_eq_ok, pure_eq_ok] at h
      obtain ⟨word', hword, slots, hslots, rfl⟩ := h
      obtain rfl := eq_of_addressWord hnames hdistinct hsymbols hfirst hword
      exact .cons (.word word') (ih hrest hslots)

/-- The operands of an instruction's line become its words, except for the identifier. -/
theorem operandSlots_fits {opcode : Opcode} {words : List Word} (hwords : OperandWords opcode words)
    (hwritten : List.Forall₂ (fun text operand => Operand.IsWritten text.toList operand)
      (shader.textsOf opcode words) operands)
    (h : draft.operandSlots line opcode operands = .ok slots) (word : Word) :
    List.Forall₂ Fits (.word word :: slots) ((word :: words).mapIdx opcode.listed) := by
  cases hwords with
  | jump condition target =>
    replace hwritten : List.Forall₂ _ [Shader.labelText target.toNat] operands := hwritten
    obtain _ | ⟨htarget, _ | _⟩ := hwritten
    obtain rfl := htarget.unique (.word (isName_labelText _))
    obtain ⟨label, hlabel, rfl⟩ := Draft.operandSlots_jump.mp h
    obtain rfl := Operand.word.inj hlabel
    rw [Opcode.mapIdx_listed rfl]
    exact .cons (.word word) (.cons (.target target line) .nil)
  | @call function result count arguments hcount =>
    replace hwritten : List.Forall₂ _ (Shader.codeText Builtin function ::
      shader.addressText result :: arguments.map shader.addressText) operands := hwritten
    obtain _ | ⟨hfunction, _ | ⟨hresult, harguments⟩⟩ := hwritten
    have hlength := harguments.length_eq
    obtain ⟨name, id, resultWord, rest, rfl, hid, -, -, hword, hrest, rfl⟩ :=
      Draft.operandSlots_call.mp h
    obtain rfl := eq_of_addressWord hnames hdistinct hsymbols hresult hword
    rw [List.length_map, ← hcount] at hlength
    rw [← hlength, UInt32.ofNat_toNat, code_eq_lowByte hfunction hid]
    rw [Opcode.mapIdx_listed_call]
    exact .cons (.word _) (.cons (.word _) (.cons (.word _) (.cons (.word _)
      (addressSlots_fits hnames hdistinct hsymbols harguments hrest))))
  | convert result source type =>
    replace hwritten : List.Forall₂ _ [shader.addressText result, shader.addressText source,
      Shader.codeText ElementType type] operands := hwritten
    obtain _ | ⟨hresult, _ | ⟨hsource, _ | ⟨htype, _ | _⟩⟩⟩ := hwritten
    obtain ⟨addresses, name, id, haddresses, rfl, hid, rfl⟩ := Draft.operandSlots_convert.mp h
    have hfits : List.Forall₂ Fits addresses [result, source] :=
      addressSlots_fits hnames hdistinct hsymbols (.cons hresult (.cons hsource .nil)) haddresses
    rw [code_eq_lowByte htype hid]
    exact .cons (.word _) (List.rel_append hfits (.cons (.word _) .nil))
  | plain hplain hcount =>
    rw [Shader.textsOf_plain shader words hplain] at hwritten
    rw [Draft.operandSlots_plain hplain] at h
    rw [Opcode.mapIdx_listed (Opcode.idPlace?_plain hplain)]
    exact .cons (.word word) (addressSlots_fits hnames hdistinct hsymbols hwritten h)

/-- If the line of an instruction is taken, it adds the words of the instruction. -/
theorem Draft.emit_fits {ip : Nat} {instruction : Instruction} {words : List Word}
    (h : InstructionAt shader.code ip instruction words)
    (hwritten : List.Forall₂ (fun text operand => Operand.IsWritten text.toList operand)
      (shader.textsOf instruction.opcode words) operands)
    (hemit : draft.emit line (Vocabulary.name instruction.opcode) instruction.key.text? operands
      = .ok slots) :
    List.Forall₂ Fits slots ((instruction.encode :: words).mapIdx instruction.opcode.listed) := by
  obtain ⟨opcode, key, rest, hopcode, hkey, -, hrest, rfl⟩ := emit_eq_ok.mp hemit
  rw [Vocabulary.ofName?_name] at hopcode
  obtain rfl := Option.some.inj hopcode
  obtain rfl := eq_of_readKey h.isWellFormed hkey
  exact operandSlots_fits hnames hdistinct hsymbols h.operandWords hwritten hrest instruction.encode

end Slots

/-! ### Reading lines that may be refused -/

/-- Lines that leave a draft with the first property with the second one, if it takes them. -/
structure Yields (P : Draft → Prop) (lines : List String) (Q : Draft → Prop) : Prop where
  isLine : ∀ line ∈ lines, IsLine line.toList
  of_ok : ∀ (draft next : Draft) (number : Nat), P draft →
    ((lines.map String.toList).zipIdx number).foldlM
      (fun (draft : Draft) line => draft.addLine line.2 line.1) draft = .ok next → Q next

namespace Yields

variable {P Q R : Draft → Prop} {lines lines' : List String}

theorem nil (h : ∀ draft, P draft → Q draft) : Yields P [] Q := by
  refine ⟨by simp, fun draft next number hP hnext => ?_⟩
  obtain rfl := Except.ok.inj hnext
  exact h draft hP

theorem mono (h : Yields P lines Q) (hQ : ∀ draft, Q draft → R draft) : Yields P lines R :=
  ⟨h.isLine, fun draft next number hP hnext => hQ next (h.of_ok draft next number hP hnext)⟩

theorem append (h : Yields P lines Q) (h' : Yields Q lines' R) : Yields P (lines ++ lines') R := by
  refine ⟨List.forall_mem_append.mpr ⟨h.isLine, h'.isLine⟩, fun draft next number hP hnext => ?_⟩
  rw [List.map_append, List.zipIdx_append, List.foldlM_append, bind_eq_ok] at hnext
  obtain ⟨middle, hmiddle, hnext⟩ := hnext
  exact h'.of_ok middle next _ (h.of_ok draft middle number hP hmiddle) hnext

theorem line {text : String} (hplain : PlainText text.toList)
    (h : ∀ draft next number parsed, P draft → Line.parse? text.toList = some parsed →
      draft.addParsed number parsed = .ok next → Q next) : Yields P [text] Q := by
  have hbare := hplain.isBareLine
  refine ⟨List.forall_mem_singleton.mpr hbare.toIsLine, fun draft next number hP hnext => ?_⟩
  rw [List.map_singleton, List.zipIdx_singleton, List.foldlM_cons, bind_eq_ok] at hnext
  obtain ⟨added, hadded, hnext⟩ := hnext
  obtain rfl := Except.ok.inj hnext
  obtain ⟨parsed, hparsed, hadd⟩ := Draft.addLine_eq_ok.mp hadded
  rw [hbare.beforeComment_eq] at hparsed
  exact h draft added number parsed hP hparsed hadd

end Yields

theorem Reads.yields {P Q : Draft → Prop} {lines : List String} (h : Reads P lines Q) :
    Yields P lines Q := by
  refine ⟨h.isLine, fun draft next number hP hnext => ?_⟩
  obtain ⟨next', hnext', hQ⟩ := h.exists_next draft number hP
  obtain rfl := Except.ok.inj (hnext.symm.trans hnext')
  exact hQ

/-- A draft that holds what is listed of the words so far, with labels that tell their offsets. -/
structure Relisting (shader : Shader) (low : Nat → Word → Word) (before : List Word)
    (draft : Draft) : Prop where
  symbols_eq : draft.symbols = shader.symbols
  fits : List.Forall₂ Fits draft.code.toList (before.mapIdx low)
  label_eq : ∀ label offset, draft.labels.find? label = some offset →
    label = Shader.labelText offset

namespace Relisting

variable {shader : Shader} {low : Nat → Word → Word} {before : List Word} {draft : Draft}

theorem size_code (h : Relisting shader low before draft) : draft.code.size = before.length := by
  have hlength := h.fits.length_eq
  rwa [Array.length_toList, List.length_mapIdx] at hlength

/-- A label is put where it says. -/
theorem mark (targets : List Nat) :
    Yields (Relisting shader low before) (Shader.labelLine targets before.length)
      (Relisting shader low before) := by
  unfold Shader.labelLine
  split
  next =>
    have hname := isName_labelText before.length
    have hchars : (Shader.labelText before.length ++ ":").toList
        = (Shader.labelText before.length).toList ++ [':'] := by simp
    refine Yields.line ?_ fun draft next number parsed hdraft hparsed hadd => ?_
    · rw [hchars]
      exact hname.plainText.append (by simp [PlainText, isPlain])
    · rw [hchars, Line.parse?_label hname] at hparsed
      obtain rfl := Option.some.inj hparsed
      obtain ⟨marked, hmark, -, -, hnone⟩ := Draft.addParsed_eq_ok.mp hadd
      obtain rfl := hnone rfl
      obtain ⟨-, rfl⟩ := Draft.mark_eq_ok.mp (hmark _ rfl)
      refine { hdraft with label_eq := fun label offset hoffset => ?_ }
      rw [NameMap.find?_insert, hdraft.size_code] at hoffset
      split at hoffset
      next hlabel =>
        obtain rfl := Option.some.inj hoffset
        exact hlabel.symm
      next => exact hdraft.label_eq label offset hoffset
  next => exact Yields.nil fun _ hdraft => hdraft

/-- The line of an instruction adds what is listed of its words. -/
theorem instruction {instruction : Instruction} {words : List Word}
    (hdeclared : Declared shader.name shader.constants shader.symbols)
    (h : InstructionAt shader.code before.length instruction words)
    (hlow : ∀ n ≤ words.length, low (n + before.length) = instruction.opcode.listed n) :
    Yields (Relisting shader low before) [shader.instructionLine instruction words]
      (Relisting shader low (before ++ instruction.encode :: words)) := by
  have hnames : ∀ symbol ∈ shader.symbols.symbols, IsName symbol.name :=
    fun symbol hsymbol => (hdeclared.isDeclared symbol hsymbol).isName
  have htexts := h.isOperandText hnames
  have hmnemonic := Vocabulary.isName_name instruction.opcode
  have hkey := Key.isKeyText_text? h.isWellFormed
  refine Yields.line ?_ fun draft next number parsed hdraft hparsed hadd => ?_
  · have hplain : PlainText (keyChars instruction.key.text?) := plainText_keyChars hkey
    have harguments := plainText_argumentChars fun text htext => (htexts text htext).plainText
    rw [Shader.toList_instructionLine]
    exact ((hmnemonic.plainText.append (hplain.append harguments)).cons rfl).cons rfl
  · rw [Shader.toList_instructionLine] at hparsed
    obtain ⟨operands, rfl, hwritten⟩ := Line.exists_operands hmnemonic hkey htexts hparsed
    replace hadd : draft.addStatement number (.operation _ _ operands) = .ok next := hadd
    simp only [Draft.addStatement, bind_eq_ok, pure_eq_ok] at hadd
    obtain ⟨slots, hslots, rfl⟩ := hadd
    have hfits := Draft.emit_fits hnames hdeclared.distinct hdraft.symbols_eq h hwritten hslots
    refine { hdraft with fits := ?_ }
    have hwords : (instruction.encode :: words).mapIdx (fun n => low (n + before.length))
        = (instruction.encode :: words).mapIdx instruction.opcode.listed := by
      refine List.ext_getElem? fun n => ?_
      rw [List.getElem?_mapIdx, List.getElem?_mapIdx]
      by_cases hn : n ≤ words.length
      · rw [hlow n hn]
      · rw [List.getElem?_eq_none (by rw [List.length_cons]; omega)]
        rfl
    rw [Array.toList_appendList, List.mapIdx_append, hwords]
    exact List.rel_append hdraft.fits hfits

/-- The slots become the words that they were listed for. -/
theorem eq_of_resolve {slots : List Slot} {words code : List Word}
    (hlabels : ∀ label offset, draft.labels.find? label = some offset →
      label = Shader.labelText offset)
    (hfits : List.Forall₂ Fits slots words) (h : slots.mapM draft.resolve = .ok code) :
    code = words := by
  induction hfits generalizing code with
  | nil => exact (Except.ok.inj h).symm
  | @cons slot word slots words hfirst _ ih =>
    simp only [List.mapM_cons, bind_eq_ok, pure_eq_ok] at h
    obtain ⟨word', hword, code, hcode, rfl⟩ := h
    rw [ih hcode]
    suffices hsame : word' = word by rw [hsame]
    cases hfirst with
    | word => exact (Except.ok.inj hword).symm
    | target word line =>
      simp only [Draft.resolve] at hword
      split at hword
      next offset hoffset =>
        obtain rfl := labelText_inj (hlabels _ _ hoffset)
        rw [← Except.ok.inj hword, UInt32.ofNat_toNat]
      next => cases hword

end Relisting

/-- The code of what is assembled from lines that end in such a draft. -/
theorem Yields.code_eq {shader again : Shader} {low : Nat → Word → Word} {words : List Word}
    {lines : List String} (h : Yields (· = Draft.new) lines (Relisting shader low words))
    (hagain : assemble (String.join (lines.map (· ++ "\n"))) = .ok again) :
    again.code = (words.mapIdx low).toArray := by
  obtain ⟨draft, hdraft, hfinish⟩ := assemble_eq_ok.mp hagain
  rw [splitLines_join h.isLine] at hdraft
  have hrelisting := h.of_ok Draft.new draft 1 rfl hdraft
  obtain ⟨code, hcode, rfl⟩ := Draft.finish_eq_ok.mp hfinish
  exact congrArg List.toArray (Relisting.eq_of_resolve hrelisting.label_eq hrelisting.fits hcode)

/-! ### Whole listings -/

/-- The offsets of the words that name functions and types. -/
def idPlaces (instructions : List (Nat × Instruction)) : List Nat :=
  instructions.filterMap fun place => place.2.opcode.idPlace?.map (place.1 + ·)

/-- What is listed of the word at an offset. -/
def listedAt (instructions : List (Nat × Instruction)) (i : Nat) (word : Word) : Word :=
  if i ∈ idPlaces instructions then lowByte word else word

/-- The code with the low bytes of the words that name functions and types. -/
def lowIds (code : Array Word) (instructions : List (Nat × Instruction)) : Array Word :=
  code.mapIdx (listedAt instructions)

theorem mem_idPlaces_cons {i ip : Nat} {instruction : Instruction}
    {instructions : List (Nat × Instruction)} :
    i ∈ idPlaces ((ip, instruction) :: instructions) ↔
      (∃ n, instruction.opcode.idPlace? = some n ∧ ip + n = i) ∨ i ∈ idPlaces instructions := by
  simp [idPlaces]

theorem OperandWords.idPlace?_le {opcode : Opcode} {words : List Word} {n : Nat}
    (h : OperandWords opcode words) (hn : opcode.idPlace? = some n) : n ≤ words.length := by
  cases h with
  | jump => cases hn
  | call =>
    obtain rfl := Option.some.inj hn
    simp
  | convert =>
    obtain rfl := Option.some.inj hn
    simp
  | plain hplain =>
    rw [Opcode.idPlace?_plain hplain] at hn
    cases hn

namespace Tiles

variable {shader : Shader} {start stop : Nat} {instructions : List (Nat × Instruction)}

theorem le_idPlaces {code : Array Word} (h : Tiles code start instructions stop) :
    ∀ i ∈ idPlaces instructions, start ≤ i := by
  induction h with
  | done => simp [idPlaces]
  | @next ip size stop word instruction rest _ _ _ _ ih =>
    intro i hi
    obtain ⟨n, -, rfl⟩ | hi := mem_idPlaces_cons.mp hi
    · omega
    · have hle := ih i hi
      omega

/-- **Lines of code.**  Every instruction has a line.  A draft that takes the lines holds what is
    listed of the code. -/
theorem exists_lines (hdeclared : Declared shader.name shader.constants shader.symbols)
    (targets : List Nat) (low : Nat → Word → Word) (h : Tiles shader.code start instructions stop)
    (hstop : stop ≤ shader.code.size) (hlow : ∀ i, start ≤ i → low i = listedAt instructions i) :
    ∃ lines, (instructions.mapM fun place =>
        return Shader.labelLine targets place.1 ++ [← shader.instructionText place.1 place.2])
          = .ok lines ∧
      Yields (Relisting shader low (shader.code.toList.take start)) lines.flatten
        (Relisting shader low (shader.code.toList.take stop)) := by
  induction h with
  | done => exact ⟨[], rfl, .nil fun _ hdraft => hdraft⟩
  | @next ip size stop word instruction rest hword hdecode hsize hrest ih =>
    have hle := hrest.length_le
    obtain ⟨words, hat, rfl⟩ := instructionAt hword hdecode hsize (by omega)
    have hlength : (shader.code.toList.take ip).length = ip := by
      rw [List.length_take, Array.length_toList]
      omega
    -- of all places of identifiers only that of this instruction lies among its words
    have hhead : ∀ n ≤ words.length,
        low (n + (shader.code.toList.take ip).length) = instruction.opcode.listed n := by
      intro n hn
      have hplace : n + ip ∈ idPlaces ((ip, instruction) :: rest) ↔
          instruction.opcode.idPlace? = some n := by
        rw [mem_idPlaces_cons, Nat.add_comm n]
        refine ⟨?_, fun hid => .inl ⟨n, hid, rfl⟩⟩
        rintro (⟨m, hid, hm⟩ | hrestPlace)
        · rw [← Nat.add_left_cancel hm, hid]
        · have hbeyond := hrest.le_idPlaces _ hrestPlace
          omega
      rw [hlength, hlow (n + ip) (by omega)]
      funext word
      simp only [listedAt, Opcode.listed, hplace]
    have htail : ∀ i, ip + (words.length + 1) ≤ i → low i = listedAt rest i := by
      intro i hi
      have hplace : i ∈ idPlaces ((ip, instruction) :: rest) ↔ i ∈ idPlaces rest := by
        rw [mem_idPlaces_cons, or_iff_right]
        rintro ⟨n, hid, rfl⟩
        have hbound := hat.operandWords.idPlace?_le hid
        omega
      rw [hlow i (by omega)]
      funext word
      simp only [listedAt, hplace]
    have htake : shader.code.toList.take (ip + (words.length + 1))
        = shader.code.toList.take ip ++ instruction.encode :: words := by
      rw [List.take_add, hat.drop_eq, List.take_succ_cons, List.take_left]
    obtain ⟨lines, hlines, hyields⟩ := ih hstop htail
    have hline := Relisting.instruction hdeclared (hlength.symm ▸ hat) hhead
    have hmark := @Relisting.mark shader low (shader.code.toList.take ip) targets
    rw [hlength] at hmark
    rw [← htake] at hline
    refine ⟨(Shader.labelLine targets ip ++ [shader.instructionLine instruction words]) :: lines,
      ?_, ?_⟩
    · simp only [List.mapM_cons, bind_eq_ok, pure_eq_ok]
      exact ⟨_, ⟨_, hat.instructionText_eq, rfl⟩, lines, hlines, rfl⟩
    · exact (hmark.append hline).append hyields

/-- Every instruction of the tiling, with its words. -/
theorem exists_instructionAt {code : Array Word} (h : Tiles code start instructions stop)
    (hstop : stop ≤ code.size) :
    ∀ place ∈ instructions, ∃ words, InstructionAt code place.1 place.2 words := by
  induction h with
  | done => simp
  | next hword hdecode hsize hrest ih =>
    have hle := hrest.length_le
    obtain ⟨words, hat, -⟩ := instructionAt hword hdecode hsize (by omega)
    exact List.forall_mem_cons.mpr ⟨⟨words, hat⟩, ih hstop⟩

theorem exists_targets (h : Tiles shader.code start instructions shader.code.size) :
    ∃ targets, shader.targets instructions = .ok targets := by
  obtain htargets | ⟨k, ⟨ip, instruction⟩, fault, hplace, herror, -⟩ := mapM_cases
    (fun place : Nat × Instruction => return (← shader.operandWord place.1 1).toNat)
    (instructions.filter fun place => place.2.opcode.isJump)
  · exact htargets
  · obtain ⟨hmem, hjump⟩ := List.mem_filter.mp (List.mem_of_getElem? hplace)
    obtain ⟨words, hat⟩ := h.exists_instructionAt (Nat.le_refl _) _ hmem
    obtain ⟨opcode, key⟩ := instruction
    have hword : ∃ word, shader.operandWord ip 1 = .ok word := by
      cases hat.operandWords with
      | jump condition target => exact ⟨target, hat.operandWord_eq rfl⟩
      | call => cases hjump
      | convert => cases hjump
      | plain hplain => cases opcode <;> first | cases hplain; done | cases hjump
    obtain ⟨word, hword⟩ := hword
    simp only [hword] at herror
    cases herror

end Tiles

section Listings

variable {shader : Shader} {instructions : List (Nat × Instruction)}

/-- Code that is decoded to its end has a listing.  What is assembled from the listing has the code,
    with low bytes for the words that name functions and types. -/
theorem exists_listing (hdeclared : Declared shader.name shader.constants shader.symbols)
    (hfinite : shader.IsFinite) (h : Tiles shader.code 0 instructions shader.code.size) :
    ∃ listing, shader.listing = .ok listing ∧
      ∀ again, assemble listing = .ok again → again.code = lowIds shader.code instructions := by
  obtain ⟨targets, htargets⟩ := h.exists_targets
  obtain ⟨lines, hlines, hyields⟩ := h.exists_lines hdeclared targets (listedAt instructions)
    (Nat.le_refl _) fun _ _ => rfl
  have hmark := @Relisting.mark shader (listedAt instructions) shader.code.toList targets
  rw [List.take_zero, ← Array.length_toList, List.take_length] at hyields
  rw [Array.length_toList] at hmark
  have hwalk : walk shader.code = .ok ⟨instructions, none⟩ := by
    have hlength := h.length_le
    exact h.walkFrom_eq (by omega)
  have hcode : shader.instructionLines instructions
      = .ok (lines.flatten ++ Shader.labelLine targets shader.code.size) := by
    simp only [Shader.instructionLines, bind_eq_ok, pure_eq_ok]
    exact ⟨targets, htargets, lines, hlines, rfl⟩
  have htext : shader.listing = .ok (String.join ((shader.titleLine ::
      shader.symbols.symbols.toList.map Symbol.line ++ shader.constants.toList.map Value.line ++
        (lines.flatten ++ Shader.labelLine targets shader.code.size)).map (· ++ "\n"))) := by
    simp only [Shader.listing, bind_eq_ok]
    refine ⟨_, Shader.declarations_eq hdeclared, _, hwalk, ?_⟩
    dsimp only
    rw [hcode]
    rfl
  have hnew := (Reads.declarations hdeclared hfinite).yields.mono fun draft hdraft =>
    show Relisting shader (listedAt instructions) [] draft by
      subst hdraft
      exact ⟨rfl, .nil, fun _ _ hfind => (by cases hfind)⟩
  have hlisting := hnew.append (hyields.append hmark)
  refine ⟨_, htext, fun again hagain => ?_⟩
  rw [hlisting.code_eq hagain, lowIds, ← List.mapIdx_toArray, Array.toArray_toList]

theorem lowByte_eq_self {word : Word} : lowByte word = word ↔ word.toNat < 256 := by
  rw [lowByte, ← UInt32.toNat_inj, UInt32.toNat_ofNat']
  have hlt := word.toNat_lt
  omega

/-- Nothing is lost exactly if every word that names a function or a type is a byte. -/
theorem lowIds_eq_self {code : Array Word} : lowIds code instructions = code ↔
    ∀ i ∈ idPlaces instructions, ∀ word, code[i]? = some word → word.toNat < 256 := by
  constructor
  · intro hsame i hi word hword
    have hget := congrArg (·[i]?) hsame
    simp only [lowIds, Array.getElem?_mapIdx, hword, listedAt, if_pos hi, Option.map_some,
      Option.some.injEq] at hget
    exact lowByte_eq_self.mp hget
  · intro hbytes
    refine Array.ext_getElem? fun i => ?_
    rw [lowIds, Array.getElem?_mapIdx]
    cases hword : code[i]? with
    | none => rfl
    | some word =>
      rw [Option.map_some, listedAt]
      split
      next hi => rw [lowByte_eq_self.mpr (hbytes i hi word hword)]
      next => rfl

end Listings

/-- **Listings of any code.**  Let a shader have the name, the symbols and the constants of an
    assembled shader with finite numbers, and code that is decoded to its very end.  It has a listing.
    If that can be assembled, it gives the code back, with low bytes for the words that name functions
    and types; so it gives back every word exactly if all these words are bytes. -/
theorem listing_represents_code {text : String} {source shader : Shader}
    {instructions : List (Nat × Instruction)} (hsource : assemble text = .ok source)
    (hfinite : source.IsFinite) (hname : shader.name = source.name)
    (hsymbols : shader.symbols = source.symbols) (hconstants : shader.constants = source.constants)
    (hcode : Tiles shader.code 0 instructions shader.code.size) :
    ∃ listing, shader.listing = .ok listing ∧ ∀ again, assemble listing = .ok again →
      again.code = lowIds shader.code instructions ∧
      (again.code = shader.code ↔
        ∀ i ∈ idPlaces instructions, ∀ word, shader.code[i]? = some word → word.toNat < 256) := by
  have hdeclared : Declared shader.name shader.constants shader.symbols := by
    rw [hname, hsymbols, hconstants]
    exact assemble_declared hsource
  have hfinite' : shader.IsFinite := by
    refine ⟨?_, ?_⟩
    · rw [hconstants]
      exact hfinite.constants
    · rw [hsymbols]
      exact hfinite.defaults
  obtain ⟨listing, hlisting, hagain⟩ := exists_listing hdeclared hfinite' hcode
  refine ⟨listing, hlisting, fun again h => ⟨hagain again h, ?_⟩⟩
  rw [hagain again h]
  exact lowIds_eq_self

/-- The declarations of `grey`, with a call of no function there is and a jump that leads into it. -/
def strayGrey : Shader :=
  { grey with code := #[6, 3, 28, 256, 0x80000000, 1, 0x40000000, 0x23211F, 0x40000000, 0x80000000, 4] }

theorem listing_represents_code_strayGrey : assemble greyText = .ok grey ∧ grey.IsFinite ∧
    ∃ listing, strayGrey.listing = .ok listing ∧ ∀ again, assemble listing = .ok again →
      again.code = lowIds strayGrey.code [(0, .plain (.jump .empty)), (2, .plain .call),
        (7, ⟨.convert, .pair ⟨.varying, .three⟩ ⟨.varying, .one⟩⟩)] ∧
      (again.code = strayGrey.code ↔ ∀ i ∈ idPlaces [(0, .plain (.jump .empty)), (2, .plain .call),
        (7, ⟨.convert, .pair ⟨.varying, .three⟩ ⟨.varying, .one⟩⟩)],
          ∀ word, strayGrey.code[i]? = some word → word.toNat < 256) :=
  ⟨assemble_greyText, isFinite_grey,
    listing_represents_code assemble_greyText isFinite_grey rfl rfl rfl
      (.next rfl rfl rfl (.next rfl rfl rfl (.next rfl rfl rfl (.done 11))))⟩

/-- A call of function 256, which there is not. -/
def misnamedCall : Shader where
  kind := .surface
  name := "main"
  code := #[28, 256, 0x80000000, 1, 0x80000000]
  constants := #[]
  symbols := SymbolTable.empty
  temporaries := 1

set_option maxRecDepth 4000 in
/-- It is listed as a call of function 0, and assembled to one. -/
theorem listing_renames_misnamedCall :
    Tiles misnamedCall.code 0 [(0, .plain .call)] misnamedCall.code.size ∧
      (Vocabulary.ofCode? 256 : Option Builtin) = none ∧
      misnamedCall.listing = .ok ".shader surface main\n  call xcomp, %0, %0\n" ∧
      assemble ".shader surface main\n  call xcomp, %0, %0\n"
        = .ok { misnamedCall with code := #[28, 0, 0x80000000, 1, 0x80000000] } ∧
      #[28, 0, 0x80000000, 1, 0x80000000] ≠ misnamedCall.code := by
  refine ⟨.next rfl rfl rfl (.done 5), rfl, ?_, ?_, by decide⟩
  · with_unfolding_all rfl
  · with_unfolding_all rfl

end Shading
