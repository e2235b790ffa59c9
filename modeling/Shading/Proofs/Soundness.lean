import Shading.Proofs.Listing

namespace Shading

/-!
# Soundness of assembled code

What can be relied on when assembled code is read word by word: instructions follow one another from
the first word to the last, jumps lead to where one of them begins, and every operand word is what its
instruction takes it for.

* `Tiles` — instructions that follow one another between two offsets;
* `Shader.Has` — the constant, symbol or temporary of an address exists;
* `Opcode.addressPlaces` — which of its words an instruction takes for addresses;
* `Shader.IsSound` — one instruction, its key and its operand words;
* `Shader.ConsistsOf` — the instructions that code consists of;
* `Shader.IsMadeOf.consistsOf` — assembled code as a whole.
-/

/-- Instructions that follow one another from one offset to another: each is what its word decodes
    to, and takes the words up to the next. -/
inductive Tiles (code : Array Word) : Nat → List (Nat × Instruction) → Nat → Prop
  | done (ip : Nat) : Tiles code ip [] ip
  | next {ip size stop : Nat} {word : Word} {instruction : Instruction}
      {rest : List (Nat × Instruction)} (hword : code[ip]? = some word)
      (hdecode : Instruction.decode word = .ok instruction)
      (hsize : instructionSize code ip instruction.opcode = .ok size)
      (hrest : Tiles code (ip + size) rest stop) : Tiles code ip ((ip, instruction) :: rest) stop

/-- The key has the form that the opcode demands: one shape, two shapes or none. -/
def Opcode.Demands (opcode : Opcode) (key : Key) : Prop :=
  if opcode.requiresKey then
    if opcode.hasSingleShape then ∃ shape, key = .single shape
    else ∃ first second, key = .pair first second
  else key = .none

/-- The places of the words that are addresses, counted from the word of an instruction that takes so
    many words. -/
def Opcode.addressPlaces (size : Nat) : Opcode → List Nat
  | .jump _ => []
  | .call => 2 :: List.range' 4 (size - 4)
  | .convert => [1, 2]
  | _ => List.range' 1 (size - 1)

theorem Opcode.addressPlaces_of_isPlain {opcode : Opcode} (h : opcode.isPlain = true) (size : Nat) :
    opcode.addressPlaces size = List.range' 1 (size - 1) := by
  cases opcode <;> first | rfl | cases h

namespace Shader

/-- There is a constant or symbol, or there will be a temporary, of this address. -/
def Has (shader : Shader) : Address → Prop
  | .constant i => i < shader.constants.size
  | .symbol i => i < shader.symbols.size
  | .temporary i => i < shader.temporaries

/-- The instruction at an offset has all its words, and they are what it takes them for.  Its jump
    leads to one of the given offsets. -/
structure IsSound (shader : Shader) (offsets : List Nat) (ip : Nat) (instruction : Instruction) :
    Prop where
  demands : instruction.opcode.Demands instruction.key
  words : ∃ size, instructionSize shader.code ip instruction.opcode = .ok size ∧
    ip + size ≤ shader.code.size ∧
    ∀ n ∈ instruction.opcode.addressPlaces size, ∃ word address,
      shader.code[ip + n]? = some word ∧ Address.decode? word = some address ∧ shader.Has address
  jump : ∀ condition, instruction.opcode = .jump condition →
    ∃ word, shader.code[ip + 1]? = some word ∧ word.toNat ∈ offsets
  call : instruction.opcode = .call → ∃ word count, ∃ function : Builtin,
    shader.code[ip + 1]? = some word ∧ Vocabulary.ofCode? word.toNat = some function ∧
    shader.code[ip + 3]? = some count ∧ function.arity.1 ≤ count.toNat ∧
    count.toNat ≤ function.arity.2 ∧ instructionSize shader.code ip .call = .ok (4 + count.toNat)
  convert : instruction.opcode = .convert → ∃ word, ∃ type : ElementType,
    shader.code[ip + 3]? = some word ∧ Vocabulary.ofCode? word.toNat = some type

/-- The instructions that code consists of: they follow one another to its very end, and each of them
    is sound. -/
structure ConsistsOf (shader : Shader) (instructions : List (Nat × Instruction)) : Prop where
  tiles : Tiles shader.code 0 instructions shader.code.size
  isSound : ∀ place ∈ instructions,
    shader.IsSound (instructions.map Prod.fst ++ [shader.code.size]) place.1 place.2

end Shader

/-! ### Keys and words -/

theorem Opcode.Takes.demands {opcode : Opcode} {key : Key} (h : opcode.Takes key) :
    opcode.Demands key := by
  unfold Takes at h
  unfold Demands
  split at h
  next hrequires =>
    obtain ⟨hwritten, hsingle⟩ := h
    rw [if_pos hrequires]
    cases hwritten with
    | one shape =>
      have hshape : (Key.single shape).shape?.isSome = true := by
        rw [Key.shape?_single, Option.isSome_some]
      rw [hsingle, hshape]
      exact ⟨shape, rfl⟩
    | two first second =>
      -- the first shape stands in the upper byte, where a single shape has nothing
      have hshape : (Key.pair first second).shape?.isSome = false := by
        have hpos := first.toByte_bounds
        rw [Key.shape?, if_neg (by simp; omega)]
        rfl
      rw [hsingle, hshape]
      exact ⟨first, second, rfl⟩
  next hrequires => rwa [if_neg hrequires]

theorem le_foldl_max (ns : List Nat) (least : Nat) :
    least ≤ ns.foldl max least ∧ ∀ n ∈ ns, n ≤ ns.foldl max least := by
  induction ns generalizing least with
  | nil => simp
  | cons first rest ih =>
    obtain ⟨hleast, hrest⟩ := ih (max least first)
    rw [List.foldl_cons, List.forall_mem_cons]
    exact ⟨by omega, by omega, hrest⟩

namespace Operation

variable {code : Array Word} {ip : Nat} {operation : Operation Nat} {operations : List (Operation Nat)}

theorem le_temporaries (hoperation : operation ∈ operations) {address : Address}
    (haddress : address ∈ operation.addresses) : address.temporariesFor ≤ temporaries operations :=
  (le_foldl_max _ 0).2 _ <| List.mem_map_of_mem <|
    List.mem_flatMap.mpr ⟨operation, hoperation, haddress⟩

/-- The words at the places of addresses are those of the operation's addresses. -/
theorem IsComplete.words_address (h : operation.IsComplete) {n : Nat}
    (hn : n ∈ operation.instruction.opcode.addressPlaces operation.size) :
    ∃ address ∈ operation.addresses, operation.words[n]? = some address.word := by
  cases operation with
  | jump condition target => cases hn
  | call function result arguments =>
    obtain rfl | hn := List.mem_cons.mp hn
    · exact ⟨result, List.mem_cons_self, rfl⟩
    · obtain ⟨k, hk, rfl⟩ := List.mem_range'.mp hn
      have hlt : k < arguments.length := by simp only [size] at hk; omega
      refine ⟨arguments[k], List.mem_cons_of_mem _ (List.getElem_mem hlt), ?_⟩
      rw [Nat.one_mul, Nat.add_comm]
      simp [words, layout, hlt]
  | convert key result source type =>
    obtain rfl | hn := List.mem_cons.mp hn
    · exact ⟨result, List.mem_cons_self, rfl⟩
    · obtain rfl := List.mem_singleton.mp hn
      exact ⟨source, List.mem_cons_of_mem _ List.mem_cons_self, rfl⟩
  | plain opcode key operands =>
    have hplaces : opcode.addressPlaces (1 + operands.length) = List.range' 1 operands.length := by
      rw [Opcode.addressPlaces_of_isPlain h.1, Nat.add_sub_cancel_left]
    obtain ⟨k, hk, rfl⟩ := List.mem_range'.mp (hplaces ▸ hn)
    refine ⟨operands[k], List.getElem_mem hk, ?_⟩
    rw [Nat.one_mul, Nat.add_comm]
    simp [words, layout, hk]

theorem toNat_code {α : Type} [DecidableEq α] [Vocabulary α] [LawfulVocabulary α] (word : α) :
    Vocabulary.ofCode? (UInt32.ofNat (Vocabulary.code word)).toNat = some word := by
  have hlt := Vocabulary.code_lt word
  rw [UInt32.toNat_ofNat_of_lt' (by show _ < 4294967296; omega), Vocabulary.ofCode?_code]

/-- Operations laid out one after the other are read as their instructions. -/
theorem tiles_located (hcode : code.toList.drop ip = operations.flatMap words)
    (hcomplete : ∀ operation ∈ operations, operation.IsComplete) :
    Tiles code ip ((located ip operations).map fun place => (place.1, place.2.instruction))
      (ip + totalSize operations) := by
  induction operations generalizing ip with
  | nil => exact .done ip
  | cons first rest ih =>
    obtain ⟨hfirst, hrest⟩ := List.forall_mem_cons.mp hcomplete
    have hstands : first.StandsAt code ip := ⟨_, hcode⟩
    have hcode' : code.toList.drop (ip + first.size) = rest.flatMap words := by
      rw [← List.drop_drop, hcode, List.flatMap_cons, ← length_words, List.drop_left]
    have htiles := ih hcode' hrest
    rw [Nat.add_assoc] at htiles
    exact .next (hstands.getElem?_eq first.size_pos) (Instruction.decode_encode hfirst.isWellFormed)
      (hstands.instructionSize_eq hfirst) htiles

end Operation

/-! ### Shaders -/

namespace Shader

variable {shader : Shader} {ip : Nat} {operation : Operation Nat} {operations : List (Operation Nat)}

theorem IsMadeOf.has (h : shader.IsMadeOf operations) (hoperation : operation ∈ operations)
    {address : Address} (haddress : address ∈ operation.addresses) : shader.Has address := by
  obtain ⟨-, hin⟩ := (h.isValid operation hoperation).isIn address haddress
  cases address with
  | constant i => exact hin
  | symbol i => exact hin
  | temporary i =>
    show i + 1 ≤ shader.temporaries
    rw [h.temporaries_eq]
    exact Operation.le_temporaries hoperation haddress

/-- An operation that stands in the code makes a sound instruction. -/
theorem Holds.isSound {offsets : List Nat} (h : shader.Holds ip operation)
    (hhas : ∀ address ∈ operation.addresses, shader.Has address)
    (htarget : ∀ target, operation.target? = some target → target ∈ offsets) :
    shader.IsSound offsets ip operation.instruction := by
  obtain ⟨hstands, hvalid, hlt⟩ := h
  have hcomplete := hvalid.isComplete
  have hsize := hstands.instructionSize_eq hcomplete
  have hword : ∀ {n : Nat} {word : Word}, operation.words[n]? = some word →
      shader.code[ip + n]? = some word := fun hn =>
    (hstands.getElem?_eq (Operation.length_words ▸ (List.getElem?_eq_some_iff.mp hn).1)).trans hn
  -- opcodes that ask for more than addresses are written in forms of their own
  refine ⟨hcomplete.takes.demands, ⟨_, hsize, hstands.size_le, fun n hn => ?_⟩, ?_, ?_, ?_⟩
  · obtain ⟨address, haddress, hn⟩ := hcomplete.words_address hn
    exact ⟨_, address, hword hn, Address.decode?_word (hvalid.isIn address haddress).1,
      hhas address haddress⟩
  · intro condition hopcode
    cases operation with
    | jump _ target =>
      refine ⟨_, hword rfl, ?_⟩
      rw [UInt32.toNat_ofNat_of_lt' (hlt target rfl)]
      exact htarget target rfl
    | plain opcode key operands =>
      obtain rfl : opcode = .jump condition := hopcode
      cases hcomplete.1
    | _ => cases hopcode
  · intro hopcode
    cases operation with
    | call function result arguments =>
      refine ⟨_, UInt32.ofNat arguments.length, function, hword rfl, Operation.toNat_code function,
        hword rfl, ?_⟩
      rw [hcomplete.toNat_count]
      exact ⟨hcomplete.1, hcomplete.2, hsize⟩
    | plain opcode key operands =>
      obtain rfl : opcode = .call := hopcode
      cases hcomplete.1
    | _ => cases hopcode
  · intro hopcode
    cases operation with
    | convert key result source type =>
      exact ⟨_, type, hword rfl, Operation.toNat_code type⟩
    | plain opcode key operands =>
      obtain rfl : opcode = .convert := hopcode
      cases hcomplete.1
    | _ => cases hopcode

/-- Assembled code is read instruction by instruction to its very end. -/
theorem IsMadeOf.tiles (h : shader.IsMadeOf operations) :
    Tiles shader.code 0 ((Operation.located 0 operations).map fun place =>
      (place.1, place.2.instruction)) shader.code.size := by
  have htiles := @Operation.tiles_located shader.code 0 operations h.code_eq
    fun operation hoperation => (h.isValid operation hoperation).isComplete
  rwa [Nat.zero_add, ← h.size_code] at htiles

/-- Each operation makes a sound instruction, and its jump leads to where one of them begins or to
    the end. -/
theorem IsMadeOf.isSound (h : shader.IsMadeOf operations) (hsize : shader.code.size < 4294967296) :
    ∀ place ∈ Operation.located 0 operations,
      shader.IsSound ((Operation.located 0 operations).map Prod.fst ++ [shader.code.size]) place.1
        place.2.instruction := by
  rintro ⟨ip, operation⟩ hlocated
  have hmem : operation ∈ operations := by
    rw [← @Operation.map_snd_located 0 operations]
    exact List.mem_map_of_mem hlocated
  refine (h.holds hsize _ hlocated).isSound (fun address => h.has hmem) ?_
  intro target htarget
  rw [h.size_code]
  exact (h.isBoundary operation hmem target htarget).mem_places

theorem IsMadeOf.consistsOf {operations : List (Operation Nat)} (h : shader.IsMadeOf operations)
    (hsize : shader.code.size < 4294967296) :
    shader.ConsistsOf ((Operation.located 0 operations).map fun place =>
      (place.1, place.2.instruction)) := by
  refine ⟨h.tiles, fun place hplace => ?_⟩
  obtain ⟨located, hlocated, rfl⟩ := List.mem_map.mp hplace
  rw [List.map_map]
  exact h.isSound hsize located hlocated

end Shader

/-- **Sound code.**  Assembled code is read instruction by instruction to its very end, and each of
    them has a key of the form it demands, operands that exist, and a jump to where an instruction
    begins or to the end. -/
theorem assemble_isSound {text : String} {shader : Shader} (h : assemble text = .ok shader)
    (hsize : shader.code.size < 4294967296) :
    ∃ instructions, walk shader.code = .ok ⟨instructions, none⟩ ∧
      Tiles shader.code 0 instructions shader.code.size ∧
      ∀ place ∈ instructions,
        shader.IsSound (instructions.map Prod.fst ++ [shader.code.size]) place.1 place.2 := by
  obtain ⟨operations, hmade⟩ := assemble_isMadeOf h
  have hcode := hmade.consistsOf hsize
  exact ⟨_, hmade.walk_eq, hcode.tiles, hcode.isSound⟩

theorem assemble_isSound_grey : assemble greyText = .ok grey ∧
    ∃ instructions, walk grey.code = .ok ⟨instructions, none⟩ ∧
      Tiles grey.code 0 instructions grey.code.size ∧
      ∀ place ∈ instructions,
        grey.IsSound (instructions.map Prod.fst ++ [grey.code.size]) place.1 place.2 :=
  ⟨assemble_greyText, assemble_isSound assemble_greyText (by decide)⟩

end Shading
