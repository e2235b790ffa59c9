import Shading.Proofs.Encoding

namespace Shading

/-!
# Operations of assembled code

The code of an assembled shader is a sequence of operations, laid out one after the other.  Each has a
key that suits it and addresses that exist, and each jump leads to where an operation begins or to the
end of the code.

* `Operation` — an operation, with jump targets of a given type: labels in a draft, offsets in code;
* `Operation.layout` — the words it becomes;
* `Operation.IsValid` — the key, the number and the addresses of its operands;
* `Draft.emit_operation` — an operation line becomes a valid operation;
* `Drafted`, `Shader.IsMadeOf` — drafts and shaders whose code is made of operations;
* `assemble_isMadeOf` — assembled shaders are.
-/

inductive Operation (τ : Type)
  | jump (condition : JumpCondition) (target : τ)
  | call (function : Builtin) (result : Address) (arguments : List Address)
  | convert (key : Key) (result source : Address) (type : ElementType)
  /-- An operation whose operands are all addresses. -/
  | plain (opcode : Opcode) (key : Key) (operands : List Address)

/-- The opcodes whose operands are all addresses. -/
def Opcode.isPlain : Opcode → Bool
  | .jump _ | .call | .convert => false
  | _ => true

/-- Only a call has no fixed number of operands. -/
theorem Opcode.exists_operandCount {opcode : Opcode} (h : opcode.isPlain = true) :
    ∃ count, opcode.operandCount? = some count := by
  cases opcode <;> first | exact ⟨_, rfl⟩ | cases h

/-- The operands of an operation that has as many as it wants: all are addresses, or they are those of a
    jump, a call or a conversion. -/
theorem Opcode.operands_cases {opcode : Opcode} {operands : List Operand}
    (hcount : operands.length = opcode.operandCount?.getD (max operands.length 2)) :
    opcode.isPlain = true ∨
    (∃ condition target, opcode = .jump condition ∧ operands = [target]) ∨
    (∃ function result arguments, opcode = .call ∧ operands = function :: result :: arguments) ∨
    ∃ result source type, opcode = .convert ∧ operands = [result, source, type] := by
  cases opcode with
  | jump condition =>
    obtain ⟨target, rfl⟩ := List.length_eq_one_iff.mp hcount
    exact .inr (.inl ⟨condition, target, rfl, rfl⟩)
  | call =>
    -- the count that a call demands leaves no fewer than two operands
    obtain _ | ⟨function, _ | ⟨result, arguments⟩⟩ := operands
    · cases hcount
    · cases hcount
    · exact .inr (.inr (.inl ⟨function, result, arguments, rfl, rfl⟩))
  | convert =>
    obtain ⟨result, source, type, rfl⟩ := List.length_eq_three.mp hcount
    exact .inr (.inr (.inr ⟨result, source, type, rfl, rfl⟩))
  | _ => exact .inl rfl

/-- The key suits the opcode: it has one shape or two, or there is none, as the opcode wants. -/
def Opcode.Takes (opcode : Opcode) (key : Key) : Prop :=
  if opcode.requiresKey then key.IsWritten ∧ opcode.hasSingleShape = key.shape?.isSome
  else key = Key.none

/-- The address is that of a constant or symbol there is, or of a temporary, and can be encoded. -/
def Address.IsIn (constants symbols : Nat) (address : Address) : Prop :=
  address.index < 0x40000000 ∧
    match address with
    | .constant i => i < constants
    | .symbol i => i < symbols
    | .temporary _ => True

/-- How many temporaries there must be for the address to be one. -/
def Address.temporariesFor : Address → Nat
  | .temporary i => i + 1
  | _ => 0

namespace Operation

variable {τ υ β : Type}

def instruction : Operation τ → Instruction
  | jump condition _ => .plain (.jump condition)
  | call _ _ _ => .plain .call
  | convert key _ _ _ => ⟨.convert, key⟩
  | plain opcode key _ => ⟨opcode, key⟩

def addresses : Operation τ → List Address
  | jump _ _ => []
  | call _ result arguments => result :: arguments
  | convert _ result source _ => [result, source]
  | plain _ _ operands => operands

def target? : Operation τ → Option τ
  | jump _ target => some target
  | _ => none

def map (f : τ → υ) : Operation τ → Operation υ
  | jump condition target => jump condition (f target)
  | call function result arguments => call function result arguments
  | convert key result source type => convert key result source type
  | plain opcode key operands => plain opcode key operands

/-- The places that an operation takes in code, given how words and targets are placed. -/
def layout (word : Word → β) (target : τ → β) (operation : Operation τ) : List β :=
  word operation.instruction.encode ::
    match operation with
    | jump _ t => [target t]
    | call function result arguments =>
      word (UInt32.ofNat (Vocabulary.code function)) :: word result.word ::
        word (UInt32.ofNat arguments.length) :: arguments.map (word ·.word)
    | convert _ result source type =>
      [word result.word, word source.word, word (UInt32.ofNat (Vocabulary.code type))]
    | plain _ _ operands => operands.map (word ·.word)

def size : Operation τ → Nat
  | jump _ _ => 2
  | call _ _ arguments => 4 + arguments.length
  | convert _ _ _ _ => 4
  | plain _ _ operands => 1 + operands.length

/-- The words of an operation whose targets are offsets. -/
def words : Operation Nat → List Word := layout id UInt32.ofNat

/-- The slots of an operation whose targets are labels, each with the line it stands on. -/
def slots : Operation (String × Nat) → List Slot := layout .word fun target => .target target.1 target.2

/-- The key suits the opcode and there are as many operands as it wants. -/
def IsComplete : Operation τ → Prop
  | jump _ _ => True
  | call function _ arguments =>
    function.arity.1 ≤ arguments.length ∧ arguments.length ≤ function.arity.2
  | convert key _ _ _ => Opcode.convert.Takes key
  | plain opcode key operands =>
    opcode.isPlain = true ∧ opcode.Takes key ∧ opcode.operandCount? = some operands.length

structure IsValid (constants symbols : Nat) (operation : Operation τ) : Prop where
  isComplete : operation.IsComplete
  isIn : ∀ address ∈ operation.addresses, address.IsIn constants symbols

/-- The key of a complete operation suits its opcode. -/
theorem IsComplete.takes {operation : Operation τ} (h : operation.IsComplete) :
    operation.instruction.opcode.Takes operation.instruction.key := by
  cases operation with
  | jump condition target => rfl
  | call function result arguments => rfl
  | convert key result source type => exact h
  | plain opcode key operands => exact h.2.1

theorem size_pos (operation : Operation τ) : 0 < operation.size := by
  cases operation <;> simp [size]

theorem length_layout (word : Word → β) (target : τ → β) (operation : Operation τ) :
    (operation.layout word target).length = operation.size := by
  cases operation <;> simp [layout, size] <;> omega

theorem size_map (f : τ → υ) (operation : Operation τ) : (operation.map f).size = operation.size := by
  cases operation <;> rfl

theorem addresses_map (f : τ → υ) (operation : Operation τ) :
    (operation.map f).addresses = operation.addresses := by
  cases operation <;> rfl

theorem target?_map (f : τ → υ) (operation : Operation τ) :
    (operation.map f).target? = operation.target?.map f := by
  cases operation <;> rfl

theorem IsValid.map {constants symbols : Nat} {operation : Operation τ}
    (h : operation.IsValid constants symbols) (f : τ → υ) :
    (operation.map f).IsValid constants symbols := by
  obtain ⟨hcomplete, hin⟩ := h
  cases operation <;> exact ⟨hcomplete, hin⟩

theorem IsValid.mono {constants symbols constants' symbols' : Nat} {operation : Operation τ}
    (h : operation.IsValid constants symbols) (hconstants : constants ≤ constants')
    (hsymbols : symbols ≤ symbols') : operation.IsValid constants' symbols' := by
  refine ⟨h.isComplete, fun address haddress => ?_⟩
  obtain ⟨hindex, hlt⟩ := h.isIn address haddress
  refine ⟨hindex, ?_⟩
  cases address with
  | constant i => exact Nat.lt_of_lt_of_le hlt hconstants
  | symbol i => exact Nat.lt_of_lt_of_le hlt hsymbols
  | temporary i => trivial

/-- Placing words and targets commutes with what becomes of a place. -/
theorem map_layout {γ : Type} (g : β → γ) (word : Word → β) (target : τ → β)
    (operation : Operation τ) :
    (operation.layout word target).map g = operation.layout (g ∘ word) (g ∘ target) := by
  cases operation <;> simp [layout, instruction]

theorem mem_slots {operation : Operation (String × Nat)} {slot : Slot} (h : slot ∈ operation.slots) :
    (∃ word, slot = .word word) ∨
      ∃ label line, operation.target? = some (label, line) ∧ slot = .target label line := by
  obtain rfl | h := List.mem_cons.mp h
  · exact .inl ⟨_, rfl⟩
  · cases operation with
    | jump condition target =>
      obtain rfl := List.mem_singleton.mp h
      exact .inr ⟨target.1, target.2, rfl, rfl⟩
    | call function result arguments =>
      simp only [List.mem_cons, List.mem_map] at h
      obtain rfl | rfl | rfl | ⟨_, -, rfl⟩ := h <;> exact .inl ⟨_, rfl⟩
    | convert key result source type =>
      simp only [List.mem_cons, List.not_mem_nil, or_false] at h
      obtain rfl | rfl | rfl := h <;> exact .inl ⟨_, rfl⟩
    | plain opcode key operands =>
      obtain ⟨_, -, rfl⟩ := List.mem_map.mp h
      exact .inl ⟨_, rfl⟩

theorem target_mem_slots {operation : Operation (String × Nat)} {label : String} {line : Nat}
    (h : operation.target? = some (label, line)) : Slot.target label line ∈ operation.slots := by
  cases operation with
  | jump condition target =>
    obtain rfl := Option.some.inj h
    simp [slots, layout]
  | _ => cases h

theorem layout_map (f : τ → υ) (word : Word → β) (target : υ → β) (operation : Operation τ) :
    (operation.map f).layout word target = operation.layout word (target ∘ f) := by
  cases operation <;> rfl

end Operation

/-! ### Operation lines -/

namespace Draft

variable {draft : Draft} {line : Nat} {operand : Operand} {operands : List Operand}

/-- What an operand can name: a constant or symbol there is, or a temporary. -/
theorem address_cases {address : Address} (h : draft.address operand = .ok address) :
    (∃ i, operand = .constant i ∧ i < draft.constants.size ∧ address = .constant i) ∨
    (∃ i, operand = .temporary i ∧ address = .temporary i) ∨
    (∃ i, operand = .symbol i ∧ i < draft.symbols.size ∧ address = .symbol i) ∨
    ∃ name slot, operand = .symbolNamed name ∧ draft.symbols.slot? name = some slot ∧
      address = .symbol slot := by
  cases operand with
  | constant i =>
    simp only [Draft.address] at h
    split at h
    next hlt => exact .inl ⟨i, rfl, hlt, (Except.ok.inj h).symm⟩
    next => cases h
  | temporary i => exact .inr (.inl ⟨i, rfl, (Except.ok.inj h).symm⟩)
  | symbol i =>
    simp only [Draft.address] at h
    split at h
    next hlt => exact .inr (.inr (.inl ⟨i, rfl, hlt, (Except.ok.inj h).symm⟩))
    next => cases h
  | symbolNamed name =>
    simp only [Draft.address] at h
    split at h
    next slot hslot => exact .inr (.inr (.inr ⟨name, slot, rfl, hslot, (Except.ok.inj h).symm⟩))
    next => cases h
  | word name => cases h

/-- The operand names an address of the draft. -/
theorem address_isIn {address : Address} (h : draft.address operand = .ok address)
    (hindex : address.index < 0x40000000) :
    address.IsIn draft.constants.size draft.symbols.size ∧
      temporariesFor operand = address.temporariesFor := by
  obtain ⟨i, rfl, hlt, rfl⟩ | ⟨i, rfl, rfl⟩ | ⟨i, rfl, hlt, rfl⟩ | ⟨name, slot, rfl, hslot, rfl⟩ :=
    address_cases h
  · exact ⟨⟨hindex, hlt⟩, rfl⟩
  · exact ⟨⟨hindex, trivial⟩, rfl⟩
  · exact ⟨⟨hindex, hlt⟩, rfl⟩
  · obtain ⟨hlt, -⟩ := Array.findIdx?_eq_some_iff_getElem.mp hslot
    exact ⟨⟨hindex, hlt⟩, rfl⟩

theorem addressWord_eq_ok {word : Word} : draft.addressWord operand = .ok word ↔
    ∃ address, draft.address operand = .ok address ∧ address.index < 0x40000000 ∧
      address.word = word := by
  unfold addressWord
  cases draft.address operand with
  | error => simp
  | ok address =>
    simp only [← Address.encode?_eq_some, Except.ok.injEq, exists_eq_left']
    cases address.encode? <;> simp

theorem addressSlots_cons : draft.addressSlots (operand :: operands) = (do
    let word ← draft.addressWord operand
    let slots ← draft.addressSlots operands
    return .word word :: slots) := by
  simp [addressSlots]

/-- The operands name addresses of the draft, one after the other. -/
theorem addressSlots_eq_ok {slots : List Slot} : draft.addressSlots operands = .ok slots ↔
    ∃ addresses, operands.mapM draft.address = .ok addresses ∧
      (∀ address ∈ addresses, address.index < 0x40000000) ∧
      slots = addresses.map (Slot.word ·.word) := by
  -- each operand is encoded before the next is looked up, so the two are told apart one by one
  induction operands generalizing slots with
  | nil =>
    simp only [addressSlots, List.mapM_nil, pure_eq_ok]
    constructor
    · rintro rfl
      exact ⟨[], rfl, by simp, rfl⟩
    · rintro ⟨_, rfl, -, rfl⟩
      rfl
  | cons operand operands ih =>
    rw [addressSlots_cons]
    simp only [bind_eq_ok, pure_eq_ok, addressWord_eq_ok, ih, List.mapM_cons]
    constructor
    · rintro ⟨_, ⟨address, haddress, hindex, rfl⟩, _, ⟨addresses, haddresses, hindices, rfl⟩, rfl⟩
      exact ⟨address :: addresses, ⟨address, haddress, addresses, haddresses, rfl⟩,
        List.forall_mem_cons.mpr ⟨hindex, hindices⟩, rfl⟩
    · rintro ⟨_, ⟨address, haddress, addresses, haddresses, rfl⟩, hindices, rfl⟩
      rw [List.forall_mem_cons] at hindices
      exact ⟨_, ⟨address, haddress, hindices.1, rfl⟩, _, ⟨addresses, haddresses, hindices.2, rfl⟩,
        rfl⟩

theorem addresses_isIn {addresses : List Address} (h : operands.mapM draft.address = .ok addresses)
    (hindices : ∀ address ∈ addresses, address.index < 0x40000000) :
    (∀ address ∈ addresses, address.IsIn draft.constants.size draft.symbols.size) ∧
      operands.map temporariesFor = addresses.map Address.temporariesFor := by
  induction operands generalizing addresses with
  | nil =>
    obtain rfl := pure_eq_ok.mp h
    simp
  | cons operand operands ih =>
    simp only [List.mapM_cons, bind_eq_ok, pure_eq_ok] at h
    obtain ⟨address, haddress, addresses, haddresses, rfl⟩ := h
    rw [List.forall_mem_cons] at hindices
    obtain ⟨hin, htemporaries⟩ := address_isIn haddress hindices.1
    obtain ⟨hins, hrest⟩ := ih haddresses hindices.2
    exact ⟨List.forall_mem_cons.mpr ⟨hin, hins⟩, by
      rw [List.map_cons, List.map_cons, htemporaries, hrest]⟩

@[simp] theorem temporariesFor_word (name : String) : temporariesFor (.word name) = 0 := rfl

theorem readKey_takes {opcode : Opcode} {text : Option String} {key : Key}
    (h : readKey opcode text = .ok key) : opcode.Takes key := by
  unfold readKey at h
  unfold Opcode.Takes
  split at h
  next hrequires =>
    obtain rfl := Except.ok.inj h
    rw [hrequires]
    rfl
  next => cases h
  next => cases h
  next hrequires =>
    rw [hrequires]
    split at h
    next hparse =>
      split at h
      next hshape =>
        obtain rfl := Except.ok.inj h
        exact ⟨Key.isWritten_of_parse? hparse, hshape⟩
      next => cases h
    next => cases h

theorem nameOf_eq_ok {part : OperandPart} {name : String} :
    nameOf operand part = .ok name ↔ operand = .word name := by
  cases operand <;> simp [nameOf]

theorem oneOf_eq_ok {α : Type} [Vocabulary α] {part : OperandPart} {word : α} :
    oneOf operand part = .ok word ↔
      ∃ name, operand = .word name ∧ Vocabulary.ofName? name = some word := by
  unfold oneOf
  simp only [bind_eq_ok, nameOf_eq_ok]
  constructor
  · rintro ⟨name, hname, h⟩
    split at h
    next hword =>
      obtain rfl := pure_eq_ok.mp h
      exact ⟨name, hname, hword⟩
    next => cases throw_eq_ok.mp h
  · rintro ⟨name, hname, hword⟩
    exact ⟨name, hname, by rw [hword]; rfl⟩

/-- What an operation line becomes: its instruction word and the slots of its operands. -/
theorem emit_eq_ok {mnemonic : String} {key : Option String} {slots : List Slot} :
    draft.emit line mnemonic key operands = .ok slots ↔ ∃ opcode : Opcode, ∃ key' rest,
      Vocabulary.ofName? mnemonic = some opcode ∧ readKey opcode key = .ok key' ∧
      operands.length = opcode.operandCount?.getD (max operands.length 2) ∧
      draft.operandSlots line opcode operands = .ok rest ∧
      slots = .word (Instruction.encode ⟨opcode, key'⟩) :: rest := by
  unfold emit
  cases (Vocabulary.ofName? mnemonic : Option Opcode) with
  | none => simp
  | some opcode =>
    simp only [bind_eq_ok, pure_eq_ok, mapError_eq_ok]
    constructor
    · rintro ⟨_, rfl, key', hkey, h⟩
      split at h
      next => simp at h
      next hcount =>
        simp only [bind_eq_ok, pure_eq_ok] at h
        obtain ⟨rest, hrest, rfl⟩ := h
        exact ⟨_, key', rest, rfl, hkey, Decidable.not_not.mp hcount, hrest, rfl⟩
    · rintro ⟨_, key', rest, ⟨⟩, hkey, hcount, hrest, rfl⟩
      refine ⟨_, rfl, key', hkey, ?_⟩
      rw [if_neg (not_not_intro hcount)]
      simp [hrest]

/-! The slots of the operands, by the kind of opcode. -/

theorem operandSlots_jump {condition : JumpCondition} {target : Operand} {rest : List Operand}
    {slots : List Slot} :
    draft.operandSlots line (.jump condition) (target :: rest) = .ok slots ↔
      ∃ label, target = .word label ∧ slots = [.target label line] := by
  simp only [operandSlots, bind_eq_ok, pure_eq_ok, mapError_eq_ok, nameOf_eq_ok]
  constructor
  · rintro ⟨label, htarget, rfl⟩
    exact ⟨label, htarget, rfl⟩
  · rintro ⟨label, htarget, rfl⟩
    exact ⟨label, htarget, rfl⟩

theorem operandSlots_call {function result : Operand} {arguments : List Operand}
    {slots : List Slot} :
    draft.operandSlots line .call (function :: result :: arguments) = .ok slots ↔
      ∃ name, ∃ builtin : Builtin, ∃ resultWord rest, function = .word name ∧
        Vocabulary.ofName? name = some builtin ∧
        builtin.arity.1 ≤ arguments.length ∧ arguments.length ≤ builtin.arity.2 ∧
        draft.addressWord result = .ok resultWord ∧ draft.addressSlots arguments = .ok rest ∧
        slots = .word (UInt32.ofNat (Vocabulary.code builtin)) :: .word resultWord ::
          .word (UInt32.ofNat arguments.length) :: rest := by
  simp only [operandSlots, bind_eq_ok, mapError_eq_ok, oneOf_eq_ok]
  constructor
  · rintro ⟨builtin, ⟨name, hname, hword⟩, h⟩
    split at h
    next => simp at h
    next hleast =>
      split at h
      next => simp at h
      next hmost =>
        simp only [bind_eq_ok, pure_eq_ok] at h
        obtain ⟨resultWord, hresult, rest, hrest, rfl⟩ := h
        exact ⟨name, builtin, resultWord, rest, hname, hword, Nat.not_lt.mp hleast,
          Nat.not_lt.mp hmost, hresult, hrest, rfl⟩
  · rintro ⟨name, builtin, resultWord, rest, hname, hword, hleast, hmost, hresult, hrest, rfl⟩
    refine ⟨builtin, ⟨name, hname, hword⟩, ?_⟩
    rw [if_neg (Nat.not_lt.mpr hleast), if_neg (Nat.not_lt.mpr hmost)]
    simp [hresult, hrest]

theorem operandSlots_convert {result source type : Operand} {slots : List Slot} :
    draft.operandSlots line .convert [result, source, type] = .ok slots ↔
      ∃ addresses name, ∃ type' : ElementType,
        draft.addressSlots [result, source] = .ok addresses ∧ type = .word name ∧
        Vocabulary.ofName? name = some type' ∧
        slots = addresses ++ [Slot.word (UInt32.ofNat (Vocabulary.code type'))] := by
  simp only [operandSlots, bind_eq_ok, pure_eq_ok, mapError_eq_ok, oneOf_eq_ok]
  constructor
  · rintro ⟨addresses, haddresses, type', ⟨name, hname, hword⟩, rfl⟩
    exact ⟨addresses, name, type', haddresses, hname, hword, rfl⟩
  · rintro ⟨addresses, name, type', haddresses, hname, hword, rfl⟩
    exact ⟨addresses, haddresses, type', ⟨name, hname, hword⟩, rfl⟩

theorem operandSlots_plain {opcode : Opcode} (h : opcode.isPlain = true) :
    draft.operandSlots line opcode operands = draft.addressSlots operands := by
  cases opcode <;> first | rfl | cases h

/-- A valid operation that has the slots, and needs the temporaries that its operands need. -/
structure Emits (draft : Draft) (operands : List Operand) (slots : List Slot)
    (operation : Operation (String × Nat)) : Prop where
  slots_eq : slots = operation.slots
  isValid : operation.IsValid draft.constants.size draft.symbols.size
  temporaries : ∀ n, (operands.map temporariesFor).foldl max n
    = (operation.addresses.map Address.temporariesFor).foldl max n

theorem emits_plain {opcode : Opcode} {key : Key} {slots : List Slot} (hplain : opcode.isPlain = true)
    (htakes : opcode.Takes key)
    (hcount : operands.length = opcode.operandCount?.getD (max operands.length 2))
    (h : draft.operandSlots line opcode operands = .ok slots) :
    ∃ operation, draft.Emits operands (.word (Instruction.encode ⟨opcode, key⟩) :: slots) operation := by
  rw [operandSlots_plain hplain] at h
  obtain ⟨addresses, haddresses, hindices, rfl⟩ := addressSlots_eq_ok.mp h
  obtain ⟨hin, htemporaries⟩ := addresses_isIn haddresses hindices
  refine ⟨.plain opcode key addresses, rfl, ⟨⟨hplain, htakes, ?_⟩, hin⟩, fun n => ?_⟩
  · have hlength : operands.length = addresses.length := (mapM_eq_ok.mp haddresses).1
    obtain ⟨count, hfixed⟩ := Opcode.exists_operandCount hplain
    rw [hfixed, Option.getD_some] at hcount
    rw [hfixed, ← hlength, hcount]
  · rw [htemporaries]
    rfl

theorem emits_call {function result : Operand} {arguments : List Operand} {slots : List Slot}
    (h : draft.operandSlots line .call (function :: result :: arguments) = .ok slots) :
    ∃ operation, draft.Emits (function :: result :: arguments)
      (.word (Instruction.encode ⟨.call, .none⟩) :: slots) operation := by
  obtain ⟨name, builtin, resultWord, slots, rfl, -, hleast, hmost, hresult, harguments, rfl⟩ :=
    operandSlots_call.mp h
  obtain ⟨address, haddress, hindex, rfl⟩ := addressWord_eq_ok.mp hresult
  obtain ⟨addresses, haddresses, hindices, rfl⟩ := addressSlots_eq_ok.mp harguments
  obtain ⟨hin, htemporaries⟩ := address_isIn haddress hindex
  obtain ⟨hins, htemporaries'⟩ := addresses_isIn haddresses hindices
  have hlength : arguments.length = addresses.length := (mapM_eq_ok.mp haddresses).1
  refine ⟨.call builtin address addresses, ?_, ⟨?_, ?_⟩, fun n => ?_⟩
  · rw [hlength]
    rfl
  · exact ⟨hlength ▸ hleast, hlength ▸ hmost⟩
  · exact List.forall_mem_cons.mpr ⟨hin, hins⟩
  · simp [Operation.addresses, htemporaries, htemporaries']

theorem emits_convert {key : Key} {result source type : Operand} {slots : List Slot}
    (htakes : Opcode.convert.Takes key)
    (h : draft.operandSlots line .convert [result, source, type] = .ok slots) :
    ∃ operation, draft.Emits [result, source, type]
      (.word (Instruction.encode ⟨.convert, key⟩) :: slots) operation := by
  obtain ⟨slots, name, type, hslots, rfl, -, rfl⟩ := operandSlots_convert.mp h
  obtain ⟨addresses, haddresses, hindices, rfl⟩ := addressSlots_eq_ok.mp hslots
  obtain ⟨hin, htemporaries⟩ := addresses_isIn haddresses hindices
  have hlength : 2 = addresses.length := (mapM_eq_ok.mp haddresses).1
  obtain ⟨first, second, rfl⟩ := List.length_eq_two.mp hlength.symm
  refine ⟨.convert key first second type, rfl, ⟨htakes, hin⟩, fun n => ?_⟩
  obtain ⟨hfirst, hsecond⟩ : temporariesFor result = first.temporariesFor ∧
      temporariesFor source = second.temporariesFor := by
    simpa using htemporaries
  simp [Operation.addresses, hfirst, hsecond]

/-- **Operation lines.**  The slots of an operation line are those of a valid operation. -/
theorem emit_operation {mnemonic : String} {key : Option String} {slots : List Slot}
    (h : draft.emit line mnemonic key operands = .ok slots) :
    ∃ operation, draft.Emits operands slots operation := by
  obtain ⟨opcode, key, rest, -, hkey, hcount, hrest, rfl⟩ := emit_eq_ok.mp h
  have htakes := readKey_takes hkey
  obtain hplain | ⟨condition, target, rfl, rfl⟩ | ⟨function, result, arguments, rfl, rfl⟩ |
    ⟨result, source, type, rfl, rfl⟩ := Opcode.operands_cases hcount
  · exact emits_plain hplain htakes hcount hrest
  · obtain ⟨label, rfl, rfl⟩ := operandSlots_jump.mp hrest
    obtain rfl : key = Key.none := htakes
    exact ⟨.jump condition (label, line), rfl, ⟨trivial, by simp [Operation.addresses]⟩,
      fun n => by simp [Operation.addresses]⟩
  · obtain rfl : key = Key.none := htakes
    exact emits_call hrest
  · exact emits_convert htakes hrest

end Draft

/-! ### Places in code -/

/-- The number of words that operations take. -/
def Operation.totalSize {τ : Type} (operations : List (Operation τ)) : Nat :=
  (operations.map Operation.size).sum

/-- An offset at which an operation begins, or the end of all. -/
def Operation.IsBoundary {τ : Type} (operations : List (Operation τ)) (offset : Nat) : Prop :=
  ∃ before after, operations = before ++ after ∧ offset = totalSize before

namespace Operation

variable {τ υ β : Type} {operations : List (Operation τ)} {offset : Nat}

theorem length_flatMap_layout (word : Word → β) (target : τ → β) :
    (operations.flatMap (layout word target)).length = totalSize operations := by
  rw [List.length_flatMap, totalSize]
  congr 1
  exact List.map_congr_left fun operation _ => length_layout word target operation

theorem totalSize_map (f : τ → υ) : totalSize (operations.map (map f)) = totalSize operations := by
  simp [totalSize, size_map, Function.comp_def]

theorem isBoundary_end : IsBoundary operations (totalSize operations) :=
  ⟨operations, [], (List.append_nil _).symm, rfl⟩

theorem IsBoundary.append (h : IsBoundary operations offset) (operation : Operation τ) :
    IsBoundary (operations ++ [operation]) offset := by
  obtain ⟨before, after, rfl, hoffset⟩ := h
  exact ⟨before, after ++ [operation], List.append_assoc _ _ _, hoffset⟩

theorem IsBoundary.map (h : IsBoundary operations offset) (f : τ → υ) :
    IsBoundary (operations.map (map f)) offset := by
  obtain ⟨before, after, rfl, rfl⟩ := h
  exact ⟨before.map (Operation.map f), after.map (Operation.map f), List.map_append,
    (totalSize_map f).symm⟩

end Operation

/-- The entry of a name after another entry was made. -/
theorem NameMap.find?_insert {α : Type} (map : NameMap α) (name other : String) (value : α) :
    (map.insert name value).find? other = if name = other then some value else map.find? other := by
  obtain ⟨entries⟩ := map
  show findIn other (insertIn name value entries) = if name = other then _ else findIn other entries
  induction entries with
  | nil => simp [insertIn, findIn]
  | cons entry entries ih =>
    obtain ⟨key, old⟩ := entry
    rw [insertIn]
    split
    next hkey =>
      subst hkey
      simp only [findIn]
      split <;> rfl
    next hkey =>
      -- entries are in order: the new one stands before this one or further on
      split
      next => simp only [findIn]
      next =>
        simp only [findIn, ih]
        split
        next hother =>
          subst hother
          rw [if_neg (Ne.symm hkey)]
        next => rfl

/-! ### Resolving labels -/

namespace Draft

variable {draft : Draft} {operations : List (Operation (String × Nat))}

/-- The offset that a target leads to. -/
def offsetOf (draft : Draft) (target : String × Nat) : Nat := (draft.labels.find? target.1).getD 0

/-- The word of a slot whose label is known. -/
def wordOf (draft : Draft) : Slot → Word
  | .word word => word
  | .target label line => UInt32.ofNat (draft.offsetOf (label, line))

theorem resolve_eq_ok {slot : Slot} {word : Word} : draft.resolve slot = .ok word ↔
    word = draft.wordOf slot ∧
      ∀ label line, slot = .target label line → (draft.labels.find? label).isSome = true := by
  cases slot with
  | word w =>
    constructor
    · rintro ⟨⟩
      exact ⟨rfl, fun _ _ h => (by cases h)⟩
    · rintro ⟨rfl, -⟩
      rfl
  | target label line =>
    simp only [resolve, wordOf, offsetOf]
    cases hfound : draft.labels.find? label with
    | none => simp [hfound]
    | some offset =>
      constructor
      · rintro ⟨⟩
        exact ⟨rfl, fun _ _ h => (by cases h; rw [hfound]; rfl)⟩
      · rintro ⟨rfl, -⟩
        rfl

/-- The slots of operations become words exactly if all their targets are labels. -/
theorem mapM_resolve_eq_ok {code : List Word} :
    (operations.flatMap Operation.slots).mapM draft.resolve = .ok code ↔
      (∀ operation ∈ operations, ∀ target, operation.target? = some target →
        (draft.labels.find? target.1).isSome = true) ∧
      code = (operations.map (Operation.map draft.offsetOf)).flatMap Operation.words := by
  -- once targets are offsets, the slots of an operation are its words
  have hwords : (operations.flatMap Operation.slots).map draft.wordOf
      = (operations.map (Operation.map draft.offsetOf)).flatMap Operation.words := by
    rw [List.map_flatMap, List.flatMap_map]
    refine List.flatMap_congr fun operation _ => ?_
    rw [Operation.words, Operation.layout_map, Operation.slots, Operation.map_layout]
    rfl
  rw [← hwords]
  constructor
  · intro h
    refine ⟨fun operation hoperation target htarget => ?_,
      eq_map_of_mapM (fun slot word hword => (resolve_eq_ok.mp hword).1) h⟩
    have hmem : Slot.target target.1 target.2 ∈ operations.flatMap Operation.slots :=
      List.mem_flatMap.mpr ⟨operation, hoperation, Operation.target_mem_slots htarget⟩
    obtain ⟨word, hword⟩ := exists_of_mapM h hmem
    exact (resolve_eq_ok.mp hword).2 _ _ rfl
  · rintro ⟨hlabels, rfl⟩
    refine mapM_of_eq_ok fun slot hslot => resolve_eq_ok.mpr ⟨rfl, ?_⟩
    rintro label line rfl
    obtain ⟨operation, hoperation, hslot⟩ := List.mem_flatMap.mp hslot
    obtain ⟨_, ⟨⟩⟩ | ⟨_, _, htarget, ⟨⟩⟩ := Operation.mem_slots hslot
    exact hlabels operation hoperation (label, line) htarget

end Draft

/-! ### Drafts and shaders -/

/-- How many temporaries operations address. -/
def Operation.temporaries {τ : Type} (operations : List (Operation τ)) : Nat :=
  ((operations.flatMap addresses).map Address.temporariesFor).foldl max 0

/-- A draft whose code is made of operations, with labels where operations begin. -/
structure Drafted (draft : Draft) (operations : List (Operation (String × Nat))) : Prop where
  code_eq : draft.code.toList = operations.flatMap Operation.slots
  isValid : ∀ operation ∈ operations,
    operation.IsValid draft.constants.size draft.symbols.size
  isBoundary : ∀ label offset, draft.labels.find? label = some offset →
    Operation.IsBoundary operations offset
  temporaries_eq : draft.temporaries = Operation.temporaries operations

/-- A shader whose code is made of operations, with jumps to where operations begin. -/
structure Shader.IsMadeOf (shader : Shader) (operations : List (Operation Nat)) : Prop where
  code_eq : shader.code.toList = operations.flatMap Operation.words
  isValid : ∀ operation ∈ operations,
    operation.IsValid shader.constants.size shader.symbols.size
  isBoundary : ∀ operation ∈ operations, ∀ offset, operation.target? = some offset →
    Operation.IsBoundary operations offset
  temporaries_eq : shader.temporaries = Operation.temporaries operations

namespace Drafted

variable {draft next : Draft} {operations : List (Operation (String × Nat))} {number : Nat}

theorem size_code (h : Drafted draft operations) :
    draft.code.size = Operation.totalSize operations := by
  rw [← Array.length_toList, h.code_eq]
  exact Operation.length_flatMap_layout _ _

theorem mark {label : String} (h : Drafted draft operations) (hmark : draft.mark label = .ok next) :
    Drafted next operations := by
  obtain ⟨-, rfl⟩ := Draft.mark_eq_ok.mp hmark
  refine { h with isBoundary := fun name offset hoffset => ?_ }
  rw [NameMap.find?_insert] at hoffset
  split at hoffset
  next =>
    obtain rfl := Option.some.inj hoffset
    rw [h.size_code]
    exact Operation.isBoundary_end
  next => exact h.isBoundary name offset hoffset

theorem directive {name : String} {arguments : List Token} (h : Drafted draft operations)
    (hdirective : draft.directive name arguments = .ok next) : Drafted next operations := by
  obtain ⟨kind, symbol, -, -, rfl⟩ | ⟨kind, title, -, rfl⟩ | ⟨values, -, rfl⟩ :=
    Draft.directive_cases hdirective
  · refine { h with isValid := fun operation hoperation => ?_ }
    refine (h.isValid operation hoperation).mono (Nat.le_refl _) ?_
    simp [SymbolTable.size]
  · exact { h with }
  · refine { h with isValid := fun operation hoperation => ?_ }
    refine (h.isValid operation hoperation).mono ?_ (Nat.le_refl _)
    show draft.constants.size ≤ (draft.constants ++ values).size
    rw [← Array.length_toList, ← Array.length_toList, Array.toList_appendList, List.length_append]
    omega

theorem operation {mnemonic : String} {key : Option String} {operands : List Operand}
    (h : Drafted draft operations)
    (hadd : draft.addStatement number (.operation mnemonic key operands) = .ok next) :
    ∃ operation, Drafted next (operations ++ [operation]) := by
  simp only [Draft.addStatement, bind_eq_ok, pure_eq_ok] at hadd
  obtain ⟨slots, hslots, rfl⟩ := hadd
  obtain ⟨operation, rfl, hvalid, htemporaries⟩ := Draft.emit_operation hslots
  refine ⟨operation, ?_, ?_, fun name offset hoffset => ?_, ?_⟩
  · simp [h.code_eq]
  · intro other hother
    obtain hother | hother := List.mem_append.mp hother
    · exact h.isValid other hother
    · exact List.mem_singleton.mp hother ▸ hvalid
  · exact (h.isBoundary name offset hoffset).append operation
  · rw [Operation.temporaries, List.flatMap_append, List.map_append, List.foldl_append,
      ← Operation.temporaries, ← h.temporaries_eq, List.flatMap_singleton]
    exact htemporaries draft.temporaries

theorem addLine {text : List Char} (h : Drafted draft operations)
    (hadd : draft.addLine number text = .ok next) : ∃ operations', Drafted next operations' := by
  obtain ⟨⟨label, statement⟩, -, hadded⟩ := Draft.addLine_eq_ok.mp hadd
  obtain ⟨marked, hmark, hunmarked, hstatement, hnone⟩ := Draft.addParsed_eq_ok.mp hadded
  have hmarked : Drafted marked operations := by
    cases label with
    | none => exact hunmarked rfl ▸ h
    | some label => exact h.mark (hmark label rfl)
  cases statement with
  | none => exact ⟨operations, hnone rfl ▸ hmarked⟩
  | some statement =>
    have hstatement := hstatement statement rfl
    cases statement with
    | directive name arguments =>
      exact ⟨operations, hmarked.directive (mapError_eq_ok.mp hstatement)⟩
    | operation mnemonic key operands =>
      obtain ⟨operation, hoperation⟩ := hmarked.operation hstatement
      exact ⟨_, hoperation⟩

/-- Labels become the offsets they mark. -/
theorem finish {shader : Shader} (h : Drafted draft operations)
    (hfinish : draft.finish = .ok shader) : ∃ operations', shader.IsMadeOf operations' := by
  obtain ⟨code, hcode, rfl⟩ := Draft.finish_eq_ok.mp hfinish
  rw [h.code_eq] at hcode
  obtain ⟨hlabels, rfl⟩ := Draft.mapM_resolve_eq_ok.mp hcode
  refine ⟨operations.map (Operation.map draft.offsetOf), rfl, ?_, ?_, ?_⟩
  · intro _ hmem
    obtain ⟨operation, hoperation, rfl⟩ := List.mem_map.mp hmem
    exact (h.isValid operation hoperation).map draft.offsetOf
  · intro _ hmem place hplace
    obtain ⟨operation, hoperation, rfl⟩ := List.mem_map.mp hmem
    rw [Operation.target?_map, Option.map_eq_some_iff] at hplace
    obtain ⟨target, htarget, rfl⟩ := hplace
    -- the label was found, so it marks a place in the code
    obtain ⟨found, hfound⟩ := Option.isSome_iff_exists.mp (hlabels operation hoperation target htarget)
    have hoffset : draft.offsetOf target = found := by
      rw [Draft.offsetOf, hfound, Option.getD_some]
    rw [hoffset]
    exact (h.isBoundary target.1 found hfound).map draft.offsetOf
  · show draft.temporaries = _
    rw [h.temporaries_eq, Operation.temporaries, Operation.temporaries, List.flatMap_map]
    simp only [Operation.addresses_map]

end Drafted

/-- **Assembled code.**  The code of an assembled shader is made of valid operations. -/
theorem assemble_isMadeOf {text : String} {shader : Shader} (h : assemble text = .ok shader) :
    ∃ operations, shader.IsMadeOf operations := by
  obtain ⟨draft, hlines, hfinish⟩ := assemble_eq_ok.mp h
  have hnew : Drafted Draft.new [] :=
    ⟨rfl, by simp, fun _ _ hfind => (by cases hfind), rfl⟩
  obtain ⟨operations, hdraft⟩ : ∃ operations, Drafted draft operations := by
    refine foldlM_invariant (fun draft : Draft => ∃ operations, Drafted draft operations) ⟨[], hnew⟩
      ?_ hlines
    rintro draft ⟨line, number⟩ next - ⟨operations, hdraft⟩ hadd
    exact hdraft.addLine hadd
  exact hdraft.finish hfinish

/-- A text with a default, a semicolon between quotes, a call, a conversion and a jump to the end. -/
def greyText : String := ".global varying color c
.parameter uniform float k 0.5
.constant string \"a;b\"
jump_empty end
call xcomp %0, @c ; red
convert.v3v1 @c, %0, color
end:"

/-- The shader that it describes, which makes a color grey. -/
def grey : Shader where
  kind := .surface
  name := "main"
  code := #[6, 11, 28, 0, 0x80000000, 1, 0x40000000, 0x23211F, 0x40000000, 0x80000000, 4]
  constants := #[.uniformString "a;b"]
  symbols := ⟨#[⟨"c", .global, .color, .varying, none⟩,
    ⟨"k", .parameter, .float, .uniform, some (.uniformFloat 0.5)⟩]⟩
  temporaries := 1

set_option maxRecDepth 4000 in
theorem assemble_greyText : assemble greyText = .ok grey := by
  with_unfolding_all rfl

end Shading
