import Shading.Proofs.Encoding

namespace Shading

/-!
# Decoding

A word is decoded as an instruction exactly if it is the word of that instruction and the key is
well-formed.  Every other word is refused, and the error tells why: the high byte is in use, the low
byte is no opcode, or a byte of the key is no shape.  In the same way addresses are decoded from
their operand words only, and keys are read from their texts only.

* `Key.SpoiltBy` — the byte that keeps a key from being well-formed;
* `DecodeError.Explains` — what an error says of the word that is refused;
* `Instruction.decode_eq_ok`, `Instruction.decode_eq_error` — the two outcomes for a word;
* `Address.decode?_eq_some`, `Key.parse?_eq_some` — addresses and the texts of keys;
* `decoding_inverts_encoding` — all of these together.
-/

/-! ### Shapes -/

namespace Shape

variable {shape : Shape}

theorem ofByte?_eq_some {byte : Nat} : ofByte? byte = some shape ↔ shape.toByte = byte := by
  constructor
  · exact toByte_of_ofByte?
  · rintro rfl
    exact shape.ofByte?_toByte

theorem ofByte?_eq_none {byte : Nat} :
    ofByte? byte = none ↔ ∀ shape : Shape, shape.toByte ≠ byte := by
  simp only [Option.eq_none_iff_forall_ne_some, ne_eq, ofByte?_eq_some]

end Shape

/-! ### Keys -/

namespace Key

variable {key : Key} {byte : Nat}

theorem isWellFormed_iff : key.isWellFormed = true ↔ key = none ∨ key.IsWritten := by
  constructor
  · exact eq_none_or_isWritten
  · rintro (rfl | h)
    · exact isWellFormed_none
    · exact h.isWellFormed

/-- The text that is read as a key is the text of that key. -/
theorem text_of_parse? {source : String} (h : parse? source = some key) : key.text = source := by
  obtain ⟨shape, rfl, hchars⟩ | ⟨first, second, rfl, hchars⟩ := parse?_cases h
  · rw [text_single, hchars, String.ofList_toList]
  · rw [text_pair, hchars, String.ofList_toList]

theorem parse?_eq_some {source : String} :
    parse? source = some key ↔ key.IsWritten ∧ key.text = source := by
  constructor
  · intro h
    exact ⟨isWritten_of_parse? h, text_of_parse? h⟩
  · rintro ⟨hwritten, rfl⟩
    exact hwritten.parse?_text.1

/-- The byte that keeps a key from standing for shapes. -/
inductive SpoiltBy (key : Key) : Nat → Prop
  /-- The high byte, which is for the first of two shapes, is none. -/
  | first (hused : key.high ≠ 0) (hnone : ∀ shape : Shape, shape.toByte ≠ key.high) :
      SpoiltBy key key.high
  /-- The first of two shapes is there, but the second is not. -/
  | second (hfirst : ∃ shape : Shape, shape.toByte = key.high)
      (hnone : ∀ shape : Shape, shape.toByte ≠ key.low) : SpoiltBy key key.low
  /-- The high byte is not in use, and the low byte is no shape on its own. -/
  | alone (hunused : key.high = 0) (hused : key.low ≠ 0)
      (hnone : ∀ shape : Shape, shape.toByte ≠ key.low) : SpoiltBy key key.low

theorem shapes?_eq_none :
    key.shapes? = Option.none ↔
      Shape.ofByte? key.high = Option.none ∨ Shape.ofByte? key.low = Option.none := by
  unfold shapes?
  cases Shape.ofByte? key.high <;> cases Shape.ofByte? key.low <;> simp

/-- A key that is spoilt is malformed, and the byte complained about is the one that spoils it. -/
theorem SpoiltBy.malformed (h : key.SpoiltBy byte) :
    key.isWellFormed = false ∧ Instruction.badByte key = byte := by
  unfold isWellFormed Instruction.badByte
  cases h with
  | first hused hnone =>
    have hhigh := Shape.ofByte?_eq_none.mpr hnone
    simp [hused, hhigh, shapes?_eq_none.mpr (.inl hhigh)]
  | second hfirst hnone =>
    obtain ⟨shape, hshape⟩ := hfirst
    have hused : key.high ≠ 0 := by
      have hpos := shape.toByte_bounds.1
      omega
    have hlow := Shape.ofByte?_eq_none.mpr hnone
    simp [hused, Shape.ofByte?_eq_some.mpr hshape, shapes?_eq_none.mpr (.inr hlow)]
  | alone hunused hused hnone =>
    simp [hunused, hused, Shape.ofByte?_eq_none.mpr hnone]

theorem spoiltBy_badByte (h : key.isWellFormed = false) : key.SpoiltBy (Instruction.badByte key) := by
  unfold isWellFormed at h
  split at h
  next hunused =>
    simp only [Bool.or_eq_false_iff, decide_eq_false_iff_not, Option.isSome_eq_false_iff,
      Option.isNone_iff_eq_none] at h
    rw [Instruction.badByte, if_pos (.inl hunused)]
    exact .alone hunused h.1 (Shape.ofByte?_eq_none.mp h.2)
  next hused =>
    rw [Option.isSome_eq_false_iff, Option.isNone_iff_eq_none, shapes?_eq_none] at h
    cases hfirst : Shape.ofByte? key.high with
    | none =>
      rw [Instruction.badByte, if_neg (by simp [hused, hfirst])]
      exact .first hused (Shape.ofByte?_eq_none.mp hfirst)
    | some shape =>
      have hlow := h.resolve_left (by simp [hfirst])
      rw [Instruction.badByte, if_pos (.inr (by simp [hfirst]))]
      exact .second ⟨shape, Shape.ofByte?_eq_some.mp hfirst⟩ (Shape.ofByte?_eq_none.mp hlow)

end Key

/-! ### Instruction words -/

/-- What an error says of the word that is refused with it. -/
inductive DecodeError.Explains (word : Word) : DecodeError → Prop
  | reservedBits (hreserved : word.toNat / 0x1000000 ≠ 0) : Explains word (.reservedBits word)
  | unknownOpcode (hreserved : word.toNat / 0x1000000 = 0)
      (hcode : ∀ opcode : Opcode, Vocabulary.code opcode ≠ word.toNat % 256) :
      Explains word (.unknownOpcode (word.toNat % 256))
  -- all but the key is as in an instruction
  | invalidShape {opcode : Opcode} {key : Key} {byte : Nat}
      (hword : Instruction.encode ⟨opcode, key⟩ = word) (hspoilt : key.SpoiltBy byte) :
      Explains word (.invalidShape byte)

namespace Instruction

variable {word : Word} {instruction : Instruction} {error : DecodeError}

/-- A word has its high byte in use, or no opcode in its low byte, or it is the word of an instruction,
    with a key that may be malformed. -/
theorem word_cases (word : Word) :
    word.toNat / 0x1000000 ≠ 0 ∨
    (word.toNat / 0x1000000 = 0 ∧ ∀ opcode : Opcode, Vocabulary.code opcode ≠ word.toNat % 256) ∨
    ∃ opcode key, encode ⟨opcode, key⟩ = word := by
  by_cases hreserved : word.toNat / 0x1000000 = 0
  · refine .inr ?_
    by_cases hcode : ∃ opcode : Opcode, Vocabulary.code opcode = word.toNat % 256
    · obtain ⟨opcode, hcode⟩ := hcode
      exact .inr ⟨opcode, _, encode_of_code (by omega) hcode⟩
    · exact .inl ⟨hreserved, not_exists.mp hcode⟩
  · exact .inl hreserved

theorem decode_eq_ok :
    decode word = .ok instruction ↔
      instruction.key.isWellFormed = true ∧ instruction.encode = word := by
  constructor
  · intro h
    exact (encode_of_decode h).symm
  · rintro ⟨hkey, rfl⟩
    exact decode_encode hkey

theorem decode_of_explains (h : error.Explains word) : decode word = .error error := by
  cases h with
  | reservedBits hreserved =>
    exact if_pos (by omega)
  | unknownOpcode hreserved hcode =>
    have hnone : (Vocabulary.ofCode? (word.toNat % 256) : Option Opcode) = none := by
      refine Option.eq_none_iff_forall_ne_some.mpr fun opcode hopcode => hcode opcode ?_
      exact Vocabulary.code_of_ofCode? hopcode
    unfold decode
    dsimp only
    rw [if_neg (by omega), hnone]
  | @invalidShape opcode key byte hword hspoilt =>
    obtain ⟨hkey, hbyte⟩ := hspoilt.malformed
    rw [← hword, decode_encode_eq, hkey, hbyte]
    rfl

/-- A word that is refused is refused for the first of the three reasons that there is. -/
theorem decode_eq_error : decode word = .error error ↔ error.Explains word := by
  refine ⟨fun h => ?_, decode_of_explains⟩
  -- some error explains the word, and the word is refused with that one
  suffices hexplained : ∃ cause : DecodeError, cause.Explains word by
    obtain ⟨cause, hcause⟩ := hexplained
    obtain rfl : cause = error := Except.error.inj ((decode_of_explains hcause).symm.trans h)
    exact hcause
  obtain hreserved | ⟨hreserved, hcode⟩ | ⟨opcode, key, hword⟩ := word_cases word
  · exact ⟨_, .reservedBits hreserved⟩
  · exact ⟨_, .unknownOpcode hreserved hcode⟩
  · have hkey : key.isWellFormed = false := by
      rw [← Bool.not_eq_true]
      intro hkey
      rw [← hword, decode_encode hkey] at h
      cases h
    exact ⟨_, .invalidShape hword (Key.spoiltBy_badByte hkey)⟩

/-- With a shape in the high byte, a low byte of zero is to blame. -/
example : decode 0x21000c = .error (.invalidShape 0) := by decide

end Instruction

/-! ### Operand words -/

namespace Address

variable {word : Word} {address : Address}

theorem decode?_eq_some : decode? word = some address ↔ address.encode? = some word := by
  rw [encode?_eq_some]
  constructor
  · exact word_of_decode?
  · rintro ⟨hindex, rfl⟩
    exact decode?_word hindex

theorem exists_encode? : (∃ word, address.encode? = some word) ↔ address.index < 0x40000000 := by
  simp [encode?_eq_some]

/-- Three of the four kinds of operand words are addresses. -/
theorem decode?_eq_none : decode? word = none ↔ word.toNat / 0x40000000 = 3 := by
  have hlt : word.toNat < 4294967296 := word.toNat_lt
  unfold decode?
  dsimp only
  split
  next hkind => simp [hkind]
  next hkind => simp [hkind]
  next hkind => simp [hkind]
  next hconstant hsymbol htemporary =>
    have hkinds : word.toNat / 0x40000000 ≠ 0 ∧ word.toNat / 0x40000000 ≠ 1 ∧
        word.toNat / 0x40000000 ≠ 2 := ⟨hconstant, hsymbol, htemporary⟩
    refine iff_of_true rfl ?_
    omega

end Address

/-- **Decoding.**  A word is decoded as an instruction exactly if the key of the instruction is
    well-formed, that is empty, one shape or two, and the word is the instruction's.  It is refused
    with an error exactly if the error explains why.  An operand word is decoded as an address exactly
    if it is the address's; the addresses that have a word are those whose index fits in thirty bits,
    and the words that are no address's are those of the fourth kind.  A text is read as a key exactly
    if the key stands for one shape or two and the text is the key's. -/
theorem decoding_inverts_encoding :
    (∀ (word : Word) (instruction : Instruction), Instruction.decode word = .ok instruction ↔
      instruction.key.isWellFormed = true ∧ instruction.encode = word) ∧
    (∀ (word : Word) (error : DecodeError),
      Instruction.decode word = .error error ↔ error.Explains word) ∧
    (∀ key : Key, key.isWellFormed = true ↔ key = .none ∨ key.IsWritten) ∧
    (∀ (word : Word) (address : Address),
      Address.decode? word = some address ↔ address.encode? = some word) ∧
    (∀ address : Address, (∃ word, address.encode? = some word) ↔ address.index < 0x40000000) ∧
    (∀ word : Word, Address.decode? word = none ↔ word.toNat / 0x40000000 = 3) ∧
    ∀ (text : String) (key : Key),
      Key.parse? text = some key ↔ key.IsWritten ∧ key.text = text :=
  ⟨fun _ _ => Instruction.decode_eq_ok, fun _ _ => Instruction.decode_eq_error,
    fun _ => Key.isWellFormed_iff, fun _ _ => Address.decode?_eq_some,
    fun _ => Address.exists_encode?, fun _ => Address.decode?_eq_none,
    fun _ _ => Key.parse?_eq_some⟩

end Shading
