import Shading.Proofs.Spelling

namespace Shading

/-!
# Encodings

Words of a vocabulary, keys, instructions and addresses are read back from the names, texts and words
that stand for them, and a code or word stands for no two of them.

* `LawfulVocabulary` — names and codes that tell the words of a vocabulary apart;
* `Key.IsWritten` — the keys that a text can give, and `Key.parse?_text`;
* `Instruction.decode_encode`, `Address.decode?_word` — the words of code, and the reverse:
  `Instruction.encode_of_decode`, `Address.word_of_decode?`.
-/

/-! ### Vocabularies -/

/-- The test for a name. -/
def passesAsName (text : String) : Bool :=
  match text.toList with
  | [] => false
  | c :: rest => isNameStart c && rest.all isNamePart

theorem isName_of_passes {text : String} (h : passesAsName text = true) : IsName text := by
  unfold passesAsName at h
  split at h
  next => cases h
  next c rest htext =>
    rw [Bool.and_eq_true] at h
    exact ⟨c, rest, htext, h.1, List.all_eq_true.mp h.2⟩

/-- A vocabulary that lists all its words and tells them apart by names that a line can hold. -/
class LawfulVocabulary (α : Type) [Vocabulary α] : Prop where
  mem_words : ∀ word : α, word ∈ (Vocabulary.words : List α)
  nodup_names : ((Vocabulary.words : List α).map Vocabulary.name).Nodup
  all_names : ((Vocabulary.words : List α).map Vocabulary.name).all passesAsName = true
  length_le : (Vocabulary.words : List α).length ≤ 256

namespace Vocabulary

variable {α : Type} [Vocabulary α] [LawfulVocabulary α] (word : α)

theorem isName_name : IsName (name word) :=
  isName_of_passes (List.all_eq_true.mp LawfulVocabulary.all_names _
    (List.mem_map_of_mem (LawfulVocabulary.mem_words word)))

theorem name_injective {word word' : α} (h : name word = name word') : word = word' :=
  List.inj_on_of_nodup_map LawfulVocabulary.nodup_names (LawfulVocabulary.mem_words word)
    (LawfulVocabulary.mem_words word') h

theorem ofName?_name : ofName? (name word) = some word := by
  unfold ofName?
  cases hfound : (words : List α).find? fun other => name other == name word with
  | none =>
    have hnot := List.find?_eq_none.mp hfound word (LawfulVocabulary.mem_words word)
    simp at hnot
  | some other =>
    have hname : name other = name word := by simpa using List.find?_some hfound
    rw [name_injective hname]

variable [DecidableEq α]

theorem ofCode?_code : ofCode? (code word) = some word := by
  have hlt := List.idxOf_lt_length_of_mem (LawfulVocabulary.mem_words word)
  unfold ofCode? code
  rw [List.getElem?_eq_getElem hlt, List.getElem_idxOf]

theorem code_lt : code word < 256 :=
  Nat.lt_of_lt_of_le (List.idxOf_lt_length_of_mem (LawfulVocabulary.mem_words word))
    LawfulVocabulary.length_le

theorem code_of_ofCode? {word : α} {n : Nat} (h : ofCode? n = some word) : code word = n := by
  obtain ⟨hlt, rfl⟩ := List.getElem?_eq_some_iff.mp h
  have hnodup : (words : List α).Nodup := LawfulVocabulary.nodup_names.of_map
  exact hnodup.idxOf_getElem n hlt

end Vocabulary

instance : LawfulVocabulary Opcode where
  mem_words := by
    intro word
    cases word with
    | jump condition => cases condition <;> decide
    | arithmetic operator => cases operator <;> decide
    | test operator => cases operator <;> decide
    | assign operator => cases operator <;> decide
    | _ => decide
  nodup_names := by decide +kernel
  all_names := by decide +kernel
  length_le := by decide

instance : LawfulVocabulary Builtin where
  mem_words := by
    intro word
    cases word with
    | component axis => cases axis <;> decide
    | setComponent axis => cases axis <;> decide
    | transform kind => cases kind <;> decide
    | derivative direction => cases direction <;> decide
    | _ => decide
  nodup_names := by decide +kernel
  all_names := by decide +kernel
  length_le := by decide

instance : LawfulVocabulary ElementType where
  mem_words := by
    intro word
    cases word <;> decide
  nodup_names := by decide +kernel
  all_names := by decide +kernel
  length_le := by decide

instance : LawfulVocabulary Storage where
  mem_words := by
    intro word
    cases word <;> decide
  nodup_names := by decide +kernel
  all_names := by decide +kernel
  length_le := by decide

instance : LawfulVocabulary SymbolKind where
  mem_words := by
    intro word
    cases word <;> decide
  nodup_names := by decide +kernel
  all_names := by decide +kernel
  length_le := by decide

instance : LawfulVocabulary ShaderKind where
  mem_words := by
    intro word
    cases word <;> decide
  nodup_names := by decide +kernel
  all_names := by decide +kernel
  length_le := by decide

/-! ### Keys -/

namespace Shape

variable (shape : Shape)

theorem ofByte?_toByte : ofByte? shape.toByte = some shape := by
  obtain ⟨storage, width⟩ := shape
  cases storage <;> cases width <;> rfl

theorem toByte_bounds : 0 < shape.toByte ∧ shape.toByte < 256 := by
  obtain ⟨storage, width⟩ := shape
  cases storage <;> cases width <;> decide

/-- A shape is written with two characters that are read back. -/
theorem exists_chars : ∃ a b, shape.chars = [a, b] ∧ ofChars? a b = some shape ∧
    a.isAlphanum = true ∧ b.isAlphanum = true := by
  obtain ⟨storage, width⟩ := shape
  cases storage <;> cases width <;> exact ⟨_, _, rfl, rfl, rfl, rfl⟩

/-- The two characters that are read as a shape are those it is written with. -/
theorem chars_of_ofChars? {shape : Shape} {a b : Char} (h : ofChars? a b = some shape) :
    shape.chars = [a, b] := by
  unfold ofChars? at h
  -- by the character for the width, then by the one for the storage
  split at h <;> split at h <;> cases h <;> rfl

theorem toByte_of_ofByte? {shape : Shape} {byte : Nat} (h : ofByte? byte = some shape) :
    shape.toByte = byte := by
  have hcount : ∀ {n : Nat} {width : Width}, Width.ofCount? n = some width → width.count = n := by
    intro n width hwidth
    unfold Width.ofCount? at hwidth
    split at hwidth <;> cases hwidth <;> rfl
  unfold ofByte? at h
  split at h
  next hstorage =>
    obtain ⟨width, hwidth, rfl⟩ := Option.map_eq_some_iff.mp h
    have hlow := hcount hwidth
    show 0x10 + width.count = byte
    omega
  next hstorage =>
    obtain ⟨width, hwidth, rfl⟩ := Option.map_eq_some_iff.mp h
    have hlow := hcount hwidth
    show 0x20 + width.count = byte
    omega
  next => cases h

end Shape

namespace Key

variable {key key' : Key}

/-- A key that stands for one shape or two. -/
inductive IsWritten : Key → Prop
  | one (shape : Shape) : IsWritten (single shape)
  | two (first second : Shape) : IsWritten (pair first second)

/-- A text that is read as a key holds the characters of one shape or two. -/
theorem parse?_cases {source : String} (h : parse? source = some key) :
    (∃ shape, key = single shape ∧ shape.chars = source.toList) ∨
    ∃ first second, key = pair first second ∧ first.chars ++ second.chars = source.toList := by
  unfold parse? at h
  split at h
  next a b hsource =>
    obtain ⟨shape, hshape, rfl⟩ := Option.map_eq_some_iff.mp h
    exact .inl ⟨shape, rfl, by rw [Shape.chars_of_ofChars? hshape, hsource]⟩
  next a b c d hsource =>
    simp only [Option.bind_eq_bind, Option.bind_eq_some_iff, Option.pure_def,
      Option.some.injEq] at h
    obtain ⟨first, hfirst, second, hsecond, rfl⟩ := h
    refine .inr ⟨first, second, rfl, ?_⟩
    rw [Shape.chars_of_ofChars? hfirst, Shape.chars_of_ofChars? hsecond, hsource]
    rfl
  next => cases h

theorem isWritten_of_parse? {text : String} (h : parse? text = some key) : key.IsWritten := by
  obtain ⟨shape, rfl, -⟩ | ⟨first, second, rfl, -⟩ := parse?_cases h
  · exact .one shape
  · exact .two first second

theorem toNat_single (shape : Shape) : (single shape).bits.toNat = shape.toByte := by
  have h := shape.toByte_bounds
  simp only [single, UInt16.toNat_ofNat']
  omega

theorem toNat_pair (first second : Shape) :
    (pair first second).bits.toNat = first.toByte * 256 + second.toByte := by
  have h := first.toByte_bounds
  have h' := second.toByte_bounds
  simp only [pair, UInt16.toNat_ofNat']
  omega

@[simp] theorem high_single (shape : Shape) : (single shape).high = 0 := by
  have h := shape.toByte_bounds
  rw [high, toNat_single]
  omega

@[simp] theorem low_single (shape : Shape) : (single shape).low = shape.toByte := by
  have h := shape.toByte_bounds
  rw [low, toNat_single]
  omega

@[simp] theorem high_pair (first second : Shape) : (pair first second).high = first.toByte := by
  have h := second.toByte_bounds
  rw [high, toNat_pair]
  omega

@[simp] theorem low_pair (first second : Shape) : (pair first second).low = second.toByte := by
  have h := second.toByte_bounds
  rw [low, toNat_pair]
  omega

theorem shapes?_pair (first second : Shape) :
    (pair first second).shapes? = some (first, second) := by
  simp [shapes?, Shape.ofByte?_toByte]

theorem shape?_single (shape : Shape) : (single shape).shape? = some shape := by
  simp [shape?, Shape.ofByte?_toByte]

theorem IsWritten.isWellFormed (h : key.IsWritten) : key.isWellFormed = true := by
  cases h with
  | one shape => simp [Key.isWellFormed, Shape.ofByte?_toByte]
  | two first second =>
    have hne := first.toByte_bounds.1
    simp [Key.isWellFormed, shapes?_pair, Nat.pos_iff_ne_zero.mp hne]

theorem isWellFormed_none : none.isWellFormed = true := rfl

theorem IsWritten.ne_none (h : key.IsWritten) : key ≠ none := by
  rintro rfl
  have hbits : none.bits.toNat = 0 := rfl
  generalize hnone : none = key at *
  cases h with
  | one shape =>
    have hpos := shape.toByte_bounds.1
    rw [toNat_single] at hbits
    omega
  | two first second =>
    have hpos := first.toByte_bounds.1
    rw [toNat_pair] at hbits
    omega

theorem text_single (shape : Shape) : (single shape).text = String.ofList shape.chars := by
  have hnone : Shape.ofByte? 0 = Option.none := rfl
  simp [text, shapes?, shape?, hnone, Shape.ofByte?_toByte, Shape.text]

theorem text_pair (first second : Shape) :
    (pair first second).text = String.ofList (first.chars ++ second.chars) := by
  simp [text, shapes?_pair]

/-- The text of a key is letters and digits, and is read as the key. -/
theorem IsWritten.parse?_text (h : key.IsWritten) :
    parse? key.text = some key ∧ IsKeyText (some key.text) := by
  cases h with
  | one shape =>
    obtain ⟨a, b, hchars, hread, ha, hb⟩ := shape.exists_chars
    have htext : (single shape).text.toList = [a, b] := by
      rw [text_single, String.toList_ofList, hchars]
    refine ⟨by simp [parse?, htext, hread], ?_⟩
    rintro _ ⟨⟩
    simp [htext, ha, hb]
  | two first second =>
    obtain ⟨a, b, hfirst, hread, ha, hb⟩ := first.exists_chars
    obtain ⟨c, d, hsecond, hread', hc, hd⟩ := second.exists_chars
    have htext : (pair first second).text.toList = [a, b, c, d] := by
      rw [text_pair, String.toList_ofList, hfirst, hsecond]
      rfl
    refine ⟨by simp [parse?, htext, hread, hread'], ?_⟩
    rintro _ ⟨⟩
    simp [htext, ha, hb, hc, hd]

theorem eq_of_toNat (h : key.bits.toNat = key'.bits.toNat) : key = key' := by
  cases key
  cases key'
  exact congrArg Key.mk (UInt16.toNat_inj.mp h)

/-- A key that is well-formed is empty or stands for shapes. -/
theorem eq_none_or_isWritten (h : key.isWellFormed = true) : key = none ∨ key.IsWritten := by
  have hbits : key.bits.toNat = key.high * 256 + key.low := by
    rw [high, low]
    omega
  unfold isWellFormed at h
  split at h
  next hhigh =>
    rw [Bool.or_eq_true, decide_eq_true_eq, Option.isSome_iff_exists] at h
    obtain hlow | ⟨shape, hshape⟩ := h
    · refine .inl (eq_of_toNat ?_)
      rw [hbits, hhigh, hlow]
      rfl
    · have hkey : key = single shape := eq_of_toNat (by
        rw [hbits, toNat_single, Shape.toByte_of_ofByte? hshape]
        omega)
      exact .inr (hkey ▸ .one shape)
  next =>
    obtain ⟨⟨first, second⟩, hshapes⟩ := Option.isSome_iff_exists.mp h
    simp only [shapes?, Option.bind_eq_bind, Option.bind_eq_some_iff, Option.pure_def,
      Option.some.injEq, Prod.mk.injEq] at hshapes
    obtain ⟨first, hfirst, second, hsecond, rfl, rfl⟩ := hshapes
    have hkey : key = pair first second := eq_of_toNat (by
      rw [hbits, toNat_pair, Shape.toByte_of_ofByte? hfirst, Shape.toByte_of_ofByte? hsecond])
    exact .inr (hkey ▸ .two first second)

end Key

/-! ### Code words -/

/-- The word of an instruction is decoded as the instruction, or its key is found to be malformed. -/
theorem Instruction.decode_encode_eq (opcode : Opcode) (key : Key) :
    decode (encode ⟨opcode, key⟩) =
      if key.isWellFormed then .ok ⟨opcode, key⟩ else .error (.invalidShape (badByte key)) := by
  have hcode := Vocabulary.code_lt opcode
  have hbits : key.bits.toNat < 65536 := key.bits.toNat_lt
  have hword : (encode ⟨opcode, key⟩).toNat = Vocabulary.code opcode + key.bits.toNat * 256 := by
    simp only [encode, UInt32.toNat_ofNat']
    omega
  have hlow : (Vocabulary.code opcode + key.bits.toNat * 256) % 256 = Vocabulary.code opcode := by
    omega
  have hhigh : (Vocabulary.code opcode + key.bits.toNat * 256) / 256 = key.bits.toNat := by
    omega
  unfold decode
  rw [hword]
  dsimp only
  rw [if_neg (by omega), hlow, Vocabulary.ofCode?_code, hhigh]
  simp only [UInt16.ofNat_toNat]

/-- An instruction with a well-formed key is decoded as it was encoded. -/
theorem Instruction.decode_encode {instruction : Instruction}
    (hkey : instruction.key.isWellFormed = true) :
    decode instruction.encode = .ok instruction :=
  (decode_encode_eq instruction.opcode instruction.key).trans (if_pos hkey)

/-- A word whose high byte is zero and whose low byte is an opcode's is the word of an instruction. -/
theorem Instruction.encode_of_code {word : Word} {opcode : Opcode} (hreserved : word.toNat < 0x1000000)
    (hcode : Vocabulary.code opcode = word.toNat % 256) :
    encode ⟨opcode, ⟨UInt16.ofNat (word.toNat / 256)⟩⟩ = word := by
  have hbits : (UInt16.ofNat (word.toNat / 256)).toNat = word.toNat / 256 := by
    rw [UInt16.toNat_ofNat']
    omega
  rw [encode, hcode, hbits, Nat.mod_add_div', UInt32.ofNat_toNat]

/-- A word that is decoded is the instruction's. -/
theorem Instruction.encode_of_decode {instruction : Instruction} {word : Word}
    (h : decode word = .ok instruction) :
    instruction.encode = word ∧ instruction.key.isWellFormed = true := by
  unfold decode at h
  dsimp only at h
  split at h
  next => cases h
  next hreserved =>
    split at h
    next => cases h
    next opcode hopcode =>
      split at h
      next hkey =>
        obtain rfl := Except.ok.inj h
        exact ⟨encode_of_code (Nat.not_le.mp hreserved) (Vocabulary.code_of_ofCode? hopcode), hkey⟩
      next => cases h

namespace Address

/-- The operand word of an address. -/
def word (address : Address) : Word := UInt32.ofNat (address.kind * 0x40000000 + address.index)

theorem encode?_eq_some {address : Address} {w : Word} :
    address.encode? = some w ↔ address.index < 0x40000000 ∧ address.word = w := by
  unfold encode? word
  split
  next h => rw [Option.some.injEq, and_iff_right h]
  next h => exact iff_of_false (by simp) (fun hand => h hand.1)

theorem toNat_word {address : Address} (h : address.index < 0x40000000) :
    address.word.toNat = address.kind * 0x40000000 + address.index := by
  have hkind : address.kind ≤ 2 := by cases address <;> simp [kind]
  simp only [word, UInt32.toNat_ofNat']
  omega

theorem decode?_word {address : Address} (h : address.index < 0x40000000) :
    decode? address.word = some address := by
  have hkind : (address.kind * 0x40000000 + address.index) / 0x40000000 = address.kind := by omega
  have hindex : (address.kind * 0x40000000 + address.index) % 0x40000000 = address.index := by
    omega
  unfold decode?
  rw [toNat_word h]
  dsimp only
  rw [hkind, hindex]
  cases address <;> rfl

/-- A word that is decoded is the address's. -/
theorem word_of_decode? {address : Address} {w : Word} (h : decode? w = some address) :
    address.index < 0x40000000 ∧ address.word = w := by
  have hlt := Nat.mod_lt w.toNat (show 0 < 0x40000000 by decide)
  have hdiv := Nat.div_add_mod w.toNat 0x40000000
  unfold decode? at h
  dsimp only at h
  have hword : ∀ kind, w.toNat / 0x40000000 = kind →
      UInt32.ofNat (kind * 0x40000000 + w.toNat % 0x40000000) = w := by
    intro kind hkind
    rw [← hkind, Nat.mul_comm, hdiv, UInt32.ofNat_toNat]
  split at h
  next hkind =>
    obtain rfl := Option.some.inj h
    exact ⟨hlt, hword 0 hkind⟩
  next hkind =>
    obtain rfl := Option.some.inj h
    exact ⟨hlt, hword 1 hkind⟩
  next hkind =>
    obtain rfl := Option.some.inj h
    exact ⟨hlt, hword 2 hkind⟩
  next => cases h

end Address

end Shading
