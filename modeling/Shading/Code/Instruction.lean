import Shading.Code.Shape
import Shading.Code.Opcode

namespace Shading

/-!
# Instruction words

An instruction word holds the opcode in its low byte and the key in the next two; the high byte is
reserved and zero.  `Instruction.encode` and `Instruction.decode` pack and unpack it.
-/

/-- Code is a sequence of 32 bit words. -/
abbrev Word := UInt32

structure Instruction where
  opcode : Opcode
  key : Key
  deriving DecidableEq, Repr

/-- Why a word is no instruction. -/
inductive DecodeError
  | reservedBits (word : Word)
  | unknownOpcode (code : Nat)
  | invalidShape (byte : Nat)
  deriving DecidableEq, Repr

def DecodeError.message : DecodeError → String
  | .reservedBits word => "reserved bits set in instruction word " ++ hex 8 word.toNat
  | .unknownOpcode code => "unknown opcode " ++ hex 2 code
  | .invalidShape byte => "invalid operand shape " ++ hex 2 byte

namespace Instruction

/-- An instruction without a key. -/
def plain (opcode : Opcode) : Instruction := ⟨opcode, Key.none⟩

/-- The opcode, then the key if there is one. -/
def text (instruction : Instruction) : String :=
  if instruction.key = Key.none then
    Vocabulary.name instruction.opcode
  else
    Vocabulary.name instruction.opcode ++ "." ++ instruction.key.text

instance : ToString Instruction := ⟨text⟩

def encode (instruction : Instruction) : Word :=
  UInt32.ofNat (Vocabulary.code instruction.opcode + instruction.key.bits.toNat * 256)

/-- The byte of a malformed key to complain about: the high byte, unless that one is fine. -/
def badByte (key : Key) : Nat :=
  if key.high = 0 ∨ (Shape.ofByte? key.high).isSome then key.low else key.high

def decode (word : Word) : Except DecodeError Instruction :=
  let bits := word.toNat
  if 0x1000000 ≤ bits then
    .error (.reservedBits word)
  else
    match Vocabulary.ofCode? (bits % 256) with
    | none => .error (.unknownOpcode (bits % 256))
    | some opcode =>
      let key : Key := ⟨UInt16.ofNat (bits / 256)⟩
      if key.isWellFormed then .ok ⟨opcode, key⟩ else .error (.invalidShape (badByte key))

end Instruction

end Shading
