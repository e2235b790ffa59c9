import Shading.Indexed

namespace Shading

/-!
# Walking through code

Code is read from its first word on, each instruction telling how many words it takes.
-/

/-- How many words the instruction at `ip` takes, its operands included. -/
def instructionSize (code : Array Word) (ip : Nat) (opcode : Opcode) : Except Fault Nat :=
  match opcode.operandCount? with
  | some count => .ok (1 + count)
  | none => return 4 + (← fetch code (ip + 3)).toNat

/-- The instructions met on a walk with their offsets, and the word that ended it if one did. -/
structure Walk where
  instructions : List (Nat × Instruction)
  stop : Option (Nat × DecodeError)
  deriving DecidableEq, Repr

/-- Walks on from offset `ip` over at most the given number of instructions. -/
def walkFrom (code : Array Word) : Nat → Nat → Except Fault Walk
  | 0, _ => .ok ⟨[], none⟩
  | count + 1, ip =>
    if h : ip < code.size then
      match Instruction.decode code[ip] with
      | .error error => .ok ⟨[], some (ip, error)⟩
      | .ok instruction => do
        let size ← instructionSize code ip instruction.opcode
        let rest ← walkFrom code count (ip + size)
        return { rest with instructions := (ip, instruction) :: rest.instructions }
    else
      .ok ⟨[], none⟩

/-- Walks through all of the code: no instruction is shorter than a word. -/
def walk (code : Array Word) : Except Fault Walk := walkFrom code code.size 0

end Shading
