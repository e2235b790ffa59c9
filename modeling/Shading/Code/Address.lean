import Shading.Code.Instruction

namespace Shading

/-!
# Operand addresses

An operand word names a constant of the shader, a symbol of the shader, or a temporary of the
machine: two bits for the kind, thirty for the index.
-/

inductive Address
  | constant (index : Nat)
  | symbol (index : Nat)
  | temporary (index : Nat)
  deriving DecidableEq, Repr

namespace Address

def index : Address → Nat
  | .constant i | .symbol i | .temporary i => i

def isConstant : Address → Bool
  | .constant _ => true
  | _ => false

/-- An address as it is written in assembly: `#0`, `@0`, `%0`. -/
def text : Address → String
  | .constant i => "#" ++ i.repr
  | .symbol i => "@" ++ i.repr
  | .temporary i => "%" ++ i.repr

instance : ToString Address := ⟨text⟩

/-- The two bits for the kind of address. -/
def kind : Address → Nat
  | .constant _ => 0
  | .symbol _ => 1
  | .temporary _ => 2

/-- The operand word of an address whose index fits in thirty bits. -/
def encode? (address : Address) : Option Word :=
  if address.index < 0x40000000 then
    some (UInt32.ofNat (address.kind * 0x40000000 + address.index))
  else
    none

/-- The address an operand word names; the fourth kind is unassigned. -/
def decode? (word : Word) : Option Address :=
  let index := word.toNat % 0x40000000
  match word.toNat / 0x40000000 with
  | 0 => some (.constant index)
  | 1 => some (.symbol index)
  | 2 => some (.temporary index)
  | _ => none

end Address

end Shading
