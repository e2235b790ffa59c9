import Shading.Element
import Shading.Text.Hex

namespace Shading

/-!
# Operand shapes and keys

A point operation is chosen by the shapes of its operands: a storage class and a width, the number
of floats per element.  The shapes of an instruction are packed into the 16 bits of its `Key`.

* `Shape.toByte`, `Shape.ofByte?` — a shape as a byte: `0x10` or `0x20` plus the width.
* `Key.shapes?`, `Key.shape?` — the two readings of a key, as a pair and as a single shape.
* `Key.parse?`, `Key.text` — keys as they stand in assembly, such as `v3u1`.
-/

/-- The number of floats in one element of an operand. -/
inductive Width
  | one
  | two
  | three
  | four
  deriving DecidableEq, Repr, Inhabited

namespace Width

def count : Width → Nat
  | .one => 1
  | .two => 2
  | .three => 3
  | .four => 4

def ofCount? : Nat → Option Width
  | 1 => some .one
  | 2 => some .two
  | 3 => some .three
  | 4 => some .four
  | _ => none

end Width

/-- How an operation sees an operand. -/
structure Shape where
  storage : Storage
  width : Width
  deriving DecidableEq, Repr, Inhabited

namespace Shape

/-- The high digit of the byte is the storage, the low digit the width. -/
def toByte (shape : Shape) : Nat :=
  match shape.storage with
  | .uniform => 0x10 + shape.width.count
  | .varying => 0x20 + shape.width.count

def ofByte? (byte : Nat) : Option Shape :=
  match byte / 16 with
  | 1 => (Width.ofCount? (byte % 16)).map (⟨.uniform, ·⟩)
  | 2 => (Width.ofCount? (byte % 16)).map (⟨.varying, ·⟩)
  | _ => none

/-- The two characters a shape is written with: `u` or `v`, then the width. -/
def chars (shape : Shape) : List Char :=
  let storage := match shape.storage with
    | .uniform => 'u'
    | .varying => 'v'
  let width := match shape.width with
    | .one => '1'
    | .two => '2'
    | .three => '3'
    | .four => '4'
  [storage, width]

/-- Reads the two characters of a shape. -/
def ofChars? (storage width : Char) : Option Shape := do
  let storage ← match storage with
    | 'u' => some Storage.uniform
    | 'v' => some Storage.varying
    | _ => none
  let width ← match width with
    | '1' => some Width.one
    | '2' => some Width.two
    | '3' => some Width.three
    | '4' => some Width.four
    | _ => none
  return ⟨storage, width⟩

def text (shape : Shape) : String :=
  String.ofList shape.chars

def parse? (text : String) : Option Shape :=
  match text.toList with
  | [storage, width] => ofChars? storage width
  | _ => none

end Shape

/-- The operand shapes of an instruction in 16 bits: the first shape in the high byte, the second in
    the low byte.  A key of one shape leaves the high byte zero. -/
structure Key where
  bits : UInt16
  deriving DecidableEq, Repr, Inhabited

namespace Key

/-- The key of an instruction that needs none. -/
def none : Key := ⟨0⟩

def single (shape : Shape) : Key :=
  ⟨UInt16.ofNat shape.toByte⟩

def pair (first second : Shape) : Key :=
  ⟨UInt16.ofNat (first.toByte * 256 + second.toByte)⟩

def high (key : Key) : Nat := key.bits.toNat / 256

def low (key : Key) : Nat := key.bits.toNat % 256

/-- Both shapes of a key of two shapes. -/
def shapes? (key : Key) : Option (Shape × Shape) := do
  return (← Shape.ofByte? key.high, ← Shape.ofByte? key.low)

/-- The shape of a key of one shape. -/
def shape? (key : Key) : Option Shape :=
  if key.high = 0 then Shape.ofByte? key.low else Option.none

/-- The key is empty, one shape, or two shapes. -/
def isWellFormed (key : Key) : Bool :=
  if key.high = 0 then
    key.low = 0 || (Shape.ofByte? key.low).isSome
  else
    key.shapes?.isSome

/-- A key as it is written; one that is neither form shows its bits. -/
def text (key : Key) : String :=
  match key.shapes?, key.shape? with
  | some (first, second), _ => String.ofList (first.chars ++ second.chars)
  | Option.none, some shape => shape.text
  | Option.none, Option.none => hex 4 key.bits.toNat

/-- Reads one shape or two. -/
def parse? (text : String) : Option Key :=
  match text.toList with
  | [a, b] => (Shape.ofChars? a b).map single
  | [a, b, c, d] => do
    return pair (← Shape.ofChars? a b) (← Shape.ofChars? c d)
  | _ => Option.none

end Key

end Shading
