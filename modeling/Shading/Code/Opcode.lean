import Shading.Vocabulary

namespace Shading

/-!
# Opcodes

The opcodes fall into families that share their operands: arithmetic, tests, assignments, jumps.
The place of an opcode in `Vocabulary.words` is the low byte of its instruction word.
-/

/-- Arithmetic on two operands, component by component. -/
inductive Arithmetic
  | multiply
  | divide
  | add
  | subtract
  deriving DecidableEq, Repr

/-- Tests on two operands that give one or zero: orderings, connectives and equality. -/
inductive Test
  | greater
  | greaterEqual
  | less
  | lessEqual
  | and
  | or
  | equal
  | notEqual
  deriving DecidableEq, Repr

/-- What an assignment does to the float that is there. -/
inductive Assignment
  | replace
  | add
  | subtract
  | multiply
  | divide
  deriving DecidableEq, Repr

/-- When a jump is taken: always, or by whether any point is active. -/
inductive JumpCondition
  | empty
  | notEmpty
  | always
  deriving DecidableEq, Repr

inductive Opcode
  | null
  | halt
  | reset
  | clearMask
  | generateMask
  | invertMask
  | jump (condition : JumpCondition)
  | transform
  | arithmetic (operator : Arithmetic)
  | test (operator : Test)
  | negate
  | assign (operator : Assignment)
  | call
  | evaluate
  | promote
  | convert
  deriving DecidableEq, Repr

namespace Opcode

instance : Vocabulary Opcode where
  words :=
    [.null, .halt, .reset,
     .clearMask, .generateMask, .invertMask,
     .jump .empty, .jump .notEmpty, .jump .always,
     .transform,
     .arithmetic .multiply, .arithmetic .divide, .arithmetic .add, .arithmetic .subtract,
     .test .greater, .test .greaterEqual, .test .less, .test .lessEqual,
     .test .and, .test .or, .test .equal, .test .notEqual,
     .negate,
     .assign .replace, .assign .add, .assign .subtract, .assign .multiply, .assign .divide,
     .call, .evaluate, .promote, .convert]
  name
    | .null => "null"
    | .halt => "halt"
    | .reset => "reset"
    | .clearMask => "clear_mask"
    | .generateMask => "generate_mask"
    | .invertMask => "invert_mask"
    | .jump .empty => "jump_empty"
    | .jump .notEmpty => "jump_not_empty"
    | .jump .always => "jump"
    | .transform => "transform"
    | .arithmetic .multiply => "multiply"
    | .arithmetic .divide => "divide"
    | .arithmetic .add => "add"
    | .arithmetic .subtract => "subtract"
    | .test .greater => "greater"
    | .test .greaterEqual => "greater_equal"
    | .test .less => "less"
    | .test .lessEqual => "less_equal"
    | .test .and => "and"
    | .test .or => "or"
    | .test .equal => "equal"
    | .test .notEqual => "not_equal"
    | .negate => "negate"
    | .assign .replace => "assign"
    | .assign .add => "add_assign"
    | .assign .subtract => "subtract_assign"
    | .assign .multiply => "multiply_assign"
    | .assign .divide => "divide_assign"
    | .call => "call"
    | .evaluate => "evaluate"
    | .promote => "promote"
    | .convert => "convert"

instance : ToString Opcode := ⟨Vocabulary.name⟩

/-- How many operand words follow the instruction word; `call` carries its own count. -/
def operandCount? : Opcode → Option Nat
  | .null | .halt | .reset | .clearMask | .invertMask => some 0
  | .generateMask | .jump _ | .evaluate => some 1
  | .negate | .assign _ | .promote => some 2
  | .transform | .arithmetic _ | .test _ | .convert => some 3
  | .call => none

def isJump : Opcode → Bool
  | .jump _ => true
  | _ => false

/-- The opcodes that act by the shapes of their operands. -/
def requiresKey : Opcode → Bool
  | .null | .halt | .reset | .clearMask | .generateMask | .invertMask
  | .jump _ | .call | .evaluate => false
  | .transform | .arithmetic _ | .test _ | .negate | .assign _ | .promote | .convert => true

/-- The opcodes whose key holds one shape rather than two. -/
def hasSingleShape : Opcode → Bool
  | .negate | .transform => true
  | _ => false

end Opcode

end Shading
