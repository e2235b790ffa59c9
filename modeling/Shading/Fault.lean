import Shading.Builtin
import Shading.Code.Address

namespace Shading

/-!
# Faults

A fault is an inconsistency between a shader's code and the values it meets: it stops the program at
once, unlike an error, which a caller can handle.

* `Fault` — the causes; `Fault.message` — their wording, where there is one.
* `Failure ε` — a fault, or an error of type `ε`.
-/

inductive Fault
  /-- Something was read or written beyond its end. -/
  | outOfRange
  /-- More was asked for than can be counted or held. -/
  | tooLarge
  /-- The colour sequences of a text hide more columns than it takes. -/
  | overhidden
  -- values
  | uniformSize (size : Nat)
  | notTriple (type : ElementType)
  | cannotRetype (old new : ElementType)
  | noText (type : ElementType)
  -- addresses
  | addressIndex (index : Nat)
  | notWritable (address : Address)
  -- masks
  | predicateType (type : ElementType)
  | predicateSize (size points : Nat)
  | invertBase
  | clearBase
  | noBase
  -- code
  | notLoaded (shader : String)
  | malformedCode (offset : Nat) (error : DecodeError)
  | malformedOperand (word : Word) (offset : Nat)
  | noOperation (instruction : Instruction)
  | operandShape (instruction : Instruction) (storage : Storage) (type : ElementType) (size : Nat)
      (expected : Shape)
  | matrixRequired (instruction : Instruction) (storage : Storage) (type : ElementType)
  | unknownType (instruction : Instruction) (code : Nat)
  | cannotProduce (instruction : Instruction) (type : ElementType)
  | varyingResult (address : Address)
  | resultType (result target : ElementType) (address : Address)
  -- builtins
  | unknownFunction (code : Nat)
  | argumentCount (function : Builtin) (given : Nat)
  | tripleRequired (user : String) (type : ElementType)
  | uniformRequired (user : String) (type : ElementType)
  | varyingComponent (type : ElementType)
  | leadingArguments (count : Nat)
  | notDifferentiable (direction : Direction) (type : ElementType)
  | derivativeSize (direction : Direction) (size width height : Nat)
  deriving DecidableEq, Repr

namespace Fault

/-- The text of a fault.  Faults that are not about values, masks, code or builtins have none. -/
def message : Fault → Option String
  | .outOfRange | .tooLarge | .overhidden => none
  | .uniformSize size => s!"uniform values hold exactly one element, not {size}"
  | .notTriple type => s!"{type} is not a three component type"
  | .cannotRetype old new => s!"cannot retype {old} as {new}"
  | .noText type => s!"Error: A {type} value was used where a string was required."
  | .addressIndex index => s!"address index {index} does not fit in 30 bits"
  | .notWritable address =>
    s!"Error: A constant address was given when a writable address was required: {address}"
  | .predicateType type => s!"Error: A {type} value was used as a mask predicate."
  | .predicateSize size points =>
    s!"Error: A predicate of {size} elements was given to a mask over {points} points."
  | .invertBase => "Error: Tried to invert the base mask."
  | .clearBase => "Error: Tried to clear the base mask."
  | .noBase => "Error: The mask stack has no base entry."
  | .notLoaded shader => s!"Error: The symbols of `{shader}` have not been loaded."
  | .malformedCode offset error => s!"Error: Malformed code at offset {offset}: {error.message}"
  | .malformedOperand word offset =>
    s!"Error: Malformed operand {hex 8 word.toNat} at offset {offset}."
  | .noOperation instruction => s!"Error: There is no kernel for `{instruction}`."
  | .operandShape instruction storage type size expected =>
    s!"Error: `{instruction}` was given a {storage} {type} of {size} elements " ++
      s!"where its key requires {expected.text}."
  | .matrixRequired instruction storage type =>
    s!"Error: `{instruction}` requires a uniform matrix but was given a {storage} {type}."
  | .unknownType instruction code =>
    s!"Error: `{instruction}` was given the unknown type code {code}."
  | .cannotProduce instruction type => s!"Error: `{instruction}` cannot produce a {type}."
  | .varyingResult address =>
    s!"Error: A varying result was written to the uniform symbol {address}."
  | .resultType result target address =>
    s!"Error: A {result} result was written to the {target} symbol {address}."
  | .unknownFunction code => s!"Error: Call to unknown function {code}."
  | .argumentCount function given =>
    s!"Error: {function} takes {function.arity.1} to {function.arity.2} arguments " ++
      s!"but was given {given}."
  | .tripleRequired user type =>
    s!"Error: {user} requires a point, vector, normal, or color but was given a {type}."
  | .uniformRequired user type =>
    s!"Error: {user} requires a uniform {type} but was given a varying one."
  | .varyingComponent type => s!"Error: A varying component was written into a uniform {type}."
  | .leadingArguments count =>
    s!"Error: A transform was called with {count} leading arguments " ++
      "that are not a space or matrix."
  | .notDifferentiable direction type =>
    s!"Error: {Builtin.derivative direction} requires a float or a triple " ++
      s!"but was given a {type}."
  | .derivativeSize direction size width height =>
    s!"Error: {Builtin.derivative direction} was given {size} elements " ++
      s!"on a {width}x{height} grid."

end Fault

/-- Why an operation has no result: a fault, or an error for its caller to handle. -/
inductive Failure (ε : Type)
  | fault (fault : Fault)
  | error (error : ε)
  deriving DecidableEq, Repr

/-- A computation that can fault runs inside one that can also err. -/
instance {ε : Type} : MonadLift (Except Fault) (Except (Failure ε)) where
  monadLift := Except.mapError Failure.fault

end Shading
