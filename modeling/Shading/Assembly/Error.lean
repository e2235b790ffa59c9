import Shading.Assembly.Line
import Shading.Code.Opcode
import Shading.Element

namespace Shading

/-!
# Errors in assembly

An error names the line it is on, counted from one, and its cause.
-/

/-- What stands at a place in a directive. -/
inductive DirectivePart
  | shaderKind
  | shaderName
  | storage
  | type
  | symbolName
  deriving DecidableEq, Repr

instance : ToString DirectivePart where
  toString
    | .shaderKind => "a shader kind"
    | .shaderName => "a shader name"
    | .storage => "a storage class"
    | .type => "a type"
    | .symbolName => "a symbol name"

/-- What is wrong with a directive. -/
inductive DirectiveError
  | missing (part : DirectivePart)
  | notOne (text : String) (part : DirectivePart)
  | notNumber (text : String)
  | wrongCount (type : ElementType) (count : Nat)
  | unquoted
  | brokenElements (count : Nat) (type : ElementType)
  | unknown (name : String)
  deriving DecidableEq, Repr

def DirectiveError.message : DirectiveError → String
  | .missing part => s!"expected {part}"
  | .notOne text part => s!"`{text}` is not {part}"
  | .notNumber text => s!"expected a number but found `{text}`"
  | .wrongCount type count => s!"a {type} cannot be made from {count} numbers"
  | .unquoted => "string constants must be quoted"
  | .brokenElements count type => s!"{count} numbers do not make whole {type} constants"
  | .unknown name => s!"unknown directive `.{name}`"

/-- What stands at a place in an operation. -/
inductive OperandPart
  | label
  | function
  | type
  | address
  deriving DecidableEq, Repr

instance : ToString OperandPart where
  toString
    | .label => "a label"
    | .function => "a function"
    | .type => "a type"
    | .address => "an address"

/-- An operand as an error shows it. -/
def Operand.shown : Operand → String
  | .constant i => s!"Constant({i})"
  | .temporary i => s!"Temporary({i})"
  | .symbol i => s!"SymbolIndex({i})"
  | .symbolNamed name => s!"SymbolName(\"{name}\")"
  | .word name => name

inductive AssemblyCause
  | unreadable (text : String)
  | notAnOperation (name : String)
  | wrongArity (operation : Opcode) (expected actual : Nat)
  | missingKey (operation : Opcode)
  | invalidKey (text : String)
  | unexpectedOperand (expected : OperandPart) (found : Operand)
  | unknownSymbol (name : String)
  | unknownLabel (name : String)
  | redefinition (name : String)
  | invalidDirective (error : DirectiveError)
  deriving DecidableEq, Repr

def AssemblyCause.message : AssemblyCause → String
  | .unreadable text => s!"cannot parse `{text}`"
  | .notAnOperation name => s!"`{name}` is not an operation"
  | .wrongArity operation expected actual =>
    s!"{operation} requires {expected} operands but was given {actual}"
  | .missingKey operation => s!"{operation} requires a dispatch key such as `.v1u1`"
  | .invalidKey text => s!"`{text}` is not a dispatch key"
  | .unexpectedOperand expected found => s!"expected {expected} but found `{found.shown}`"
  | .unknownSymbol name => s!"unknown symbol `{name}`"
  | .unknownLabel name => s!"unknown label `{name}`"
  | .redefinition name => s!"`{name}` is already defined"
  | .invalidDirective error => error.message

structure AssemblyError where
  line : Nat
  cause : AssemblyCause
  deriving DecidableEq, Repr

def AssemblyError.message (error : AssemblyError) : String :=
  s!"line {error.line}: {error.cause.message}"

end Shading
