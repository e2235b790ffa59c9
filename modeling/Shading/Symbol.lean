import Shading.Value

namespace Shading

/-!
# Symbols

The symbols of a shader are its globals, parameters and variables.  A symbol's slot is its place in
the order of declaration; no two symbols share a name.
-/

inductive SymbolKind
  /-- Supplied by the grid and written back to it. -/
  | global
  /-- Read from the grid if bound there, else from its default. -/
  | parameter
  /-- Private to one run. -/
  | variable
  deriving DecidableEq, Repr

instance : Vocabulary SymbolKind where
  words := [.global, .parameter, .variable]
  name
    | .global => "global"
    | .parameter => "parameter"
    | .variable => "variable"

structure Symbol where
  name : String
  kind : SymbolKind
  type : ElementType
  storage : Storage
  default : Option Value
  deriving Repr

namespace Symbol

variable (symbol : Symbol)

/-- The grid may bind the symbol. -/
def isBindable : Bool := symbol.kind != .variable

/-- The value the symbol has when nothing is bound to it: its default, given to every point of a
    varying symbol, or zeros. -/
def initialValue (points : Nat) : Except Fault Value :=
  match symbol.default with
  | some value => if symbol.storage.isVarying then value.broadcast points else .ok value
  | none => Value.allocate symbol.type symbol.storage (symbol.storage.size points)

end Symbol

/-- Symbols in order of declaration. -/
structure SymbolTable where
  symbols : Array Symbol
  deriving Repr

namespace SymbolTable

def empty : SymbolTable := ⟨#[]⟩

instance : Inhabited SymbolTable := ⟨empty⟩

variable (table : SymbolTable)

def size : Nat := table.symbols.size

/-- The slot of the symbol called `name`. -/
def slot? (name : String) : Option Nat := table.symbols.findIdx? fun symbol => symbol.name = name

/-- The name of the symbol in a slot. -/
def name? (slot : Nat) : Option String := table.symbols[slot]?.map Symbol.name

/-- The symbol called `name`. -/
def find? (name : String) : Option Symbol := do
  table.symbols[← table.slot? name]?

/-- Declares a symbol in the next slot, unless its name is taken. -/
def insert? (symbol : Symbol) : Option SymbolTable :=
  match table.slot? symbol.name with
  | some _ => none
  | none => some ⟨table.symbols.push symbol⟩

end SymbolTable

end Shading
