import Shading.Machine.Run

namespace Shading

/-!
# Shading grids

Running a shader over a grid: the values that the grid binds are loaded into the registers of the
symbols, the shader is run, and the registers are stored back into a grid.

* `Shader.prepare` — binds what a grid lacks.
* `Machine.shade` — from one grid to another.
* `Machine.shadeInPlace` — from a grid back to it.
-/

/-- A value that a grid binds can stand for a symbol: it has the symbol's type, and is not varying
    if the symbol is uniform. -/
def Symbol.checkBinding (symbol : Symbol) (value : Value) : Except MachineError Unit :=
  if value.type ≠ symbol.type then
    .error (.typeMismatch symbol.name symbol.type value.type)
  else if value.isVarying ∧ ¬ symbol.storage.isVarying then
    .error (.storageMismatch symbol.name symbol.storage value.storage)
  else
    .ok ()

/-- An error of a grid is one of the machine that uses it. -/
def Failure.ofGrid (failure : Failure GridError) : Failure MachineError :=
  match failure with
  | .fault cause => .fault cause
  | .error cause => .error (.grid cause)

/-- How far work on a grid came: to its end, or to a failure, which leaves what was done before. -/
abbrev Progress := Except (Failure MachineError) Unit

def Outcome.ofProgress : Progress → Outcome
  | .ok () => .finished
  | .error failure => .failed failure

namespace Shader

/-- Binds a symbol that the grid lacks to its initial value. -/
def bindInitial (symbol : Symbol) (grid : Grid) : Except (Failure GridError) Grid := do
  grid.insert symbol.name (← symbol.initialValue (← grid.points))

/-- Goes through symbols, checking those that the grid binds and binding the others, up to the first
    that fails. -/
def prepareSymbols : List Symbol → Grid → Progress × Grid
  | [], grid => (.ok (), grid)
  | symbol :: symbols, grid =>
    if symbol.isBindable then
      match grid.value? symbol.name with
      | some value =>
        match symbol.checkBinding value with
        | .ok () => prepareSymbols symbols grid
        | .error error => (.error (.error error), grid)
      | none =>
        match bindInitial symbol grid with
        | .ok grid => prepareSymbols symbols grid
        | .error failure => (.error failure.ofGrid, grid)
    else
      prepareSymbols symbols grid

variable (shader : Shader)

/-- Prepares a grid for a shader: every global and parameter that it lacks is bound, those it has
    are checked. -/
def prepare (grid : Grid) : Progress × Grid :=
  prepareSymbols shader.symbols.symbols.toList grid

/-- The globals and parameters that the grid binds are of the declared types and storages. -/
def validate (grid : Grid) : Except MachineError Unit :=
  shader.symbols.symbols.toList.forM fun symbol =>
    match symbol.isBindable, grid.value? symbol.name with
    | true, some value => symbol.checkBinding value
    | _, _ => .ok ()

/-- What a grid binds to a symbol. -/
def boundValue? (grid : Grid) (symbol : Symbol) : Option Value :=
  if symbol.isBindable then grid.value? symbol.name else none

/-- The grid without what it binds to the symbols. -/
def unbind (grid : Grid) : Grid :=
  (shader.symbols.symbols.toList.filter Symbol.isBindable).foldl
    (fun grid symbol => grid.erase symbol.name) grid

end Shader

/-- The value that a run starts with in a symbol's register. -/
def Symbol.loadedValue (symbol : Symbol) (points : Nat) : Option Value → Except Fault Value
  | some value =>
    if symbol.storage.isVarying ∧ value.isUniform then value.broadcast points else .ok value
  | none => symbol.initialValue points

namespace Machine

variable {σ : Type} (renderer : Renderer σ) (shader : Shader)

/-- Loads the registers of the symbols from a grid that is valid for them. -/
def load (grid : Grid) (machine : Machine σ) : Except Fault (Machine σ) := do
  let points ← grid.points
  let symbols ← shader.symbols.symbols.mapM fun symbol =>
    symbol.loadedValue points (Shader.boundValue? grid symbol)
  return { machine with
    width := grid.width
    height := grid.height
    registers := { machine.registers with symbols := symbols }
    bound := shader.symbols.symbols.map fun symbol => (Shader.boundValue? grid symbol).isSome }

/-- Stores symbols from the given slot on into a grid, up to the first whose value does not fit: the
    globals and whatever was read from the grid.  A register is empty afterwards. -/
def storeSymbols : List Symbol → Nat → Grid → Machine σ → Progress × Machine σ × Grid
  | [], _, grid, machine => (.ok (), machine, grid)
  | symbol :: symbols, slot, grid, machine =>
    if symbol.kind = .global || machine.bound.getD slot false then
      match fetch machine.registers.symbols slot with
      | .error fault => (.error (.fault fault), machine, grid)
      | .ok value =>
        let values := machine.registers.symbols.setIfInBounds slot Value.empty
        let machine := { machine with registers := { machine.registers with symbols := values } }
        match grid.insert symbol.name value with
        | .ok grid => storeSymbols symbols (slot + 1) grid machine
        | .error failure => (.error failure.ofGrid, machine, grid)
    else
      storeSymbols symbols (slot + 1) grid machine

def store (grid : Grid) (machine : Machine σ) : Progress × Machine σ × Grid :=
  storeSymbols shader.symbols.symbols.toList 0 grid machine

/-- Runs a shader over `input` and stores its globals in `output`, which must have the same
    dimensions.  Nothing is stored if the run fails. -/
def shade (turns : Nat) (input output : Grid) (machine : Machine σ) :
    Outcome × Machine σ × Grid :=
  let expected := (input.width, input.height)
  let actual := (output.width, output.height)
  if expected ≠ actual then
    (.failed (.error (.gridMismatch expected actual)), machine, output)
  else
    match shader.validate input with
    | .error error => (.failed (.error error), machine, output)
    | .ok () =>
      match load shader input machine with
      | .error fault => (.failed (.fault fault), machine, output)
      | .ok machine =>
        match execute renderer shader turns machine with
        | (.finished, machine) =>
          let (progress, stored) := store shader output machine
          (.ofProgress progress, stored)
        | (outcome, machine) => (outcome, machine, output)

/-- Runs a shader over a grid and stores its globals back, whether the run reaches its end or the
    limit of instructions. -/
def shadeInPlace (turns : Nat) (grid : Grid) (machine : Machine σ) :
    Outcome × Machine σ × Grid :=
  match shader.validate grid with
  | .error error => (.failed (.error error), machine, grid)
  | .ok () =>
    match load shader grid machine with
    | .error fault => (.failed (.fault fault), machine, grid)
    | .ok machine =>
      let grid := shader.unbind grid
      match execute renderer shader turns machine with
      | (.failed (.fault fault), machine) => (.failed (.fault fault), machine, grid)
      | (.unfinished, machine) => (.unfinished, machine, grid)
      | (outcome, machine) =>
        match store shader grid machine with
        | (.ok (), stored) => (outcome, stored)
        | (.error failure, stored) => (.failed failure, stored)

end Machine

end Shading
