import Shading.Assembly.Draft
import Shading.Assembly.Listing
import Shading.CommandLine.Request
import Shading.Machine.Shade

namespace Shading

/-!
# Requests carried out

A request assembles a shader, and either lists it or runs it over a grid that is printed afterwards.

* `Request.run` — what a request prints.
* `respond` — what the program prints for its arguments, and its exit code.
-/

/-- Why a value given on the command line cannot be bound. -/
inductive BindingError
  | unknownSymbol (name shader : String)
  | wrongCount (name : String) (type : ElementType) (count : Nat)
  | wrongSize (name : String) (size points : Nat)
  deriving DecidableEq, Repr

def BindingError.message : BindingError → String
  | .unknownSymbol name shader => s!"`{name}` is not a symbol of `{shader}`"
  | .wrongCount name type count => s!"`{name}` is a {type} and cannot take {count} numbers"
  | .wrongSize name size points => s!"`{name}` has {size} elements but the grid has {points} points"

/-- Why a request fails. -/
inductive RunError
  | unreadable (path reason : String)
  | assembly (error : AssemblyError)
  | binding (error : BindingError)
  | grid (error : GridError)
  | machine (error : MachineError)
  /-- The shader was still running when its turns had been taken. -/
  | unfinished (turns : Nat)
  deriving DecidableEq, Repr

def RunError.message : RunError → String
  | .unreadable path reason => s!"cannot read {path}: {reason}"
  | .assembly error => error.message
  | .binding error => error.message
  | .grid error => error.message
  | .machine error => error.message
  | .unfinished turns => s!"no end after {turns} turns"

/-- The reason why a file that is not there cannot be read. -/
def noSuchFile : String := "No such file or directory (os error 2)"

/-- An error of a part of the work as one of the whole. -/
def Failure.widen {ε : Type} (wrap : ε → RunError) (failure : Failure ε) : Failure RunError :=
  match failure with
  | .fault cause => .fault cause
  | .error cause => .error (wrap cause)

/-- The value of a symbol's type that numbers make: uniform if there is one element, varying if
    there is one for each point. -/
def Shader.valueOf (shader : Shader) (points : Nat) (name : String) (numbers : List Float32) :
    Except BindingError Value := do
  let symbol ← match shader.symbols.find? name with
    | some symbol => pure symbol
    | none => throw (.unknownSymbol name shader.name)
  let width := symbol.type.components
  if width = 0 ∨ numbers.length % width ≠ 0 then
    throw (.wrongCount name symbol.type numbers.length)
  let size := numbers.length / width
  let value (storage : Storage) : Value :=
    { Value.zeros symbol.type storage size with floats := numbers.toArray }
  if size = 1 then
    return value .uniform
  else if size = points then
    return value .varying
  else
    throw (.wrongSize name size points)

namespace Request

variable (request : Request)

/-- The grid that a shader is run over, before it is prepared. -/
def grid (shader : Shader) : Except (Failure RunError) Grid := do
  let (width, height) := request.dimensions.getD (4, 1)
  request.bindings.foldlM (fun grid (name, numbers) => do
    let value ← (shader.valueOf (← grid.points) name numbers).mapError (.error ∘ RunError.binding)
    (grid.insert name value).mapError (Failure.widen .grid)) (Grid.new width height)

/-- Runs a shader over the grid that is asked for, and shows that. -/
def shade (turns : Nat) (shader : Shader) : Except (Failure RunError) String := do
  let grid ← request.grid shader
  let config : Config := { limit := request.limit }
  let machine ← Machine.new config ()
  let (progress, grid) := shader.prepare grid
  progress.mapError (Failure.widen .machine)
  let renderer := Renderer.ofScene SpaceTable.new.scene
  let (outcome, machine, grid) := machine.shadeInPlace renderer shader turns grid
  match outcome with
  | .finished => return (← grid.display) ++ s!"\n{machine.executed} instructions executed\n"
  | .failed failure => throw (failure.widen .machine)
  | .unfinished => throw (.error (.unfinished turns))

/-- What a request prints.  `source` is the text at `path`, or why that cannot be read. -/
def run (turns : Nat) (path : String) (source : Except String String) :
    Except (Failure RunError) String := do
  let text ← source.mapError fun reason => Failure.error (RunError.unreadable path reason)
  let shader ← (assemble text).mapError (Failure.widen .assembly)
  if request.disassemble then
    shader.listing
  else
    request.shade turns shader

end Request

/-- How the program ends. -/
inductive Ending
  | printed (text : String)
  | complaint (error : RunError)
  | misuse
  | broken (fault : Fault)
  deriving DecidableEq, Repr

def Ending.exitCode : Ending → Nat
  | .printed _ => 0
  | .complaint _ => 1
  | .misuse => 2
  | .broken _ => 101

/-- How to use the program. -/
def usage (program : String) : String :=
  "Runs shader assembly over a grid of shading points\n\n" ++
  s!"Usage: {program} [OPTIONS] <ASSEMBLY>\n\n" ++
  "Arguments:\n" ++
  "  <ASSEMBLY>  Shader assembly file\n\n" ++
  "Options:\n" ++
  "  -g, --grid <GRID>     Grid dimensions as WIDTHxHEIGHT [default: 4x1]\n" ++
  "  -v, --value <VALUES>  Binds a grid value, as NAME=C0,C1,... " ++
  "One element makes a uniform value\n" ++
  "  -l, --limit <LIMIT>   Stops after this many instructions\n" ++
  "  -d, --disassemble     Prints the assembled shader instead of running it\n" ++
  "  -h, --help            Print help\n"

/-- How the program ends for its arguments; `read` is what reading a path gives. -/
def respond {m : Type → Type} [Monad m] (program : String) (turns : Nat) (arguments : List String)
    (read : String → m (Except String String)) : m Ending := do
  match Request.parse arguments with
  | .error .help => return .printed (usage program)
  | .error .misuse => return .misuse
  | .ok (path, request) =>
    match request.run turns path (← read path) with
    | .ok text => return .printed text
    | .error (.error error) => return .complaint error
    | .error (.fault fault) => return .broken fault

end Shading
