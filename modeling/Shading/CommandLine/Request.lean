import Shading.Decimal.Numeral
import Shading.Text.Lines

namespace Shading

/-!
# Requests on the command line

What the arguments of the program ask for.

* `CommandToken` — an argument by its form: an option, with its value if that is attached, or a
  plain argument.
* `Request.parse` — the request that arguments make.
-/

/-! ### Options -/

inductive CommandOption
  | grid
  | value
  | limit
  | disassemble
  | help
  deriving DecidableEq, Repr

namespace CommandOption

def takesValue : CommandOption → Bool
  | .grid | .value | .limit => true
  | .disassemble | .help => false

def ofLetter? : Char → Option CommandOption
  | 'g' => some .grid
  | 'v' => some .value
  | 'l' => some .limit
  | 'd' => some .disassemble
  | 'h' => some .help
  | _ => none

def ofName? : String → Option CommandOption
  | "grid" => some .grid
  | "value" => some .value
  | "limit" => some .limit
  | "disassemble" => some .disassemble
  | "help" => some .help
  | _ => none

end CommandOption

/-! ### Tokens -/

/-- The text before and after the first occurrence of a character. -/
def cut? (separator : Char) : List Char → Option (List Char × List Char)
  | [] => none
  | c :: rest =>
    if c = separator then some ([], rest)
    else (cut? separator rest).map fun (before, after) => (c :: before, after)

inductive CommandToken
  | option (option : CommandOption) (attached : Option String)
  | unknown
  | plain (text : String)
  /-- An argument after the end of the options. -/
  | trailing (text : String)
  deriving DecidableEq, Repr

namespace CommandToken

/-- The options in a cluster of letters.  The letters after an option with a value, less an equals
    sign before them, are its value; nothing is known of what follows an unknown letter. -/
def ofLetters : List Char → List CommandToken
  | [] => []
  | c :: rest =>
    match CommandOption.ofLetter? c with
    | none => [.unknown]
    | some chosen =>
      if chosen.takesValue then
        match rest with
        | [] => [.option chosen none]
        | '=' :: value => [.option chosen (some (String.ofList value))]
        | value => [.option chosen (some (String.ofList value))]
      else
        .option chosen none :: ofLetters rest

/-- An option by its name, with a value after an equals sign. -/
def ofLong (text : List Char) : CommandToken :=
  let (name, attached) :=
    match cut? '=' text with
    | some (name, value) => (name, some (String.ofList value))
    | none => (text, none)
  match CommandOption.ofName? (String.ofList name) with
  | none => .unknown
  | some chosen =>
    if attached.isSome && !chosen.takesValue then .unknown else .option chosen attached

/-- The tokens of arguments.  Two dashes end the options, and a single dash is a plain argument. -/
def ofArguments : List String → List CommandToken
  | [] => []
  | argument :: rest =>
    match argument.toList with
    | ['-', '-'] => rest.map .trailing
    | '-' :: '-' :: name => ofLong name :: ofArguments rest
    | '-' :: c :: letters => ofLetters (c :: letters) ++ ofArguments rest
    | _ => .plain argument :: ofArguments rest

end CommandToken

/-! ### Values of options -/

/-- A whole number below 2⁶⁴, with an optional plus sign. -/
def readCount? (text : List Char) : Option Nat :=
  let digits := match text with
    | '+' :: digits => digits
    | digits => digits
  if digits ≠ [] ∧ digits.all Char.isDigit then
    let n := Nat.ofDigitChars 10 digits 0
    if n < UInt64.size then some n else none
  else
    none

/-- The dimensions of a grid, as in 4x1. -/
def readDimensions? (text : String) : Option (Nat × Nat) := do
  let (width, height) ← cut? 'x' text.toList
  return (← readCount? (trimChars width), ← readCount? (trimChars height))

/-- The pieces of a text between separators. -/
def pieces (separator : Char) (text : List Char) : List (List Char) :=
  text.foldr
    (fun c pieces =>
      if c = separator then [] :: pieces
      else match pieces with
        | [] => [[c]]
        | piece :: pieces => (c :: piece) :: pieces)
    [[]]

/-- A name and the numbers bound to it, as in x=1,2. -/
def readBinding? (text : String) : Option (String × List Float32) := do
  let (name, numbers) ← cut? '=' text.toList
  let numbers ← (pieces ',' numbers).mapM fun number =>
    parseFloat? (String.ofList (trimChars number))
  return (String.ofList (trimChars name), numbers)

/-! ### Requests -/

/-- What the program is asked to do. -/
structure Request where
  path : Option String := none
  dimensions : Option (Nat × Nat) := none
  bindings : List (String × List Float32) := []
  limit : Option Nat := none
  disassemble : Bool := false

/-- Why arguments make no request. -/
inductive Refusal
  /-- The arguments ask for help. -/
  | help
  /-- The arguments are not understood. -/
  | misuse
  deriving DecidableEq, Repr

namespace Request

/-- Only one argument is the path. -/
def withPath (path : String) (request : Request) : Except Refusal Request :=
  match request.path with
  | none => .ok { request with path := some path }
  | some _ => .error .misuse

/-- Sets what may be set once. -/
def once {α : Type} (old new : Option α) : Except Refusal (Option α) :=
  match old, new with
  | none, some x => .ok (some x)
  | _, _ => .error .misuse

/-- Adds an option that has a value. -/
def withValue (option : CommandOption) (text : String) (request : Request) :
    Except Refusal Request := do
  match option with
  | .grid => return { request with dimensions := ← once request.dimensions (readDimensions? text) }
  | .limit => return { request with limit := ← once request.limit (readCount? text.toList) }
  | .value =>
    match readBinding? text with
    | some binding => return { request with bindings := request.bindings ++ [binding] }
    | none => throw .misuse
  | .disassemble | .help => throw .misuse

/-- Adds an option that has none. -/
def withFlag (option : CommandOption) (request : Request) : Except Refusal Request :=
  match option with
  | .help => .error .help
  | .disassemble =>
    if request.disassemble then .error .misuse else .ok { request with disassemble := true }
  | .grid | .value | .limit => .error .misuse

/-- Reads tokens from left to right.  The value of an option is attached to it, or the next token if
    that is plain. -/
def readTokens : List CommandToken → Request → Except Refusal Request
  | [], request => .ok request
  | .unknown :: _, _ => .error .misuse
  | .plain path :: rest, request | .trailing path :: rest, request => do
    readTokens rest (← request.withPath path)
  | .option option (some value) :: rest, request => do
    readTokens rest (← request.withValue option value)
  | .option option none :: rest, request => do
    if option.takesValue then
      match rest with
      | .plain value :: rest => readTokens rest (← request.withValue option value)
      | _ => .error .misuse
    else
      readTokens rest (← request.withFlag option)

/-- The request that arguments make, and the path of the shader. -/
def parse (arguments : List String) : Except Refusal (String × Request) := do
  let request ← readTokens (CommandToken.ofArguments arguments) {}
  match request.path with
  | some path => return (path, request)
  | none => throw .misuse

end Request

end Shading
