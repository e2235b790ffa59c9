import Shading.Decimal.Numeral

namespace Shading

/-!
# Lines of assembly

Assembly is read line by line.  A line may begin with a label, and may hold a directive, which
declares something, or an operation, which becomes an instruction.

* `Line` — a line as it is understood.
* `Line.parse?` — reads a line of text.  Arguments are divided by blanks or a comma; blanks are
  spaces and tabs.
* `beforeComment` — the part of a line to be read: a semicolon outside quotes begins a comment.
-/

inductive Operand
  /-- `#0` -/
  | constant (index : Nat)
  /-- `%0` -/
  | temporary (index : Nat)
  /-- `@0` -/
  | symbol (index : Nat)
  /-- `@name` -/
  | symbolNamed (name : String)
  /-- A label, a function or a type. -/
  | word (name : String)
  deriving DecidableEq, Repr

/-- An argument of a directive. -/
inductive Token
  | word (text : String)
  | number (value : Float32)
  | quoted (text : String)
  deriving Repr

inductive Statement
  | directive (name : String) (arguments : List Token)
  | operation (mnemonic : String) (key : Option String) (operands : List Operand)
  deriving Repr

structure Line where
  label : Option String
  statement : Option Statement
  deriving Repr

/-! ### Comments -/

/-- The text before a comment, given whether it begins inside quotes. -/
def beforeCommentFrom : Bool → List Char → List Char
  | _, [] => []
  | quoted, c :: rest =>
    if c = ';' ∧ quoted = false then []
    else c :: beforeCommentFrom (if c = '"' then !quoted else quoted) rest

def beforeComment (text : List Char) : List Char := beforeCommentFrom false text

/-! ### Words and separators -/

def isSpace (c : Char) : Bool := c == ' ' || c == '\t'

def isNameStart (c : Char) : Bool := c.isAlpha || c == '_'

def isNamePart (c : Char) : Bool := c.isAlphanum || c == '_'

def skipSpace (text : List Char) : List Char := text.dropWhile isSpace

/-- The name that the text begins with, and the text after it. -/
def name? : List Char → Option (String × List Char)
  | [] => none
  | c :: rest =>
    if isNameStart c then
      some (String.ofList (c :: rest.takeWhile isNamePart), rest.dropWhile isNamePart)
    else
      none

/-- The index that the text begins with; it must fit in 32 bits. -/
def index? (text : List Char) : Option (Nat × List Char) :=
  let digits := text.takeWhile Char.isDigit
  let index := Nat.ofDigitChars 10 digits 0
  if digits.isEmpty ∨ UInt32.size ≤ index then none else some (index, text.dropWhile Char.isDigit)

/-- The text after a separator: a comma with any space around it, or some space. -/
def separator? (text : List Char) : Option (List Char) :=
  match text, skipSpace text with
  | _, ',' :: rest => some (skipSpace rest)
  | c :: _, rest => if isSpace c then some rest else none
  | [], _ => none

/-! ### Arguments -/

def Operand.scan (text : List Char) : Scan Operand :=
  let found? (item : Option (Operand × List Char)) : Scan Operand :=
    match item with
    | some (operand, rest) => .found operand rest
    | none => .absent
  match text with
  | '#' :: rest => found? ((index? rest).map fun (i, rest) => (.constant i, rest))
  | '%' :: rest => found? ((index? rest).map fun (i, rest) => (.temporary i, rest))
  | '@' :: rest =>
    match index? rest with
    | some (i, rest) => .found (.symbol i) rest
    | none => found? ((name? rest).map fun (name, rest) => (.symbolNamed name, rest))
  | text => found? ((name? text).map fun (name, rest) => (.word name, rest))

/-- The text between quotes, and the text after them. -/
def quoted? : List Char → Option (String × List Char)
  | '"' :: rest =>
    match rest.dropWhile (· != '"') with
    | _ :: after => some (String.ofList (rest.takeWhile (· != '"')), after)
    | [] => none
  | _ => none

def Token.scan (text : List Char) : Scan Token :=
  match quoted? text with
  | some (inner, rest) => .found (.quoted inner) rest
  | none =>
    match Numeral.scan text with
    | .found numeral rest => .found (.number numeral.toFloat32) rest
    | .broken => .broken
    | .absent =>
      match name? text with
      | some (name, rest) => .found (.word name) rest
      | none => .absent

section Lists

variable {α : Type} (item : List Char → Scan α)

/-- Further items, each after a separator, up to a given number.  A separator with no item after it
    is left unread. -/
def scanMore : Nat → List Char → Scan (List α)
  | 0, text => .found [] text
  | count + 1, text =>
    match separator? text with
    | none => .found [] text
    | some rest =>
      match item rest with
      | .absent => .found [] text
      | .broken => .broken
      | .found x rest =>
        match scanMore count rest with
        | .found xs rest => .found (x :: xs) rest
        | _ => .broken

/-- A list of items; it has no more of them than the text has characters. -/
def scanItems (text : List Char) : Scan (List α) :=
  match item text with
  | .absent => .found [] text
  | .broken => .broken
  | .found x rest =>
    match scanMore item rest.length rest with
    | .found xs rest => .found (x :: xs) rest
    | _ => .broken

/-- The arguments that follow a name after some space. -/
def scanArguments (text : List Char) : Scan (List α) :=
  match text with
  | c :: _ => if isSpace c then scanItems item (skipSpace text) else .found [] text
  | [] => .found [] text

end Lists

/-! ### Lines -/

/-- The key after the mnemonic, if there is one. -/
def key? (text : List Char) : Option String × List Char :=
  match text with
  | '.' :: rest =>
    let key := rest.takeWhile Char.isAlphanum
    if key.isEmpty then (none, text)
    else (some (String.ofList key), rest.dropWhile Char.isAlphanum)
  | _ => (none, text)

def Statement.scan (text : List Char) : Scan Statement :=
  match text with
  | '.' :: rest =>
    match name? rest with
    | none => .absent
    | some (name, rest) =>
      match scanArguments Token.scan rest with
      | .found arguments rest => .found (.directive name arguments) rest
      | .absent => .absent
      | .broken => .broken
  | text =>
    match name? text with
    | none => .absent
    | some (mnemonic, rest) =>
      let (key, rest) := key? rest
      match scanArguments Operand.scan rest with
      | .found operands rest => .found (.operation mnemonic key operands) rest
      | .absent => .absent
      | .broken => .broken

/-- The label that the text begins with, and the text after its colon. -/
def label? (text : List Char) : Option String × List Char :=
  match name? text with
  | some (name, rest) =>
    match skipSpace rest with
    | ':' :: rest => (some name, skipSpace rest)
    | _ => (none, text)
  | none => (none, text)

/-- Reads a line without its comment. -/
def Line.parse? (text : List Char) : Option Line :=
  let (label, text) := label? (skipSpace text)
  match Statement.scan text with
  | .found statement rest => if (skipSpace rest).isEmpty then some ⟨label, some statement⟩ else none
  | .absent => if (skipSpace text).isEmpty then some ⟨label, none⟩ else none
  | .broken => none

end Shading
