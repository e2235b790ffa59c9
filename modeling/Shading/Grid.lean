import Shading.NameMap
import Shading.Text.Table
import Shading.Value

namespace Shading

/-!
# Grids

A grid is a rectangle of shading points with values bound to names.  A varying value that is bound
has one element for each point, a uniform value has one.

* `Grid.insert` — binds a value if its size is right.
* `Grid.table` — one row for each point, one column for each name.
-/

inductive GridError
  | sizeMismatch (name : String) (expected actual : Nat)
  deriving DecidableEq, Repr

def GridError.message : GridError → String
  | .sizeMismatch name expected actual =>
    s!"value `{name}` has {actual} elements but the grid requires {expected}"

structure Grid where
  width : Nat
  height : Nat
  values : NameMap Value
  deriving Repr

namespace Grid

/-- A grid with nothing bound. -/
def new (width height : Nat) : Grid := ⟨width, height, NameMap.empty⟩

/-- Points in a single row. -/
def ofPoints (points : Nat) : Grid := new points 1

instance : Inhabited Grid := ⟨new 0 0⟩

/-- Changes the dimensions; every value is unbound. -/
def resize (_grid : Grid) (width height : Nat) : Grid := new width height

variable (grid : Grid) (name : String)

def points : Except Fault Nat := countPoints grid.width grid.height

/-- The value bound to `name`. -/
def value? : Option Value := grid.values.find? name

def contains : Bool := grid.values.contains name

/-- The bound names in order. -/
def names : List String := grid.values.names

/-- Binds a value, over any value bound before. -/
def bind (value : Value) : Grid := { grid with values := grid.values.insert name value }

/-- Binds a varying value of zeros. -/
def addVarying (type : ElementType) : Except Fault Grid := do
  return grid.bind name (← Value.allocate type .varying (← grid.points))

/-- Binds a uniform value of zeros. -/
def addUniform (type : ElementType) : Grid :=
  grid.bind name (Value.zeros type .uniform 1)

/-- Binds a value whose size suits the grid. -/
def insert (value : Value) : Except (Failure GridError) Grid := do
  let expected := value.storage.size (← grid.points)
  if value.size = expected then
    return grid.bind name value
  else
    throw (.error (.sizeMismatch name expected value.size))

/-- Unbinds `name`. -/
def erase : Grid := { grid with values := grid.values.erase name }

/-! ### Grids as text -/

/-- What the table shows for point `i` of a value: nothing if the value has no elements. -/
def cell (value : Value) (i : Nat) : Except Fault Cell := do
  Cell.ofText (← if value.isEmpty then pure "" else value.cellText i) .left

/-- The row of point `i`: its column and row in the grid, then its element of each value. -/
def row (i : Nat) : Except Fault (List Cell) := do
  let width := max grid.width 1
  let place ← Cell.ofText s!"({i % width}, {i / width})" .left
  let cells ← grid.values.entries.mapM fun (_, value) => cell value i
  return place :: cells

def table : Except Fault Table := do
  let titles ← ("Point" :: grid.names).mapM fun name => Cell.ofText name .left
  let rows ← tabulate (← grid.points) grid.row
  return { titles := some titles, rows := rows.toList }

def display : Except Fault String := do
  return s!"Grid {grid.width}x{grid.height}\n" ++ (← grid.table).text

end Grid

end Shading
