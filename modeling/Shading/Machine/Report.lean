import Shading.Machine.State
import Shading.Text.Table

namespace Shading

/-!
# Machines as text

The state of a machine: a line with its offset and masks, then a table of its symbols beside a table
of its temporaries.
-/

/-- A table of registers, each with its address. -/
def registerTable (title : String) (address : Nat → Address) (values : Array Value) :
    Except Fault Table := do
  let titles := [← Cell.ofText title .right, ← Cell.ofText "Contents" .left]
  let rows ← values.toList.zipIdx.mapM fun (value, i) =>
    return [← Cell.ofText (address i).text .right, ← Cell.ofText value.display .left]
  return ⟨some titles, rows⟩

def Machine.display {σ : Type} (machine : Machine σ) : Except Fault String := do
  let symbols ← registerTable "Symbol" .symbol machine.registers.symbols
  let temporaries ← registerTable "Temporary" .temporary machine.registers.temporaries
  let both := [← Cell.ofText symbols.text .left, ← Cell.ofText temporaries.text .left]
  let active ← machine.masks.activePoints
  let table : Table := ⟨none, [both]⟩
  return s!"ip = {machine.ip}, mask depth = {machine.masks.depth}, active points = {active}\n" ++
    table.text

end Shading
