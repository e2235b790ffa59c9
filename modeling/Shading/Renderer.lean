import Shading.Scene
import Shading.Symbol

namespace Shading

/-!
# Renderers

A renderer shows a running shader its scene, and evaluates other shaders on the running one's
symbols.  It may keep a state of its own, of type `σ`, from one evaluation to the next.
-/

/-- The symbols of a running shader, by name. -/
structure Bindings where
  table : SymbolTable
  values : Array Value

namespace Bindings

variable (bindings : Bindings) (name : String)

def value? : Option Value := do
  bindings.values[← bindings.table.slot? name]?

/-- Changes the value of the symbol called `name`, if there is one. -/
def modify (change : Value → Value) : Bindings :=
  match bindings.table.slot? name with
  | some slot => { bindings with values := bindings.values.modify slot change }
  | none => bindings

end Bindings

structure Renderer (σ : Type) where
  scene : Scene
  /-- Evaluates the shader of the given name against the running shader's symbols. -/
  evaluate : String → Bindings → σ → Bindings × σ

/-- A renderer that knows no shader to evaluate. -/
def Renderer.ofScene (scene : Scene) : Renderer Unit where
  scene := scene
  evaluate := fun _ bindings state => (bindings, state)

end Shading
