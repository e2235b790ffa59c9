import Shading.Symbol

namespace Shading

/-!
# Shaders

A compiled shader: code words with the constants and symbols they address.
-/

inductive ShaderKind
  | surface
  | light
  | volume
  | displacement
  | imager
  deriving DecidableEq, Repr

instance : Vocabulary ShaderKind where
  words := [.surface, .light, .volume, .displacement, .imager]
  name
    | .surface => "surface"
    | .light => "light"
    | .volume => "volume"
    | .displacement => "displacement"
    | .imager => "imager"

structure Shader where
  kind : ShaderKind
  name : String
  code : Array Word
  constants : Array Value
  symbols : SymbolTable
  /-- How many temporaries the code addresses. -/
  temporaries : Nat
  deriving Repr

namespace Shader

/-- A shader without code. -/
def new (kind : ShaderKind) (name : String) : Shader where
  kind := kind
  name := name
  code := #[]
  constants := #[]
  symbols := SymbolTable.empty
  temporaries := 0

instance : Inhabited Shader := ⟨new .surface "main"⟩

end Shader

end Shading
