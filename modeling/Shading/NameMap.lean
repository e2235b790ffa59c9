namespace Shading

/-!
# Maps from names

A finite map from names, kept as a list in the order of the names, each name at most once.
-/

structure NameMap (α : Type) where
  entries : List (String × α)
  deriving Repr

namespace NameMap

variable {α : Type}

def empty : NameMap α := ⟨[]⟩

instance : Inhabited (NameMap α) := ⟨empty⟩

/-- The entry of `name` in a list of entries. -/
def findIn (name : String) : List (String × α) → Option α
  | [] => none
  | (key, value) :: rest => if key = name then some value else findIn name rest

/-- Puts an entry in its place, over one of the same name. -/
def insertIn (name : String) (value : α) : List (String × α) → List (String × α)
  | [] => [(name, value)]
  | (key, old) :: rest =>
    if key = name then (name, value) :: rest
    else if name < key then (name, value) :: (key, old) :: rest
    else (key, old) :: insertIn name value rest

variable (map : NameMap α) (name : String)

def find? : Option α := findIn name map.entries

def contains : Bool := (map.find? name).isSome

def insert (value : α) : NameMap α := ⟨insertIn name value map.entries⟩

def erase : NameMap α := ⟨map.entries.filter fun entry => entry.1 != name⟩

/-- The names in their order, which is that of their code points. -/
def names : List String := map.entries.map Prod.fst

end NameMap

end Shading
