import Shading.Geometry
import Shading.NameMap

namespace Shading

/-!
# Scenes

What a shader can ask about the world around the grid: the coordinate systems it may change to,
where a point lands on the raster, and which way the geometry is wound.

* `Scene.still` — a scene in which every space is the current one.
* `SpaceTable.scene` — a scene given by a table of named spaces.
-/

structure Scene where
  /-- From the current space to the named one. -/
  toSpace : String → Mat4
  /-- From the named space to the current one. -/
  fromSpace : String → Mat4
  /-- From one named space to another. -/
  between : String → String → Mat4 := fun source target => toSpace target * fromSpace source
  /-- From a point of the current space to raster space. -/
  raster : Vec3 → Vec3
  leftHanded : Bool

/-- Every space is the current space. -/
def Scene.still : Scene where
  toSpace := fun _ => Mat4.identity
  fromSpace := fun _ => Mat4.identity
  raster := id
  leftHanded := false

/-- Named spaces, each by the matrix from the current space to it. -/
structure SpaceTable where
  spaces : NameMap Mat4
  /-- From the current space to raster space. -/
  projection : Mat4
  leftHanded : Bool

namespace SpaceTable

/-- The table that knows the current space only. -/
def new : SpaceTable where
  spaces := NameMap.empty.insert "current" Mat4.identity
  projection := Mat4.identity
  leftHanded := false

variable (table : SpaceTable)

def withSpace (name : String) (toSpace : Mat4) : SpaceTable :=
  { table with spaces := table.spaces.insert name toSpace }

/-- The matrix to the space called `name`; an unknown space is taken for the current one. -/
def space (name : String) : Mat4 := (table.spaces.find? name).getD Mat4.identity

def scene : Scene where
  toSpace := table.space
  fromSpace := fun name => (table.space name).inverse
  raster := table.projection.project
  leftHanded := table.leftHanded

end SpaceTable

end Shading
