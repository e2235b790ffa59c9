import Shading.Builtin.Setting

namespace Shading

/-!
# Builtins on vectors

Components, lengths and directions, and the rays that a surface reflects and lets through.
-/

/-! ### At one point -/

namespace Vec3

def get (v : Vec3) : Axis → Float32
  | .x => v.x
  | .y => v.y
  | .z => v.z

def set (v : Vec3) (axis : Axis) (s : Float32) : Vec3 :=
  match axis with
  | .x => { v with x := s }
  | .y => { v with y := s }
  | .z => { v with z := s }

/-- The direction of `v`; a zero vector has none and is left as it is. -/
def direction (v : Vec3) : Vec3 := if v.length > 0 then v.divide v.length else v

/-- `n`, or its opposite where `reference` points along `incident`. -/
def facing (n incident reference : Vec3) : Vec3 :=
  if (-incident).dot reference < 0 then -n else n

def reflected (incident n : Vec3) : Vec3 := incident - scale (2 * incident.dot n) n

/-- The ray that goes on through a surface; zero where all light is reflected. -/
def refracted (incident n : Vec3) (eta : Float32) : Vec3 :=
  let cosine := incident.dot n
  let k := 1 - eta * eta * (1 - cosine * cosine)
  if k > 0 then scale eta incident - scale (eta * cosine + k.sqrt) n else zero

end Vec3

/-- How much light a surface reflects and how much it lets through, for unpolarized light and the
    relative index of refraction `eta`.  Below one all light is reflected. -/
def fresnelCoefficients (incident normal : Vec3) (eta : Float32) : Float32 × Float32 :=
  if eta < 1 then
    (1, 0)
  else
    let c :=
      if incident.length > 0 && normal.length > 0 then
        (incident.normalize.dot normal.normalize).abs
      else
        0
    let square := eta * eta + c * c - 1
    let g := (if square > 0 then square else 0).sqrt
    let m := g - c
    let n := g + c
    -- the distance from one to the next float
    if n.abs < Float32.ofBits 0x34000000 then
      (1, 0)
    else
      let o := c * n - 1
      let p := c * m + 1
      let ratio := 0.5 * (m * m) / (n * n) * (1 + o * o / (p * p))
      let kr := if ratio < 1 then ratio else 1
      (kr, 1 - kr)

/-! ### Over a grid -/

namespace Setting

variable (setting : Setting) (arguments : Array Value)

def component (axis : Axis) : Except Fault Value := do
  let p ← fetch arguments 0
  requireTriple "a component accessor" p
  setting.floats p.storage fun i => return (← p.vec3 i).get axis

/-- Writes one component of the first argument at the active points. -/
def setComponent (axis : Axis) : Except Fault (Array Value) := do
  let p ← fetch arguments 0
  let x ← fetch arguments 1
  requireTriple "a component setter" p
  if p.isUniform ∧ x.isVarying then
    throw (.varyingComponent p.type)
  let written ← forPlaces p.size p fun i p => do
    let active ← if p.isVarying then setting.isActive i else pure true
    if active then p.setVec3 i ((← p.vec3 i).set axis (← x.float i)) else return p
  store arguments 0 written

def length : Except Fault Value := do
  let x ← fetch arguments 0
  requireTriple "length" x
  setting.floats x.storage fun i => return (← x.vec3 i).length

def normalize : Except Fault Value := do
  let n ← fetch arguments 0
  requireTriple "normalize" n
  setting.triples n.type n.storage fun i => return (← n.vec3 i).direction

def distance : Except Fault Value := do
  let p ← fetch arguments 0
  let q ← fetch arguments 1
  requireTriple "distance" p
  requireTriple "distance" q
  setting.floats (widestOf [p, q]) fun i => return ((← q.vec3 i) - (← p.vec3 i)).length

/-- The first argument flipped against the second; a third one says which way it faces, else it does
    so itself. -/
def faceforward : Except Fault Value := do
  let n ← fetch arguments 0
  let incident ← fetch arguments 1
  let reference := arguments[2]?.getD n
  requireTriple "faceforward" n
  requireTriple "faceforward" incident
  requireTriple "faceforward" reference
  setting.triples n.type (widestOf [n, incident, reference]) fun i => do
    return (← n.vec3 i).facing (← incident.vec3 i) (← reference.vec3 i)

def reflect : Except Fault Value := do
  let incident ← fetch arguments 0
  let n ← fetch arguments 1
  requireTriple "reflect" incident
  requireTriple "reflect" n
  setting.triples .vector (widestOf [incident, n]) fun i => do
    return (← incident.vec3 i).reflected (← n.vec3 i)

def refract : Except Fault Value := do
  let incident ← fetch arguments 0
  let n ← fetch arguments 1
  let eta ← fetch arguments 2
  requireTriple "refract" incident
  requireTriple "refract" n
  setting.triples .vector (widestOf [incident, n, eta]) fun i => do
    return (← incident.vec3 i).refracted (← n.vec3 i) (← eta.float i)

/-- Writes the share of light reflected and the share let through into the last two arguments at the
    active points.  They become varying floats if they are not. -/
def fresnel : Except Fault (Array Value) := do
  let incident ← fetch arguments 0
  let n ← fetch arguments 1
  let eta ← fetch arguments 2
  requireTriple "fresnel" incident
  requireTriple "fresnel" n
  let points := setting.points
  let kr ← (← fetch arguments 3).ensure .float .varying points
  let kt ← (← fetch arguments 4).ensure .float .varying points
  let (kr, kt) ← forPlaces points (kr, kt) fun i (kr, kt) => do
    if ← setting.isActive i then
      let (reflected, transmitted) :=
        fresnelCoefficients (← incident.vec3 i) (← n.vec3 i) (← eta.float i)
      return (← kr.setFloat i reflected, ← kt.setFloat i transmitted)
    else
      return (kr, kt)
  store (← store arguments 3 kr) 4 kt

end Setting

end Shading
