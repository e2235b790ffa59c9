namespace Shading

/-!
# Vectors and matrices

Single precision vectors of three and four components and 4 by 4 matrices, kept by columns.  Every
sum and product is rounded, so each formula fixes the order of its operations.

* `Vec3.dot`, `Vec3.cross`, `Vec3.length` — the usual products and the length.
* `Mat4.apply`, `Mat4.product` — a matrix acting on a vector and on the columns of another matrix.
* `Mat4.point`, `Mat4.direction`, `Mat4.project` — a matrix acting on a triple as a point, as a
  direction, and as a point with perspective.
* `Mat4.inverse` — by cofactors; nothing is special about a singular matrix.
* `Mat4.rotation` — about an axis through the origin.
-/

/-! ### Three components -/

structure Vec3 where
  x : Float32
  y : Float32
  z : Float32
  deriving Inhabited, Repr

namespace Vec3

def zero : Vec3 := ⟨0, 0, 0⟩

def splat (s : Float32) : Vec3 := ⟨s, s, s⟩

def neg (v : Vec3) : Vec3 := ⟨-v.x, -v.y, -v.z⟩

def add (v w : Vec3) : Vec3 := ⟨v.x + w.x, v.y + w.y, v.z + w.z⟩

def sub (v w : Vec3) : Vec3 := ⟨v.x - w.x, v.y - w.y, v.z - w.z⟩

def scale (s : Float32) (v : Vec3) : Vec3 := ⟨s * v.x, s * v.y, s * v.z⟩

def divide (v : Vec3) (s : Float32) : Vec3 := ⟨v.x / s, v.y / s, v.z / s⟩

instance : Neg Vec3 := ⟨neg⟩

instance : Add Vec3 := ⟨add⟩

instance : Sub Vec3 := ⟨sub⟩

def dot (v w : Vec3) : Float32 := v.x * w.x + v.y * w.y + v.z * w.z

def cross (v w : Vec3) : Vec3 :=
  ⟨v.y * w.z - w.y * v.z, v.z * w.x - w.z * v.x, v.x * w.y - w.x * v.y⟩

def length (v : Vec3) : Float32 := (v.dot v).sqrt

/-- The vector of length one in the same direction. -/
def normalize (v : Vec3) : Vec3 := scale (1 / v.length) v

/-- The same, but zero if the length is zero or has no finite reciprocal. -/
def normalizeOrZero (v : Vec3) : Vec3 :=
  let reciprocal := 1 / v.length
  if reciprocal.isFinite && reciprocal > 0 then scale reciprocal v else zero

end Vec3

/-! ### Four components -/

structure Vec4 where
  x : Float32
  y : Float32
  z : Float32
  w : Float32
  deriving Inhabited, Repr

namespace Vec4

def add (v w : Vec4) : Vec4 := ⟨v.x + w.x, v.y + w.y, v.z + w.z, v.w + w.w⟩

def sub (v w : Vec4) : Vec4 := ⟨v.x - w.x, v.y - w.y, v.z - w.z, v.w - w.w⟩

def mul (v w : Vec4) : Vec4 := ⟨v.x * w.x, v.y * w.y, v.z * w.z, v.w * w.w⟩

def scale (v : Vec4) (s : Float32) : Vec4 := ⟨v.x * s, v.y * s, v.z * s, v.w * s⟩

instance : Add Vec4 := ⟨add⟩

instance : Sub Vec4 := ⟨sub⟩

instance : Mul Vec4 := ⟨mul⟩

/-- The first three components. -/
def triple (v : Vec4) : Vec3 := ⟨v.x, v.y, v.z⟩

end Vec4

/-! ### Matrices -/

/-- A matrix of four columns. -/
structure Mat4 where
  a : Vec4
  b : Vec4
  c : Vec4
  d : Vec4
  deriving Inhabited, Repr

namespace Mat4

def identity : Mat4 := ⟨⟨1, 0, 0, 0⟩, ⟨0, 1, 0, 0⟩, ⟨0, 0, 1, 0⟩, ⟨0, 0, 0, 1⟩⟩

/-- The sixteen components, column after column. -/
def toList (m : Mat4) : List Float32 :=
  [m.a.x, m.a.y, m.a.z, m.a.w, m.b.x, m.b.y, m.b.z, m.b.w,
   m.c.x, m.c.y, m.c.z, m.c.w, m.d.x, m.d.y, m.d.z, m.d.w]

/-- The matrix whose component at place `i`, column after column, is `f i`. -/
def ofFn (f : Nat → Float32) : Mat4 :=
  ⟨⟨f 0, f 1, f 2, f 3⟩, ⟨f 4, f 5, f 6, f 7⟩, ⟨f 8, f 9, f 10, f 11⟩, ⟨f 12, f 13, f 14, f 15⟩⟩

def transpose (m : Mat4) : Mat4 :=
  ⟨⟨m.a.x, m.b.x, m.c.x, m.d.x⟩, ⟨m.a.y, m.b.y, m.c.y, m.d.y⟩,
   ⟨m.a.z, m.b.z, m.c.z, m.d.z⟩, ⟨m.a.w, m.b.w, m.c.w, m.d.w⟩⟩

def apply (m : Mat4) (v : Vec4) : Vec4 :=
  m.a.scale v.x + m.b.scale v.y + m.c.scale v.z + m.d.scale v.w

/-- The matrix that acts as `n`, then as `m`. -/
def product (m n : Mat4) : Mat4 := ⟨m.apply n.a, m.apply n.b, m.apply n.c, m.apply n.d⟩

instance : Mul Mat4 := ⟨product⟩

/-- A point moved by the matrix, before any perspective. -/
def homogeneous (m : Mat4) (p : Vec3) : Vec4 :=
  m.a.scale p.x + m.b.scale p.y + m.c.scale p.z + m.d

/-- A point moved by the matrix, its fourth component dropped. -/
def point (m : Mat4) (p : Vec3) : Vec3 := (m.homogeneous p).triple

/-- A direction moved by the matrix. -/
def direction (m : Mat4) (v : Vec3) : Vec3 :=
  (m.a.scale v.x + m.b.scale v.y + m.c.scale v.z).triple

/-- A point moved by the matrix and divided by its fourth component. -/
def project (m : Mat4) (p : Vec3) : Vec3 :=
  let q := m.homogeneous p
  (q.scale (1 / q.w)).triple

def inverse (m : Mat4) : Mat4 :=
  let ⟨a, b, c, d⟩ := m
  -- two by two determinants of rows `p` and `q`, over three pairs of the last columns
  let minors (p q : Vec4 → Float32) : Vec4 :=
    let cd := p c * q d - p d * q c
    ⟨cd, cd, p b * q d - p d * q b, p b * q c - p c * q b⟩
  let lane (p : Vec4 → Float32) : Vec4 := ⟨p b, p a, p a, p a⟩
  let zw := minors (·.z) (·.w)
  let yw := minors (·.y) (·.w)
  let yz := minors (·.y) (·.z)
  let xw := minors (·.x) (·.w)
  let xz := minors (·.x) (·.z)
  let xy := minors (·.x) (·.y)
  let minus : Vec4 := ⟨-1, 1, -1, 1⟩
  let plus : Vec4 := ⟨1, -1, 1, -1⟩
  let i := plus * (lane (·.y) * zw - lane (·.z) * yw + lane (·.w) * yz)
  let j := minus * (lane (·.x) * zw - lane (·.z) * xw + lane (·.w) * xz)
  let k := plus * (lane (·.x) * yw - lane (·.y) * xw + lane (·.w) * xy)
  let l := minus * (lane (·.x) * yz - lane (·.y) * xz + lane (·.z) * xy)
  let determinant := (a.x * i.x + a.z * k.x) + (a.y * j.x + a.w * l.x)
  let r := 1 / determinant
  ⟨i.scale r, j.scale r, k.scale r, l.scale r⟩

/-- The rotation by `angle` radians about a unit vector. -/
def rotation (axis : Vec3) (angle : Float32) : Mat4 :=
  let ⟨x, y, z⟩ := axis
  let s := angle.sin
  let c := angle.cos
  let o := 1 - c
  let xy := x * y * o
  let xz := x * z * o
  let yz := y * z * o
  ⟨⟨x * x * o + c, xy + z * s, xz - y * s, 0⟩,
   ⟨xy - z * s, y * y * o + c, yz + x * s, 0⟩,
   ⟨xz + y * s, yz - x * s, z * z * o + c, 0⟩,
   ⟨0, 0, 0, 1⟩⟩

end Mat4

end Shading
