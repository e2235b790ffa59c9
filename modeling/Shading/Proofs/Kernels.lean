import Shading.Builtin.Vector
import Shading.Machine.Registers
import Shading.Proofs.Loops

namespace Shading

/-!
# What masked writes do to a buffer

Four loops of the machine write into a buffer that holds something already: assignments, the merging
of a result into a varying symbol, and the builtins that write their arguments.  For each of them the
buffer afterwards is the one before with the floats of the active points rewritten.

* `isActiveAt` — whether a mask, or the absence of one, lets a point be written;
* `Update.run_eq_ok`, `Registers.merge_eq_ok` — assignments and merged results;
* `Setting.setComponent_eq_ok`, `Setting.fresnel_eq_ok` — the builtins.
-/

/-- A point is active where its mask says so, and everywhere if there is no mask. -/
def isActiveAt (mask : Option Mask) (i : Nat) : Bool :=
  match mask with
  | some mask => mask.getD i false
  | none => true

@[simp] theorem isActiveAt_none (i : Nat) : isActiveAt none i = true := rfl

@[simp] theorem isActiveAt_some (mask : Mask) (i : Nat) :
    isActiveAt (some mask) i = mask.getD i false := rfl

theorem getD_of_getElem? {α : Type} {xs : Array α} {i : Nat} {x : α} (h : xs[i]? = some x) (y : α) :
    xs.getD i y = x := by
  rw [Array.getD_eq_getD_getElem?, h, Option.getD_some]

theorem Storage.uniform_or_varying (storage : Storage) :
    storage = .uniform ∨ storage = .varying := by
  cases storage <;> simp

/-! ### Fresh values -/

namespace Value

variable {value out : Value} {type : ElementType} {storage : Storage} {size : Nat}

theorem allocate_eq_ok : allocate type storage size = .ok out ↔
    4 * (type.components * size) < 0x8000000000000000 ∧ out = zeros type storage size := by
  unfold allocate
  simp only [bind_eq_ok, requireRoom_eq_ok, pure_eq_ok]
  constructor
  · rintro ⟨-, hroom, rfl⟩
    exact ⟨hroom, rfl⟩
  · rintro ⟨hroom, rfl⟩
    exact ⟨(), hroom, rfl⟩

theorem setFloat_eq_ok {i : Nat} {x : Float32} (h : value.storage = .varying) :
    value.setFloat i x = .ok out ↔
      i < value.floats.size ∧ out = { value with floats := value.floats.setIfInBounds i x } := by
  unfold setFloat
  have helement : value.storage.element i = i := by rw [h]; rfl
  simp only [bind_eq_ok, store_eq_ok, pure_eq_ok, helement]
  constructor
  · rintro ⟨floats, ⟨hlt, rfl⟩, rfl⟩
    exact ⟨hlt, rfl⟩
  · rintro ⟨hlt, rfl⟩
    exact ⟨_, ⟨hlt, rfl⟩, rfl⟩

theorem fits_iff : value.fits type storage size = true ↔
    value.type = type ∧ value.storage = storage ∧ value.size = size := by
  unfold fits
  simp [and_assoc]

/-- A value that was made to fit does. -/
theorem fits_of_ensure (h : value.ensure type storage size = .ok out) :
    out.fits type storage size = true := by
  unfold ensure at h
  by_cases hfits : value.fits type storage size
  · rw [if_pos hfits] at h
    exact Except.ok.inj h ▸ hfits
  · rw [if_neg hfits, reset, allocate_eq_ok] at h
    rw [h.2, fits_iff]
    exact ⟨rfl, rfl, rfl⟩

end Value

theorem Width.ofCount?_eq_some {n : Nat} {width : Width} :
    Width.ofCount? n = some width ↔ width.count = n := by
  constructor
  · intro h
    unfold Width.ofCount? at h
    split at h <;> cases h <;> rfl
  · rintro rfl
    cases width <;> rfl

/-- The shape of a value tells its storage and the floats in one of its elements. -/
theorem Value.shape?_eq_some {value : Value} {shape : Shape} :
    value.shape? = some shape ↔
      shape.storage = value.storage ∧ shape.width.count = value.components := by
  obtain ⟨storage, width⟩ := shape
  unfold Value.shape?
  simp only [Option.map_eq_some_iff, Width.ofCount?_eq_some, Shape.mk.injEq]
  constructor
  · rintro ⟨_, hwidth, rfl, rfl⟩
    exact ⟨rfl, hwidth⟩
  · rintro ⟨rfl, hwidth⟩
    exact ⟨width, hwidth, rfl, rfl⟩

theorem Value.components_of_isTriple {value : Value} (h : value.type.isTriple = true) :
    value.components = 3 :=
  beq_iff_eq.mp h

theorem Value.components_of_float {value : Value} (h : value.type = .float) :
    value.components = 1 := by
  rw [Value.components, h]
  rfl

/-! ### Blocks of a buffer -/

theorem div_eq_iff_block {k w e : Nat} (hw : 0 < w) : k / w = e ↔ e * w ≤ k ∧ k < e * w + w := by
  rw [Nat.div_eq_iff hw]
  constructor
  · intro h
    omega
  · intro h
    omega

theorem block_div {w e c : Nat} (hc : c < w) : (e * w + c) / w = e := by
  rw [div_eq_iff_block (by omega)]
  omega

theorem block_mod {w e c : Nat} (hc : c < w) : (e * w + c) % w = c := by
  rw [Nat.mul_comm, Nat.mul_add_mod, Nat.mod_eq_of_lt hc]

theorem block_le {w e n : Nat} (he : e < n) : e * w + w ≤ w * n := by
  rw [← Nat.succ_mul, Nat.mul_comm]
  exact Nat.mul_le_mul_left _ he

/-- A loop over the components of element `e`, each step at the place of its component. -/
theorem forPlaces_block {α : Type} {w e : Nat} (hw : 0 < w) {xs ys : Array α}
    {step : Nat → Array α → Except Fault (Array α)} (ready : Nat → Prop) (new : Nat → α → α)
    (hstep : ∀ c < w, ∀ zs ws : Array α, zs.size = xs.size →
      (step c zs = .ok ws ↔ ready c ∧ ws = rewriteAt (fun k => k = e * w + c) new zs)) :
    forPlaces w xs step = .ok ys ↔
      (∀ c < w, ready c) ∧ ys = rewriteAt (fun k => k / w = e) new xs := by
  rw [forPlaces_eq_ok (fun k => if e * w ≤ k then k - e * w else w) ready new]
  · have hblock : rewriteAt (fun k => (if e * w ≤ k then k - e * w else w) < w) new xs
        = rewriteAt (fun k => k / w = e) new xs := by
      refine congrArg (fun chosen => rewriteAt chosen new xs) (funext fun k => ?_)
      rw [decide_eq_decide, div_eq_iff_block hw]
      split <;> omega
    rw [hblock]
  · intro c hc zs ws hsize
    have hplace : rewriteAt (fun k => (if e * w ≤ k then k - e * w else w) = c) new zs
        = rewriteAt (fun k => k = e * w + c) new zs := by
      refine congrArg (fun chosen => rewriteAt chosen new zs) (funext fun k => ?_)
      rw [decide_eq_decide]
      split <;> omega
    rw [hplace]
    exact hstep c hc zs ws hsize

/-- **Masked loops.**  A loop over elements of `w` floats that leaves out the inactive ones rewrites
    the floats of the active ones. -/
theorem forPlaces_masked {α : Type} {w n : Nat} {xs ys : Array α}
    {asks : Nat → Except Fault Bool} {step : Nat → Array α → Except Fault (Array α)}
    (active : Nat → Bool) (ready : Nat → Prop) (new : Nat → α → α)
    (hasks : ∀ e b, asks e = .ok b → b = active e)
    (hstep : ∀ e < n, ∀ zs ws : Array α, zs.size = xs.size →
      (step e zs = .ok ws ↔ ready e ∧ ws = rewriteAt (fun k => k / w = e) new zs)) :
    forPlaces n xs (fun e zs => do if ← asks e then step e zs else return zs) = .ok ys ↔
      (∀ e < n, ∃ b, asks e = .ok b ∧ (b = true → ready e)) ∧
        ys = rewriteAt (fun k => k / w < n && active (k / w)) new xs := by
  have hsplit : ∀ (chosen : Nat → Bool) (zs : Array α),
      rewriteAt chosen (fun k x => if active (k / w) then new k x else x) zs
        = rewriteAt (fun k => chosen k && active (k / w)) new zs := by
    intro chosen zs
    refine rewriteAt_congr fun k x _ => ?_
    by_cases hc : chosen k <;> by_cases ha : active (k / w) <;> simp [hc, ha]
  rw [← hsplit]
  refine forPlaces_eq_ok (fun k => k / w) _ _ fun e he zs ws hsize => ?_
  rw [bind_eq_ok, hsplit]
  have hactive : active e = true → rewriteAt (fun k => (k / w = e : Bool) && active (k / w)) new zs
      = rewriteAt (fun k => k / w = e) new zs := by
    intro ha
    refine rewriteAt_congr fun k x _ => ?_
    by_cases hk : k / w = e <;> simp [hk, ha]
  have hinactive : active e = false →
      rewriteAt (fun k => (k / w = e : Bool) && active (k / w)) new zs = zs := by
    intro ha
    refine rewriteAt_eq_self fun k => ?_
    by_cases hk : k / w = e <;> simp [hk, ha]
  constructor
  · rintro ⟨b, hb, hrun⟩
    have ha := hasks e b hb
    cases b with
    | true =>
      obtain ⟨hready, rfl⟩ := (hstep e he zs ws hsize).mp hrun
      exact ⟨⟨true, hb, fun _ => hready⟩, (hactive ha.symm).symm⟩
    | false =>
      obtain rfl := pure_eq_ok.mp hrun
      exact ⟨⟨false, hb, by simp⟩, (hinactive ha.symm).symm⟩
  · rintro ⟨⟨b, hb, hready⟩, rfl⟩
    have ha := hasks e b hb
    refine ⟨b, hb, ?_⟩
    cases b with
    | true => exact (hstep e he zs _ hsize).mpr ⟨hready rfl, hactive ha.symm⟩
    | false => exact pure_eq_ok.mpr (hinactive ha.symm).symm

/-! ### Assignments -/

namespace Update

variable {update : Update}

/-- Whether element `i` of the destination is written, for an `i` that the mask covers. -/
def isWritten (update : Update) (mask : Option Mask) (i : Nat) : Bool :=
  match update.destination.storage with
  | .uniform => true
  | .varying => isActiveAt mask i

theorem writes_eq_ok {mask : Option Mask} {i : Nat} {b : Bool} (h : update.writes mask i = .ok b) :
    b = update.isWritten mask i := by
  unfold writes at h
  unfold isWritten
  cases hstorage : update.destination.storage with
  | uniform =>
    rw [hstorage] at h
    exact (Except.ok.inj h).symm
  | varying =>
    rw [hstorage] at h
    cases mask with
    | none => exact (Except.ok.inj h).symm
    | some mask =>
      rw [fetch_eq_ok] at h
      rw [isActiveAt_some, getD_of_getElem? h]

theorem width_pos (width : Width) : 0 < width.count := by
  cases width <;> decide

/-- The float that an assignment writes at place `k` of its destination over the float `old`. -/
def written (update : Update) (source : Buffer) (k : Nat) (old : Float32) : Float32 :=
  let width := update.destination.width.count
  update.operator.apply old (source.getD (update.source.place (k / width) (k % width)) old)

/-- The buffers reach as far as element `e` does. -/
def Covers (update : Update) (destination source : Buffer) (e : Nat) : Prop :=
  ∀ c < update.destination.width.count,
    e * update.destination.width.count + c < destination.size ∧ update.source.place e c < source.size

theorem writeElement_eq_ok {source destination out : Buffer} {e : Nat} :
    update.writeElement source e destination = .ok out ↔
      update.Covers destination source e ∧
      out = rewriteAt (fun k => k / update.destination.width.count = e) (update.written source)
        destination := by
  unfold writeElement Covers
  refine forPlaces_block (width_pos _) _ _ fun c hc zs ws hsize => ?_
  simp only [bind_eq_ok, fetch_eq_ok, store_eq_ok]
  constructor
  · rintro ⟨old, hold, new, hnew, hlt, rfl⟩
    refine ⟨⟨by omega, (Array.getElem?_eq_some_iff.mp hnew).1⟩, ?_⟩
    apply setIfInBounds_eq_rewriteAt
    intro x hx
    rw [written, block_div hc, block_mod hc, getD_of_getElem? hnew, Option.some.inj (hx.symm.trans hold)]
  · rintro ⟨⟨hlt, hplace⟩, rfl⟩
    refine ⟨_, Array.getElem?_eq_getElem (by omega), _, Array.getElem?_eq_getElem hplace,
      by omega, ?_⟩
    symm
    apply setIfInBounds_eq_rewriteAt
    intro x hx
    rw [Array.getElem?_eq_getElem (by omega)] at hx
    rw [written, block_div hc, block_mod hc, getD_of_getElem? (Array.getElem?_eq_getElem hplace),
      Option.some.inj hx]

/-- **Assignments.**  The loop succeeds exactly if the mask covers every element and the buffers reach
    as far as the written ones do; it then rewrites the floats of the written elements. -/
theorem run_eq_ok {destination source out : Buffer} {mask : Option Mask} {points : Nat} :
    update.run destination source mask points = .ok out ↔
      (∀ e < update.destination.storage.size points, ∃ b, update.writes mask e = .ok b ∧
        (b = true → update.Covers destination source e)) ∧
      out = rewriteAt (fun k => k / update.destination.width.count <
          update.destination.storage.size points &&
            update.isWritten mask (k / update.destination.width.count))
        (update.written source) destination := by
  unfold run
  refine forPlaces_masked _ _ _ (fun e b hb => writes_eq_ok hb) fun e he zs ws hsize => ?_
  rw [writeElement_eq_ok]
  unfold Covers
  rw [hsize]

end Update

/-! ### Merged results -/

namespace Registers

theorem mergeElement_eq_ok {width : Nat} (hw : 0 < width) {target value out : Buffer} {e : Nat} :
    (forPlaces width target fun c target => do
        store target (e * width + c) (← fetch value (e * width + c))) = .ok out ↔
      (∀ c < width, e * width + c < target.size ∧ e * width + c < value.size) ∧
      out = rewriteAt (fun k => k / width = e) (fun k old => value.getD k old) target := by
  refine forPlaces_block hw _ _ fun c hc zs ws hsize => ?_
  simp only [bind_eq_ok, fetch_eq_ok, store_eq_ok]
  constructor
  · rintro ⟨x, hx, hlt, rfl⟩
    refine ⟨⟨by omega, (Array.getElem?_eq_some_iff.mp hx).1⟩, ?_⟩
    exact setIfInBounds_eq_rewriteAt fun old _ => getD_of_getElem? hx old
  · rintro ⟨⟨hlt, hvalue⟩, rfl⟩
    have hx := Array.getElem?_eq_getElem hvalue
    refine ⟨_, hx, by omega, ?_⟩
    exact (setIfInBounds_eq_rewriteAt fun old _ => getD_of_getElem? hx old).symm

/-- **Merged results.**  Under a mask, the floats of the active elements are taken over. -/
theorem merge_eq_ok {mask : Mask} {width : Nat} (hw : 0 < width) {target value out : Buffer} :
    merge (some mask) width target value = .ok out ↔
      (∀ e < mask.size, isActiveAt (some mask) e = true →
        ∀ c < width, e * width + c < target.size ∧ e * width + c < value.size) ∧
      out = rewriteAt (fun k => k / width < mask.size && isActiveAt (some mask) (k / width))
        (fun k old => value.getD k old) target := by
  have hactive : ∀ e b, fetch mask e = .ok b → b = isActiveAt (some mask) e := by
    intro e b hb
    rw [isActiveAt_some, getD_of_getElem? (fetch_eq_ok.mp hb)]
  have hloop : merge (some mask) width target value = .ok out ↔
      (∀ e < mask.size, ∃ b, fetch mask e = .ok b ∧ (b = true →
        ∀ c < width, e * width + c < target.size ∧ e * width + c < value.size)) ∧
      out = rewriteAt (fun k => k / width < mask.size && isActiveAt (some mask) (k / width))
        (fun k old => value.getD k old) target := by
    refine forPlaces_masked _ _ _ hactive fun e he zs ws hsize => ?_
    rw [mergeElement_eq_ok hw, hsize]
  rw [hloop]
  refine and_congr_left fun _ => forall₂_congr fun e he => ?_
  -- the mask reaches as far as the loop goes
  have hb : fetch mask e = .ok mask[e] := by rw [fetch_eq_ok, Array.getElem?_eq_getElem he]
  rw [← hactive e _ hb]
  simp [hb]

theorem merge_none_eq_ok {width : Nat} {target value out : Buffer} :
    merge none width target value = .ok out ↔ target.size = value.size ∧ out = value := by
  rw [merge]
  by_cases h : target.size = value.size <;> simp [h, eq_comm]

@[simp] theorem merge_zero_width {mask : Mask} {target value : Buffer} :
    merge (some mask) 0 target value = .ok target := by
  refine forPlaces_eq_self fun i hi => ?_
  have hb : fetch mask i = .ok mask[i] := by rw [fetch_eq_ok, Array.getElem?_eq_getElem hi]
  rw [hb]
  cases mask[i] <;> rfl

end Registers

/-- Merging keeps the number of floats. -/
theorem Registers.size_merge {mask : Option Mask} {width : Nat} {target value out : Buffer}
    (h : Registers.merge mask width target value = .ok out) : out.size = target.size := by
  cases mask with
  | none =>
    obtain ⟨hsize, rfl⟩ := merge_none_eq_ok.mp h
    exact hsize.symm
  | some mask =>
    rcases Nat.eq_zero_or_pos width with rfl | hpos
    · rw [← Except.ok.inj (merge_zero_width.symm.trans h)]
    · obtain ⟨-, rfl⟩ := (merge_eq_ok hpos).mp h
      exact size_rewriteAt

/-! ### Components -/

/-- The place of a component in its triple. -/
def Axis.index : Axis → Nat
  | .x => 0
  | .y => 1
  | .z => 2

theorem Axis.index_lt (axis : Axis) : axis.index < 3 := by
  cases axis <;> decide

/-- Writing back a triple of which one component was changed changes that component alone. -/
theorem set_triple_eq {floats : Buffer} {base : Nat} {v : Vec3} (axis : Axis) (x : Float32)
    (hx : floats[base]? = some v.x) (hy : floats[base + 1]? = some v.y)
    (hz : floats[base + 2]? = some v.z) :
    ((floats.setIfInBounds base (v.set axis x).x).setIfInBounds (base + 1) (v.set axis x).y
      ).setIfInBounds (base + 2) (v.set axis x).z
      = floats.setIfInBounds (base + axis.index) x := by
  apply Array.ext_getElem?
  intro k
  simp only [Array.getElem?_setIfInBounds, Array.size_setIfInBounds]
  cases axis <;> simp only [Vec3.set, Axis.index] <;> grind

/-- Writing one component of the triple that point `i` reads. -/
theorem Value.setVec3_set_eq_ok {value out : Value} {i : Nat} (axis : Axis) (x : Float32) :
    (∃ v, value.vec3 i = .ok v ∧ value.setVec3 i (v.set axis x) = .ok out) ↔
      value.storage.element i * 3 + 2 < value.floats.size ∧
      out = { value with
        floats := value.floats.setIfInBounds (value.storage.element i * 3 + axis.index) x } := by
  unfold Value.setVec3 Value.vec3
  simp only [bind_eq_ok, fetch_eq_ok, store_eq_ok, pure_eq_ok]
  constructor
  · rintro ⟨v, ⟨a, ha, b, hb, c, hc, rfl⟩, f, ⟨h0, rfl⟩, g, ⟨h1, rfl⟩, k, ⟨h2, rfl⟩, rfl⟩
    refine ⟨(Array.getElem?_eq_some_iff.mp hc).1, ?_⟩
    rw [← set_triple_eq (v := ⟨a, b, c⟩) axis x ha hb hc]
  · rintro ⟨hlt, rfl⟩
    have ha := Array.getElem?_eq_getElem (Nat.lt_of_le_of_lt (Nat.le_add_right _ 2) hlt)
    have hb := Array.getElem?_eq_getElem (Nat.lt_of_succ_lt hlt)
    have hc := Array.getElem?_eq_getElem hlt
    refine ⟨⟨_, _, _⟩, ⟨_, ha, _, hb, _, hc, rfl⟩, _, ⟨by omega, rfl⟩, _, ⟨?_, rfl⟩, _,
      ⟨?_, rfl⟩, ?_⟩
    · rw [Array.size_setIfInBounds]
      omega
    · rw [Array.size_setIfInBounds, Array.size_setIfInBounds]
      exact hlt
    · rw [set_triple_eq axis x ha hb hc]

namespace Setting

variable {setting : Setting}

theorem isActive_eq_ok {i : Nat} {b : Bool} (h : setting.isActive i = .ok b) :
    b = isActiveAt setting.mask i := by
  unfold isActive at h
  cases hmask : setting.mask with
  | none =>
    rw [hmask] at h
    exact (Except.ok.inj h).symm
  | some mask =>
    rw [hmask] at h
    rw [isActiveAt_some, getD_of_getElem? (fetch_eq_ok.mp h)]

/-- Whether the loop that writes a component of `p` writes it at point `i`. -/
def reaches (setting : Setting) (p : Value) (i : Nat) : Except Fault Bool :=
  if p.isVarying then setting.isActive i else .ok true

/-- One step of the loop that writes a component, on the floats alone. -/
def writeComponent (setting : Setting) (p x : Value) (axis : Axis) (i : Nat) (floats : Buffer) :
    Except Fault Buffer := do
  if ← setting.reaches p i then
    let y ← x.float i
    let base := p.storage.element i * 3
    discard (fetch floats (base + 2))
    return floats.setIfInBounds (base + axis.index) y
  else
    return floats

theorem requireTriple_eq_ok {user : String} {value : Value} {u : Unit} :
    requireTriple user value = .ok u ↔ value.type.isTriple = true := by
  unfold requireTriple
  by_cases h : value.type.isTriple <;> simp [h]

theorem setComponent_step {p x q : Value} {axis : Axis} {i : Nat} :
    (do
      let active ← if p.isVarying then setting.isActive i else pure true
      if active then p.setVec3 i ((← p.vec3 i).set axis (← x.float i)) else return p) = .ok q ↔
      ∃ floats, setting.writeComponent p x axis i p.floats = .ok floats ∧
        q = { p with floats := floats } := by
  have hreach : (do
        let active ← if p.isVarying then setting.isActive i else pure true
        if active then p.setVec3 i ((← p.vec3 i).set axis (← x.float i)) else return p) =
      (do
        let active ← setting.reaches p i
        if active then p.setVec3 i ((← p.vec3 i).set axis (← x.float i)) else return p) := by
    unfold reaches
    cases p.isVarying <;> rfl
  rw [hreach]
  unfold writeComponent
  simp only [bind_eq_ok]
  constructor
  · rintro ⟨active, hactive, hrun⟩
    cases active with
    | false =>
      obtain rfl := pure_eq_ok.mp hrun
      exact ⟨p.floats, ⟨false, hactive, rfl⟩, rfl⟩
    | true =>
      obtain ⟨v, hv, y, hy, hset⟩ : ∃ v, p.vec3 i = .ok v ∧ ∃ y, x.float i = .ok y ∧
          p.setVec3 i (v.set axis y) = .ok q := by simpa using hrun
      obtain ⟨hlt, rfl⟩ := (Value.setVec3_set_eq_ok axis y).mp ⟨v, hv, hset⟩
      refine ⟨_, ⟨true, hactive, ?_⟩, rfl⟩
      simp [hy, hlt]
  · rintro ⟨floats, ⟨active, hactive, hrun⟩, rfl⟩
    refine ⟨active, hactive, ?_⟩
    cases active with
    | false =>
      obtain rfl := pure_eq_ok.mp hrun
      rfl
    | true =>
      obtain ⟨y, hy, ⟨last, hlast⟩, rfl⟩ : ∃ y, x.float i = .ok y ∧
          (∃ last, p.floats[p.storage.element i * 3 + 2]? = some last) ∧
          p.floats.setIfInBounds (p.storage.element i * 3 + axis.index) y = floats := by
        simpa using hrun
      have hlt := (Array.getElem?_eq_some_iff.mp hlast).1
      obtain ⟨v, hv, hset⟩ := (Value.setVec3_set_eq_ok axis y).mpr ⟨hlt, rfl⟩
      simp [hv, hy, hset]

/-- **Components.**  The builtin replaces its first argument by one whose floats went through a
    loop. -/
theorem setComponent_eq_ok {arguments out : Array Value} {axis : Axis} :
    setting.setComponent arguments axis = .ok out ↔
      ∃ p x floats, arguments[0]? = some p ∧ arguments[1]? = some x ∧ p.type.isTriple = true ∧
        (p.isUniform = true → x.isVarying = false) ∧
        forPlaces p.size p.floats (setting.writeComponent p x axis) = .ok floats ∧
        out = arguments.setIfInBounds 0 { p with floats := floats } := by
  have hloop : ∀ p x q : Value,
      (forPlaces p.size p fun i p => do
        let active ← if p.isVarying then setting.isActive i else pure true
        if active then p.setVec3 i ((← p.vec3 i).set axis (← x.float i)) else return p) = .ok q ↔
      ∃ floats, forPlaces p.size p.floats (setting.writeComponent p x axis) = .ok floats ∧
        q = { p with floats := floats } := by
    intro p x q
    refine forPlaces_form (fun floats => { p with floats := floats }) fun i hi floats q => ?_
    exact setComponent_step
  unfold setComponent
  simp only [bind_eq_ok, fetch_eq_ok, requireTriple_eq_ok]
  constructor
  · rintro ⟨p, hp, x, hx, -, htriple, hrun⟩
    by_cases hstorage : p.isUniform = true ∧ x.isVarying = true
    · rw [if_pos hstorage] at hrun
      simp at hrun
    · rw [if_neg hstorage, bind_eq_ok] at hrun
      obtain ⟨q, hq, hstore⟩ := hrun
      obtain ⟨floats, hfloats, rfl⟩ := (hloop p x q).mp hq
      refine ⟨p, x, floats, hp, hx, htriple, by simpa using hstorage, hfloats, ?_⟩
      exact (store_eq_ok.mp hstore).2
  · rintro ⟨p, x, floats, hp, hx, htriple, hstorage, hfloats, rfl⟩
    refine ⟨p, hp, x, hx, (), htriple, ?_⟩
    rw [if_neg (by simpa using hstorage), bind_eq_ok]
    refine ⟨_, (hloop p x _).mpr ⟨floats, hfloats, rfl⟩, store_eq_ok.mpr ⟨?_, rfl⟩⟩
    exact (Array.getElem?_eq_some_iff.mp hp).1

/-- The loop over a varying argument rewrites one component of every active element. -/
theorem writeComponents_eq_ok {p x : Value} {axis : Axis} {n : Nat} {floats out : Buffer}
    (hp : p.storage = .varying) :
    forPlaces n floats (setting.writeComponent p x axis) = .ok out ↔
      (∀ e < n, ∃ b, setting.isActive e = .ok b ∧
        (b = true → e * 3 + 2 < floats.size ∧ ∃ y, x.float e = .ok y)) ∧
      out = rewriteAt (fun k => k / 3 < n && isActiveAt setting.mask (k / 3)) (fun k old =>
        if k % 3 = axis.index then (x.float (k / 3)).toOption.getD old else old) floats := by
  have hreaches : ∀ i, setting.reaches p i = setting.isActive i := by
    intro i
    simp [reaches, Value.isVarying, hp]
  have hstep : setting.writeComponent p x axis = fun e zs => do
      if ← setting.isActive e then
        let y ← x.float e
        discard (fetch zs (e * 3 + 2))
        return zs.setIfInBounds (e * 3 + axis.index) y
      else return zs := by
    funext e zs
    rw [writeComponent, hreaches, hp]
    rfl
  rw [hstep]
  refine forPlaces_masked _ _ _ (fun e b hb => isActive_eq_ok hb) fun e he zs ws hsize => ?_
  -- one component of one element, as a change of the whole block
  have hblock : ∀ y, x.float e = .ok y → zs.setIfInBounds (e * 3 + axis.index) y
      = rewriteAt (fun k => k / 3 = e) (fun k old =>
          if k % 3 = axis.index then (x.float (k / 3)).toOption.getD old else old) zs := by
    intro y hy
    have hindex := axis.index_lt
    have hset : zs.setIfInBounds (e * 3 + axis.index) y
        = rewriteAt (fun k => k = e * 3 + axis.index) (fun _ _ => y) zs :=
      setIfInBounds_eq_rewriteAt fun _ _ => rfl
    rw [hset]
    refine rewriteAt_congr fun k old _ => ?_
    simp only [decide_eq_true_eq]
    by_cases hk : k / 3 = e
    · by_cases hmod : k % 3 = axis.index
      · rw [if_pos (by omega), if_pos hk, if_pos hmod, hk, hy]
        rfl
      · rw [if_neg (by omega), if_pos hk, if_neg hmod]
    · rw [if_neg (by omega), if_neg hk]
  simp only [bind_eq_ok, discard_eq_ok, fetch_eq_ok, pure_eq_ok]
  constructor
  · rintro ⟨y, hy, -, ⟨last, hlast⟩, rfl⟩
    have hlt := (Array.getElem?_eq_some_iff.mp hlast).1
    exact ⟨⟨by omega, y, hy⟩, hblock y hy⟩
  · rintro ⟨⟨hlt, y, hy⟩, rfl⟩
    exact ⟨y, hy, (), ⟨_, Array.getElem?_eq_getElem (by omega)⟩, hblock y hy⟩

/-! ### Fresnel coefficients -/

/-- The two coefficients at point `i`. -/
def coefficients (incident n eta : Value) (i : Nat) : Except Fault (Float32 × Float32) := do
  return fresnelCoefficients (← incident.vec3 i) (← n.vec3 i) (← eta.float i)

/-- One step of the loop that writes the coefficients, on the floats alone. -/
def writeCoefficients (setting : Setting) (incident n eta : Value) (i : Nat)
    (floats : Buffer × Buffer) : Except Fault (Buffer × Buffer) := do
  if ← setting.isActive i then
    let both ← coefficients incident n eta i
    return (← store floats.1 i both.1, ← store floats.2 i both.2)
  else
    return floats

/-- What the loop leaves at place `k` of the buffer for one of the two coefficients. -/
def coefficientOr (setting : Setting) (incident n eta : Value) (pick : Float32 × Float32 → Float32)
    (k : Nat) (old : Float32) : Float32 :=
  if isActiveAt setting.mask k then ((coefficients incident n eta k).toOption.map pick).getD old
  else old

theorem coefficientOr_inactive {incident n eta : Value} {pick : Float32 × Float32 → Float32}
    {k : Nat} (h : isActiveAt setting.mask k = false) :
    setting.coefficientOr incident n eta pick k = id := by
  funext old
  rw [coefficientOr, h]
  rfl

/-- A step stores a coefficient at an active point. -/
theorem setIfInBounds_coefficient {incident n eta : Value} {both : Float32 × Float32} {i : Nat}
    (hactive : setting.isActive i = .ok true) (hboth : coefficients incident n eta i = .ok both)
    (pick : Float32 × Float32 → Float32) (zs : Buffer) :
    zs.setIfInBounds i (pick both)
      = rewriteAt (fun k => k = i) (setting.coefficientOr incident n eta pick) zs := by
  refine setIfInBounds_eq_rewriteAt fun old _ => ?_
  rw [coefficientOr, ← isActive_eq_ok hactive, hboth]
  rfl

/-- It stores nothing at an inactive one. -/
theorem rewriteAt_coefficientOr_inactive {incident n eta : Value} {i : Nat}
    (hactive : setting.isActive i = .ok false) (pick : Float32 × Float32 → Float32) (zs : Buffer) :
    rewriteAt (fun k => k = i) (setting.coefficientOr incident n eta pick) zs = zs := by
  apply Array.ext_getElem?
  intro k
  rw [getElem?_rewriteAt]
  by_cases hk : k = i
  · subst hk
    simp [coefficientOr_inactive (isActive_eq_ok hactive).symm]
  · simp [hk]

/-- The loop rewrites both coefficients of every active element. -/
theorem writeCoefficients_eq_ok {incident n eta : Value} {points : Nat}
    {floats out : Buffer × Buffer} :
    forPlaces points floats (setting.writeCoefficients incident n eta) = .ok out ↔
      (∀ e < points, ∃ b, setting.isActive e = .ok b ∧ (b = true → e < floats.1.size ∧
        e < floats.2.size ∧ ∃ both, coefficients incident n eta e = .ok both)) ∧
      out = (rewriteAt (fun k => k < points) (setting.coefficientOr incident n eta Prod.fst) floats.1,
        rewriteAt (fun k => k < points) (setting.coefficientOr incident n eta Prod.snd) floats.2) := by
  have hstart : ∀ pick : Float32 × Float32 → Float32, ∀ zs : Buffer,
      rewriteAt (fun k => k < 0) (setting.coefficientOr incident n eta pick) zs = zs :=
    fun pick zs => rewriteAt_eq_self (by simp)
  -- after `i` steps both buffers are rewritten before place `i`
  rw [← forPlaces_eq_ok_after (fun i =>
    (rewriteAt (fun k => k < i) (setting.coefficientOr incident n eta Prod.fst) floats.1,
      rewriteAt (fun k => k < i) (setting.coefficientOr incident n eta Prod.snd) floats.2))
    (fun e => ∃ b, setting.isActive e = .ok b ∧ (b = true → e < floats.1.size ∧
        e < floats.2.size ∧ ∃ both, coefficients incident n eta e = .ok both)), hstart, hstart]
  intro i hi next
  rw [← rewriteAt_next, ← rewriteAt_next]
  generalize hz : rewriteAt (fun k => k < i) (setting.coefficientOr incident n eta Prod.fst) floats.1
    = zs
  generalize hz' : rewriteAt (fun k => k < i) (setting.coefficientOr incident n eta Prod.snd)
    floats.2 = zs'
  have hsize : zs.size = floats.1.size := by rw [← hz, size_rewriteAt]
  have hsize' : zs'.size = floats.2.size := by rw [← hz', size_rewriteAt]
  unfold writeCoefficients
  simp only [bind_eq_ok]
  constructor
  · rintro ⟨active, hactive, hrun⟩
    cases active with
    | false =>
      obtain rfl := pure_eq_ok.mp hrun
      refine ⟨⟨false, hactive, by simp⟩, ?_⟩
      rw [rewriteAt_coefficientOr_inactive hactive, rewriteAt_coefficientOr_inactive hactive]
    | true =>
      simp only [if_true, bind_eq_ok, pure_eq_ok, store_eq_ok] at hrun
      obtain ⟨both, hboth, _, ⟨hlt, rfl⟩, _, ⟨hlt', rfl⟩, rfl⟩ := hrun
      refine ⟨⟨true, hactive, fun _ => ⟨by omega, by omega, both, hboth⟩⟩, ?_⟩
      rw [setIfInBounds_coefficient hactive hboth, setIfInBounds_coefficient hactive hboth]
  · rintro ⟨⟨active, hactive, hready⟩, rfl⟩
    refine ⟨active, hactive, ?_⟩
    cases active with
    | false =>
      rw [rewriteAt_coefficientOr_inactive hactive, rewriteAt_coefficientOr_inactive hactive]
      rfl
    | true =>
      obtain ⟨hlt, hlt', both, hboth⟩ := hready rfl
      rw [← setIfInBounds_coefficient hactive hboth, ← setIfInBounds_coefficient hactive hboth]
      simp [hboth, hsize, hsize', hlt, hlt']

theorem fresnel_step {incident n eta kr kt : Value} {i : Nat} {q : Value × Value}
    (hr : kr.storage = .varying) (ht : kt.storage = .varying) :
    (do
      if ← setting.isActive i then
        let (reflected, transmitted) :=
          fresnelCoefficients (← incident.vec3 i) (← n.vec3 i) (← eta.float i)
        return (← kr.setFloat i reflected, ← kt.setFloat i transmitted)
      else
        return (kr, kt)) = .ok q ↔
      ∃ floats, setting.writeCoefficients incident n eta i (kr.floats, kt.floats) = .ok floats ∧
        q = ({ kr with floats := floats.1 }, { kt with floats := floats.2 }) := by
  unfold writeCoefficients coefficients
  simp only [bind_eq_ok]
  constructor
  · rintro ⟨active, hactive, hrun⟩
    cases active with
    | false =>
      obtain rfl := pure_eq_ok.mp hrun
      exact ⟨_, ⟨false, hactive, rfl⟩, rfl⟩
    | true =>
      simp only [if_true, bind_eq_ok, pure_eq_ok, Value.setFloat_eq_ok hr,
        Value.setFloat_eq_ok ht] at hrun
      obtain ⟨v, hv, w, hw, x, hx, _, ⟨hlt, rfl⟩, _, ⟨hlt', rfl⟩, rfl⟩ := hrun
      refine ⟨(kr.floats.setIfInBounds i _, kt.floats.setIfInBounds i _), ⟨true, hactive, ?_⟩, rfl⟩
      simp [hv, hw, hx, hlt, hlt']
  · rintro ⟨floats, ⟨active, hactive, hrun⟩, rfl⟩
    refine ⟨active, hactive, ?_⟩
    cases active with
    | false =>
      obtain rfl := pure_eq_ok.mp hrun
      rfl
    | true =>
      simp only [if_true, bind_eq_ok, pure_eq_ok, store_eq_ok] at hrun
      obtain ⟨_, ⟨v, hv, w, hw, x, hx, rfl⟩, _, ⟨hlt, rfl⟩, _, ⟨hlt', rfl⟩, rfl⟩ := hrun
      simp [hv, hw, hx, Value.setFloat_eq_ok hr, Value.setFloat_eq_ok ht, hlt, hlt']

theorem fresnelLoop_eq_ok {incident n eta kr kt : Value} {q : Value × Value}
    (hr : kr.storage = .varying) (ht : kt.storage = .varying) :
    (forPlaces setting.points (kr, kt) fun i (kr, kt) => do
        if ← setting.isActive i then
          let (reflected, transmitted) :=
            fresnelCoefficients (← incident.vec3 i) (← n.vec3 i) (← eta.float i)
          return (← kr.setFloat i reflected, ← kt.setFloat i transmitted)
        else
          return (kr, kt)) = .ok q ↔
      ∃ floats, forPlaces setting.points (kr.floats, kt.floats)
          (setting.writeCoefficients incident n eta) = .ok floats ∧
        q = ({ kr with floats := floats.1 }, { kt with floats := floats.2 }) := by
  refine forPlaces_form (t := (kr.floats, kt.floats)) (fun floats : Buffer × Buffer =>
    ({ kr with floats := floats.1 }, { kt with floats := floats.2 })) fun i hi floats q => ?_
  exact fresnel_step hr ht

/-- **Fresnel coefficients.**  The builtin makes its last two arguments varying floats, whose floats
    then go through a loop. -/
theorem fresnel_eq_ok {arguments out : Array Value} :
    setting.fresnel arguments = .ok out ↔
      ∃ (incident n eta r t kr kt : Value) (floats : Buffer × Buffer),
        arguments[0]? = some incident ∧ arguments[1]? = some n ∧
        arguments[2]? = some eta ∧ arguments[3]? = some r ∧ arguments[4]? = some t ∧
        incident.type.isTriple = true ∧ n.type.isTriple = true ∧
        r.ensure .float .varying setting.points = .ok kr ∧
        t.ensure .float .varying setting.points = .ok kt ∧
        forPlaces setting.points (kr.floats, kt.floats)
          (setting.writeCoefficients incident n eta) = .ok floats ∧
        out = (arguments.setIfInBounds 3 { kr with floats := floats.1 }).setIfInBounds 4
          { kt with floats := floats.2 } := by
  unfold fresnel
  simp only [bind_eq_ok, fetch_eq_ok, requireTriple_eq_ok]
  constructor
  · rintro ⟨incident, hincident, n, hn, eta, heta, -, htriple, -, htriple', r, hr, kr, hkr, t, ht,
      kt, hkt, q, hq, _, hstore, hstore'⟩
    have hvarying := (Value.fits_iff.mp (Value.fits_of_ensure hkr)).2.1
    have hvarying' := (Value.fits_iff.mp (Value.fits_of_ensure hkt)).2.1
    obtain ⟨floats, hfloats, rfl⟩ := (fresnelLoop_eq_ok hvarying hvarying').mp hq
    obtain ⟨-, rfl⟩ := store_eq_ok.mp hstore
    exact ⟨incident, n, eta, r, t, kr, kt, floats, hincident, hn, heta, hr, ht, htriple, htriple',
      hkr, hkt, hfloats, (store_eq_ok.mp hstore').2⟩
  · rintro ⟨incident, n, eta, r, t, kr, kt, floats, hincident, hn, heta, hr, ht, htriple, htriple',
      hkr, hkt, hfloats, rfl⟩
    have hvarying := (Value.fits_iff.mp (Value.fits_of_ensure hkr)).2.1
    have hvarying' := (Value.fits_iff.mp (Value.fits_of_ensure hkt)).2.1
    refine ⟨incident, hincident, n, hn, eta, heta, (), htriple, (), htriple', r, hr, kr, hkr, t, ht,
      kt, hkt, _, (fresnelLoop_eq_ok hvarying hvarying').mpr ⟨floats, hfloats, rfl⟩, _,
      store_eq_ok.mpr ⟨(Array.getElem?_eq_some_iff.mp hr).1, rfl⟩, store_eq_ok.mpr ⟨?_, rfl⟩⟩
    rw [Array.size_setIfInBounds]
    exact (Array.getElem?_eq_some_iff.mp ht).1

end Setting

end Shading
