import Shading.Proofs.Commands
import Shading.Proofs.Cut
import Shading.Proofs.Passing

namespace Shading

/-!
# Kernels at a single point

An operation over all points does to the cuts of its operands what it does to the operands at that
point: if it succeeds over all points, it succeeds over the one, and the result is the cut of the
whole result.

* `Value.broadcast_cut` — a uniform value given to every point;
* `PointOp.run_cut`, `Update.run_cut`, `Registers.merge_cut` — operations, assignments and results;
* `MaskStack.generate_cut`, `MaskStack.invert_cut`, `MaskStack.clear_cut` — masks.
-/

variable {points i : Nat}

/-! ### Uniform values given to every point -/

namespace Value

variable {value out : Value}

theorem broadcast_eq_ok (h : value.storage = .uniform) :
    value.broadcast points = .ok out ↔
      4 * (value.components * points) < 0x8000000000000000 ∧
      ∃ floats, (floats.size = value.components * points ∧
          ∀ k x, floats[k]? = some x → value.floats[k % value.components]? = some x) ∧
        out = { value with storage := .varying, size := points, floats := floats } := by
  unfold broadcast
  rw [h]
  simp only [bind_eq_ok, requireRoom_eq_ok, tabulate_eq_ok, fetch_eq_ok, pure_eq_ok]
  constructor
  · rintro ⟨-, hroom, floats, hfloats, rfl⟩
    exact ⟨hroom, floats, hfloats, rfl⟩
  · rintro ⟨hroom, floats, hfloats, rfl⟩
    exact ⟨(), hroom, floats, hfloats, rfl⟩

theorem broadcast_cut (hstorage : value.storage = .uniform) (hi : i < points)
    (h : value.broadcast points = .ok out) : value.broadcast 1 = .ok (out.cut i) := by
  obtain ⟨-, floats, ⟨hsize, hfloats⟩, rfl⟩ := (broadcast_eq_ok hstorage).mp h
  have hle := components_le value.type
  have hreach : i * value.components + value.components ≤ floats.size := by
    rw [hsize]
    exact block_le hi
  refine (broadcast_eq_ok hstorage).mpr ⟨?_, cutFloats value.components i floats, ⟨?_, ?_⟩, rfl⟩
  · unfold components
    omega
  · rw [size_cutFloats hreach, Nat.mul_one]
  · intro c x hx
    rw [getElem?_cutFloats] at hx
    split at hx
    next hc =>
      have hread := hfloats _ x hx
      rw [block_mod hc] at hread
      rw [Nat.mod_eq_of_lt hc, hread]
    next => cases hx

theorem broadcast_over (hstorage : value.storage = .uniform)
    (h : value.broadcast points = .ok out) : out.Over points := by
  obtain ⟨-, floats, ⟨hsize, -⟩, rfl⟩ := (broadcast_eq_ok hstorage).mp h
  exact ⟨.inr rfl, hsize⟩

end Value

/-! ### Operations -/

theorem Storage.widest_eq_varying {s t : Storage} :
    s.widest t = .varying ↔ s = .varying ∨ t = .varying := by
  cases s <;> cases t <;> simp [widest]

theorem Value.HasShape.cut {value : Value} {shape : Shape} (h : value.HasShape points shape) :
    (value.cut i).HasShape 1 shape := by
  refine ⟨by rw [cut_shape?, h.shape_eq], ?_⟩
  obtain ⟨hstorage, -⟩ := shape?_eq_some.mp h.shape_eq
  obtain huniform | hvarying := value.storage.uniform_or_varying
  · rw [cut_uniform huniform, h.size_eq, hstorage, huniform]
    rfl
  · rw [cut_varying hvarying, hstorage, hvarying]
    rfl

/-- Component `c` of an operand, where its cut has it and where point `i` reads it. -/
theorem Shape.getElem?_place {shape : Shape} {value : Value} {result : Storage} {c : Nat}
    (hshape : value.shape? = some shape)
    (hresult : shape.storage = .varying → result = .varying)
    (hc : shape.width = .one ∨ c < shape.width.count) :
    (value.cut i).floats[shape.place 0 c]? = value.floats[shape.place (result.element i) c]? := by
  obtain ⟨hstorage, hwidth⟩ := Value.shape?_eq_some.mp hshape
  have hinner : (if shape.width = .one then 0 else c) < value.components := by
    rw [← hwidth]
    split
    next hone => rw [hone]; decide
    next hmore => exact hc.resolve_left hmore
  unfold place
  rw [Value.element_zero, Nat.zero_mul, Nat.zero_add, Value.getElem?_cut hinner,
    Value.element_element hresult, hstorage, hwidth]

theorem Shape.fetch_place {shape : Shape} {value : Value} {result : Storage} {c : Nat}
    (hshape : value.shape? = some shape)
    (hresult : shape.storage = .varying → result = .varying)
    (hc : shape.width = .one ∨ c < shape.width.count) :
    fetch (value.cut i).floats (shape.place 0 c)
      = fetch value.floats (shape.place (result.element i) c) :=
  fetch_congr (getElem?_place hshape hresult hc)

theorem Shape.elementOf_cut {shape : Shape} {value : Value} {result : Storage}
    (hshape : value.shape? = some shape)
    (hresult : shape.storage = .varying → result = .varying) :
    shape.elementOf (value.cut i).floats 0 = shape.elementOf value.floats (result.element i) := by
  unfold elementOf
  refine mapM_congr fun c hc => ?_
  exact fetch_place hshape hresult (.inr (List.mem_range.mp hc))

/-- Widths that go together: each operand is a float or has every component of the result. -/
theorem Width.reaches {lhs rhs : Width} {c : Nat} (hfits : lhs = rhs ∨ lhs = .one ∨ rhs = .one)
    (hc : c < max lhs.count rhs.count) :
    (lhs = .one ∨ c < lhs.count) ∧ (rhs = .one ∨ c < rhs.count) := by
  rcases hfits with rfl | rfl | rfl
  · rw [Nat.max_self] at hc
    exact ⟨.inr hc, .inr hc⟩
  · have hle : Width.one.count ≤ rhs.count := Update.width_pos rhs
    rw [Nat.max_eq_right hle] at hc
    exact ⟨.inl rfl, .inr hc⟩
  · have hle : Width.one.count ≤ lhs.count := Update.width_pos lhs
    rw [Nat.max_eq_left hle] at hc
    exact ⟨.inr hc, .inl rfl⟩

namespace PointOp

variable {op : PointOp} {instruction : Instruction} {a b : Value}

/-- The shapes of the operands go together as those of an instruction do. -/
def Fits : PointOp → Prop
  | .arithmetic _ lhs rhs => lhs.width = rhs.width ∨ lhs.width = .one ∨ rhs.width = .one
  | .copy result source =>
    (source.storage = .varying → result.storage = .varying) ∧
      (result.width = source.width ∨ source.width = .one)
  | _ => True

/-- The type that a result is given has as many components as the operation computes. -/
def Yields (op : PointOp) : Option ElementType → Prop
  | some type => type.components = op.width
  | none => match op with
    | .copy result source => result.width = source.width
    | _ => True

theorem Suits.cut (h : op.Suits points a b) : op.Suits 1 (a.cut i) (b.cut i) := by
  unfold Suits at h ⊢
  cases op with
  | arithmetic | test => exact ⟨h.1.cut, h.2.cut⟩
  | negate | copy => exact Value.HasShape.cut h
  | transform storage => exact ⟨by simpa using h.1, h.2.cut⟩

@[simp] theorem resultType_cut : op.resultType (a.cut i) (b.cut i) = op.resultType a b := by
  unfold resultType
  cases op <;> simp

theorem components_resultType {type : Option ElementType} (hsuits : op.Suits points a b)
    (hyields : op.Yields type) :
    (type.getD (op.resultType a b)).components = op.width := by
  cases type with
  | some type => exact hyields
  | none =>
    rw [Option.getD_none]
    cases op with
    | arithmetic operator lhs rhs =>
      have ha := (Value.shape?_eq_some.mp hsuits.1.shape_eq).2
      have hb := (Value.shape?_eq_some.mp hsuits.2.shape_eq).2
      rw [resultType, width, ha, hb]
      split
      next hone => rw [hone]; rfl
      next =>
        split
        next hle => exact (Nat.max_eq_left hle).symm
        next hlt => exact (Nat.max_eq_right (Nat.le_of_not_le hlt)).symm
    | test => rfl
    | negate shape => exact (Value.shape?_eq_some.mp hsuits.shape_eq).2.symm
    | transform storage => exact (Value.shape?_eq_some.mp hsuits.2.shape_eq).2.symm
    | copy result source =>
      have hwidth : result.width = source.width := hyields
      have ha := (Value.shape?_eq_some.mp hsuits.shape_eq).2
      rw [width, hwidth, ha]
      rfl

/-- One component of the result at point `i`. -/
theorem component_cut {c : Nat} (hfits : op.Fits) (hsuits : op.Suits points a b)
    (hc : c < op.width) :
    op.component (a.cut i).floats (b.cut i).floats 0 c
      = op.component a.floats b.floats (op.storage.element i) c := by
  cases op with
  | arithmetic operator lhs rhs =>
    -- an operand that varies makes the result vary, so both are read at the same point
    have hlhs : lhs.storage = .varying → lhs.storage.widest rhs.storage = .varying :=
      fun h => Storage.widest_eq_varying.mpr (.inl h)
    have hrhs : rhs.storage = .varying → lhs.storage.widest rhs.storage = .varying :=
      fun h => Storage.widest_eq_varying.mpr (.inr h)
    have hwidth := Width.reaches hfits hc
    rw [component, component, Shape.fetch_place hsuits.1.shape_eq hlhs hwidth.1,
      Shape.fetch_place hsuits.2.shape_eq hrhs hwidth.2]
    rfl
  | test operator lhs rhs =>
    have hlhs : lhs.storage = .varying → lhs.storage.widest rhs.storage = .varying :=
      fun h => Storage.widest_eq_varying.mpr (.inl h)
    have hrhs : rhs.storage = .varying → lhs.storage.widest rhs.storage = .varying :=
      fun h => Storage.widest_eq_varying.mpr (.inr h)
    rw [component, component, Shape.elementOf_cut hsuits.1.shape_eq hlhs, Shape.elementOf_cut hsuits.2.shape_eq hrhs]
    rfl
  | negate shape =>
    rw [component, component, Shape.fetch_place hsuits.shape_eq id (.inr hc)]
    rfl
  | transform storage =>
    obtain ⟨⟨-, huniform⟩, hb⟩ := hsuits
    rw [component, component, Value.cut_uniform huniform]
    have hplace : ∀ c < 3, fetch (b.cut i).floats ((Shape.mk storage .three).place 0 c)
        = fetch b.floats ((Shape.mk storage .three).place (storage.element i) c) :=
      fun c hc => Shape.fetch_place hb.shape_eq id (.inr hc)
    dsimp only
    rw [hplace 0 (by decide), hplace 1 (by decide), hplace 2 (by decide)]
    rfl
  | copy result source =>
    rw [component, component, Shape.fetch_place hsuits.shape_eq hfits.1 ?_]
    · rfl
    · rcases hfits.2 with h | h
      · exact .inr (h ▸ hc)
      · exact .inl h

/-- The result is tabulated; a transformation needs a whole matrix. -/
theorem run_eq_ok {result a b out : Buffer} :
    op.run result a b points = .ok out ↔
      ((op matches .transform _) = true → 16 ≤ a.size) ∧
      fill (op.storage.size points * op.width)
        (fun k => op.component a b (k / op.width) (k % op.width)) result = .ok out := by
  unfold run
  cases op with
  | transform storage =>
    by_cases ha : a.size < 16
    · simp [ha, Nat.not_le_of_lt ha]
    · simp [ha, Nat.le_of_not_lt ha]
  | _ => simp

/-- **Operations.**  The result at a point is computed from the operands at that point. -/
theorem run_cut {result : Value} {out : Buffer} (hi : i < points) (hfits : op.Fits)
    (hsuits : op.Suits points a b) (hresult : result.Over points)
    (hstorage : result.storage = op.storage) (hsize : result.size = op.storage.size points)
    (hwidth : result.components = op.width)
    (h : op.run result.floats a.floats b.floats points = .ok out) :
    op.run (result.cut i).floats (a.cut i).floats (b.cut i).floats 1
      = .ok ({ result with floats := out }.cut i).floats := by
  obtain ⟨hmatrix, h⟩ := run_eq_ok.mp h
  obtain ⟨-, hout, hnew, -⟩ := fill_eq_ok.mp h
  have hsize : result.size = result.storage.size points := by rw [hsize, hstorage]
  have hcut : (result.cut i).floats.size = op.width := by
    rw [hresult.floats_cut hsize hi, hwidth]
  have hcut' : ({ result with floats := out }.cut i).floats.size = op.width := by
    rw [(hresult.with_floats hout).floats_cut hsize hi]
    exact hwidth
  have hone : op.storage.size 1 * op.width = op.width := by
    cases op.storage <;> exact Nat.one_mul _
  refine run_eq_ok.mpr ⟨?_, ?_⟩
  · cases op with
    | transform storage =>
      intro _
      rw [Value.cut_uniform hsuits.1.2]
      exact hmatrix rfl
    | _ => exact fun h => Bool.noConfusion h
  rw [hone]
  refine fill_eq_ok.mpr ⟨by omega, by omega, fun c x hc hx => ?_, fun k hk => ?_⟩
  · -- the only element of the cut is element `i` of the whole
    have hblock : op.storage.element i * op.width + op.width ≤ op.width * op.storage.size points :=
      block_le (Value.element_lt hi)
    rw [Nat.mul_comm op.width] at hblock
    rw [Value.getElem?_cut_with_floats (by omega), hstorage, hwidth] at hx
    have hcomponent := hnew _ x (by omega) hx
    rw [block_div hc, block_mod hc] at hcomponent
    rw [Nat.div_eq_of_lt hc, Nat.mod_eq_of_lt hc, component_cut hfits hsuits hc, hcomponent]
  · rw [Array.getElem?_eq_none (by omega), Array.getElem?_eq_none (by omega)]

end PointOp

/-! ### Masks -/

/-- What is left of a mask at point `i`. -/
def cutMask (i : Nat) (mask : Mask) : Mask := #[mask.getD i false]

@[simp] theorem isActiveAt_cutMask {mask : Option Mask} :
    isActiveAt (mask.map (cutMask i)) 0 = isActiveAt mask i := by
  cases mask <;> rfl

namespace MaskStack

variable {masks next : MaskStack}

/-- What is left of the masks at point `i`. -/
def cut (masks : MaskStack) (i : Nat) : MaskStack := ⟨1, masks.entries.map (cutMask i)⟩

/-- Masks over so many points. -/
structure Over (points : Nat) (masks : MaskStack) : Prop where
  points_eq : masks.points = points
  size_eq : ∀ mask ∈ masks.entries, mask.size = points

theorem cut_base (hi : i < points) : (base points).cut i = base 1 := by
  have hmask : cutMask i (Array.replicate points true) = #[true] := by
    simp [cutMask, Array.getD_eq_getD_getElem?, hi]
  simp [cut, base, hmask]

theorem over_base : (base points).Over points :=
  ⟨rfl, by simp [base]⟩

theorem top_cut {mask : Mask} (h : masks.top = .ok mask) :
    (masks.cut i).top = .ok (cutMask i mask) := by
  rw [top_eq_ok] at h ⊢
  simp [cut, h]

theorem active_cut {mask : Option Mask} (h : masks.active = .ok mask) :
    (masks.cut i).active = .ok (mask.map (cutMask i)) := by
  obtain ⟨n, entries⟩ := masks
  match entries, h with
  | [_], h =>
    obtain rfl := Except.ok.inj h
    rfl
  | top :: enclosing :: rest, h =>
    obtain rfl := Except.ok.inj h
    rfl

theorem Over.active (hmasks : masks.Over points) {mask : Option Mask}
    (h : masks.active = .ok mask) : ∀ m, mask = some m → m.size = points := by
  rintro m rfl
  obtain ⟨n, entries⟩ := masks
  match entries, h with
  | [_], h => cases h
  | top :: enclosing :: rest, h =>
    obtain rfl : top = m := Option.some.inj (Except.ok.inj h)
    exact hmasks.size_eq top List.mem_cons_self

/-- Entering a conditional at a point. -/
theorem generate_cut {predicate : Value} (hi : i < points) (hmasks : masks.Over points)
    (h : masks.generate predicate = .ok next) :
    (masks.cut i).generate (predicate.cut i) = .ok (next.cut i) := by
  obtain ⟨hcomponents, hsize, top, mask, htop, hmask, rfl⟩ := generate_eq_ok.mp h
  obtain ⟨hmasksize, hmask⟩ := tabulate_eq_ok.mp hmask
  refine generate_eq_ok.mpr ⟨by rw [Value.cut_components, hcomponents], fun hvarying => ?_,
    cutMask i top, cutMask i mask, top_cut htop, tabulate_eq_ok.mpr ⟨rfl, ?_⟩, rfl⟩
  · have hstorage : predicate.storage = .varying := by simpa [Value.isVarying] using hvarying
    rw [Value.cut_varying hstorage]
    rfl
  · intro k b hb
    have hlt : i < mask.size := by
      rw [hmasksize, hmasks.points_eq]
      exact hi
    obtain ⟨rfl, rfl⟩ : k = 0 ∧ mask[i] = b := by
      cases k with
      | zero => simpa [cutMask, Array.getD_eq_getD_getElem?, hlt] using hb
      | succ k => simp [cutMask] at hb
    have hselected := hmask i mask[i] (Array.getElem?_eq_getElem hlt)
    rw [selected_eq_ok] at hselected ⊢
    have hfloat : (predicate.cut i).float 0 = predicate.float i :=
      Value.cut_float (fun _ => hcomponents) fun _ => rfl
    rcases hselected with ⟨hout, hb⟩ | ⟨hin, x, hx, hb⟩
    · exact .inl ⟨by simp [cutMask, getD_of_getElem? hout], hb⟩
    · exact .inr ⟨by simp [cutMask, getD_of_getElem? hin], x, hfloat.trans hx, hb⟩

theorem Over.generate (hmasks : masks.Over points) {predicate : Value}
    (h : masks.generate predicate = .ok next) : next.Over points := by
  obtain ⟨-, -, top, mask, htop, hmask, rfl⟩ := generate_eq_ok.mp h
  refine ⟨hmasks.points_eq, fun m hm => ?_⟩
  rcases List.mem_cons.mp hm with rfl | hm
  · rw [(tabulate_eq_ok.mp hmask).1, hmasks.points_eq]
  · exact hmasks.size_eq m hm

theorem cutMask_otherBranch {top enclosing : Mask} (htop : i < top.size)
    (henclosing : i < enclosing.size) :
    cutMask i (otherBranch top enclosing)
      = otherBranch (cutMask i top) (cutMask i enclosing) := by
  simp [cutMask, otherBranch, Array.getD_eq_getD_getElem?, htop, henclosing]

/-- Turning over a conditional at a point. -/
theorem invert_cut (hi : i < points) (hmasks : masks.Over points) (h : masks.invert = .ok next) :
    (masks.cut i).invert = .ok (next.cut i) := by
  obtain ⟨top, enclosing, rest, hentries, rfl⟩ := invert_eq_ok.mp h
  have htop := hmasks.size_eq top (by simp [hentries])
  have henclosing := hmasks.size_eq enclosing (by simp [hentries])
  refine invert_eq_ok.mpr ⟨cutMask i top, cutMask i enclosing, rest.map (cutMask i),
    by simp [cut, hentries], ?_⟩
  simp only [cut, List.map_cons]
  rw [cutMask_otherBranch (by omega) (by omega)]

theorem Over.invert (hmasks : masks.Over points) (h : masks.invert = .ok next) :
    next.Over points := by
  obtain ⟨top, enclosing, rest, hentries, rfl⟩ := invert_eq_ok.mp h
  have htop := hmasks.size_eq top (by simp [hentries])
  have henclosing := hmasks.size_eq enclosing (by simp [hentries])
  refine ⟨hmasks.points_eq, fun m hm => ?_⟩
  rcases List.mem_cons.mp hm with rfl | hm
  · simp [otherBranch, htop, henclosing]
  · exact hmasks.size_eq m (by rw [hentries]; exact List.mem_cons_of_mem _ hm)

theorem clear_cut (h : masks.clear = .ok next) : (masks.cut i).clear = .ok (next.cut i) := by
  obtain ⟨top, enclosing, rest, hentries, rfl⟩ := clear_eq_ok.mp h
  exact clear_eq_ok.mpr ⟨cutMask i top, cutMask i enclosing, rest.map (cutMask i),
    by simp [cut, hentries], rfl⟩

theorem Over.clear (hmasks : masks.Over points) (h : masks.clear = .ok next) :
    next.Over points := by
  obtain ⟨top, enclosing, rest, hentries, rfl⟩ := clear_eq_ok.mp h
  refine ⟨hmasks.points_eq, fun m hm => hmasks.size_eq m ?_⟩
  rw [hentries]
  exact List.mem_cons_of_mem _ hm

end MaskStack

/-! ### Assignments -/

/-- A uniform destination takes a uniform source, and the widths agree or the source is a float. -/
def Update.Fits (update : Update) : Prop :=
  (update.source.storage = .varying → update.destination.storage = .varying) ∧
    (update.destination.width = update.source.width ∨ update.source.width = .one)

namespace Update

variable {update : Update}

theorem writes_cut {mask : Option Mask} {b : Bool}
    (h : update.writes mask (update.destination.storage.element i) = .ok b) :
    update.writes (mask.map (cutMask i)) 0 = .ok b := by
  unfold writes at h ⊢
  obtain hstorage | hstorage := update.destination.storage.uniform_or_varying
  · rw [hstorage] at h ⊢
    exact h
  · rw [hstorage] at h ⊢
    cases mask with
    | none => exact h
    | some mask =>
      have hb := getD_of_getElem? (fetch_eq_ok.mp h) false
      exact congrArg Except.ok hb

theorem isWritten_cut {mask : Option Mask} :
    update.isWritten (mask.map (cutMask i)) 0
      = update.isWritten mask (update.destination.storage.element i) := by
  unfold isWritten
  obtain hstorage | hstorage := update.destination.storage.uniform_or_varying
  · rw [hstorage]
  · rw [hstorage]
    exact isActiveAt_cutMask

/-- **Assignments.**  What is written at a point is the source at that point. -/
theorem run_cut {destination source : Value} {mask : Option Mask} {out : Buffer} (hi : i < points)
    (hfits : update.Fits) (hdestination : destination.HasShape points update.destination)
    (hover : destination.Over points) (hsource : source.HasShape points update.source)
    (h : update.run destination.floats source.floats mask points = .ok out) :
    update.run (destination.cut i).floats (source.cut i).floats (mask.map (cutMask i)) 1
      = .ok ({ destination with floats := out }.cut i).floats := by
  obtain ⟨hready, rfl⟩ := run_eq_ok.mp h
  obtain ⟨hstorage, hwidth⟩ := Value.shape?_eq_some.mp hdestination.shape_eq
  have hsize : (destination.cut i).floats.size = update.destination.width.count := by
    rw [hwidth]
    exact hover.floats_cut (by rw [hdestination.size_eq, hstorage]) hi
  have helement : update.destination.storage.element i < update.destination.storage.size points :=
    Value.element_lt hi
  have hplace : ∀ c < update.destination.width.count,
      (source.cut i).floats[update.source.place 0 c]?
        = source.floats[update.source.place (update.destination.storage.element i) c]? := by
    intro c hc
    refine Shape.getElem?_place hsource.shape_eq hfits.1 ?_
    rcases hfits.2 with hsame | hone
    · exact .inr (hsame ▸ hc)
    · exact .inl hone
  refine run_eq_ok.mpr ⟨fun e he => ?_, ?_⟩
  · obtain rfl : e = 0 := by
      cases hs : update.destination.storage <;> rw [hs] at he <;> exact Nat.lt_one_iff.mp he
    obtain ⟨b, hb, hcovers⟩ := hready _ helement
    refine ⟨b, writes_cut hb, fun hwritten c hc => ⟨by omega, ?_⟩⟩
    have hreach := (hcovers hwritten c hc).2
    have hx := (hplace c hc).trans (Array.getElem?_eq_getElem hreach)
    exact (Array.getElem?_eq_some_iff.mp hx).1
  · rw [Value.cut_rewriteAt]
    refine rewriteAt_congr fun c old hold => ?_
    have hc : c < update.destination.width.count := by
      rw [← hsize]
      exact (Array.getElem?_eq_some_iff.mp hold).1
    rw [← hwidth, ← hstorage]
    have hone : 0 < update.destination.storage.size 1 := by
      cases update.destination.storage <;> exact Nat.one_pos
    simp only [block_div hc, Nat.div_eq_of_lt hc, isWritten_cut, written, block_mod hc,
      Nat.mod_eq_of_lt hc, Array.getD_eq_getD_getElem?, hplace c hc, helement, hone]

end Update

/-! ### Results -/

namespace Registers

theorem spread_cut {value full : Value} (hi : i < points)
    (h : spread points value = .ok full) : spread 1 (value.cut i) = .ok (full.cut i) := by
  unfold spread at h ⊢
  obtain hstorage | hstorage := value.storage.uniform_or_varying
  · rw [if_pos (by simp [Value.isUniform, hstorage])] at h
    rw [if_pos (by simp [Value.isUniform, hstorage]), Value.cut_uniform hstorage]
    exact Value.broadcast_cut hstorage hi h
  · rw [if_neg (by simp [Value.isUniform, hstorage])] at h
    rw [if_neg (by simp [Value.isUniform, hstorage]), Except.ok.inj h]

theorem spread_over {value full : Value} (hvalue : value.Over points)
    (h : spread points value = .ok full) :
    full.Over points ∧ full.storage = .varying ∧ full.components = value.components := by
  unfold spread at h
  obtain hstorage | hstorage := value.storage.uniform_or_varying
  · rw [if_pos (by simp [Value.isUniform, hstorage])] at h
    refine ⟨Value.broadcast_over hstorage h, ?_⟩
    obtain ⟨-, floats, -, rfl⟩ := (Value.broadcast_eq_ok hstorage).mp h
    exact ⟨rfl, rfl⟩
  · rw [if_neg (by simp [Value.isUniform, hstorage])] at h
    obtain rfl := Except.ok.inj h
    exact ⟨hvalue, hstorage, rfl⟩

/-- **Results.**  What a varying symbol takes at a point is the value at that point. -/
theorem merge_cut {target value : Value} {mask : Option Mask} {out : Buffer} (hi : i < points)
    (htarget : target.Over points) (hvalue : value.Over points)
    (hstorage : target.storage = .varying) (hstorage' : value.storage = .varying)
    (hcomponents : target.components = value.components)
    (hmask : ∀ m, mask = some m → m.size = points)
    (h : merge mask target.components target.floats value.floats = .ok out) :
    merge (mask.map (cutMask i)) target.components (target.cut i).floats (value.cut i).floats
      = .ok ({ target with floats := out }.cut i).floats := by
  have hsize : (target.cut i).floats.size = target.components :=
    htarget.floats_cut (by rw [htarget.size_of_varying hstorage, hstorage]; rfl) hi
  have hsize' : (value.cut i).floats.size = target.components := by
    rw [hcomponents]
    exact hvalue.floats_cut (by rw [hvalue.size_of_varying hstorage', hstorage']; rfl) hi
  cases mask with
  | none =>
    obtain ⟨-, rfl⟩ := merge_none_eq_ok.mp h
    refine merge_none_eq_ok.mpr ⟨by omega, ?_⟩
    rw [Value.cut_with_floats hstorage, Value.cut_varying hstorage', hcomponents]
  | some mask =>
    rcases Nat.eq_zero_or_pos target.components with hzero | hpos
    -- values without floats are merged by doing nothing
    · rw [hzero] at h
      obtain rfl := Except.ok.inj (merge_zero_width.symm.trans h)
      rw [hzero]
      exact merge_zero_width
    · obtain ⟨-, rfl⟩ := (merge_eq_ok hpos).mp h
      rw [Value.cut_rewriteAt]
      refine (merge_eq_ok hpos).mpr ⟨fun e he _ c hc => ?_, ?_⟩
      · obtain rfl : e = 0 := Nat.lt_one_iff.mp he
        omega
      -- float `c` of the cut stands in block `i` of the whole
      · refine rewriteAt_congr fun c old hold => ?_
        have hc : c < target.components := by
          rw [← hsize]
          exact (Array.getElem?_eq_some_iff.mp hold).1
        have hlt : i < mask.size := by
          rw [hmask mask rfl]
          exact hi
        have hone : 0 < (cutMask i mask).size := Nat.one_pos
        have hactive : isActiveAt (some (cutMask i mask)) 0 = isActiveAt (some mask) i := rfl
        rw [hstorage]
        simp only [Storage.element, block_div hc, Nat.div_eq_of_lt hc, hlt, hone, hactive,
          Array.getD_eq_getD_getElem?]
        rw [Value.getElem?_cut (by omega), hstorage', ← hcomponents]
        rfl

end Registers

/-! ### Decoded commands -/

/-- The shapes that a command is for go together. -/
def Command.Fits : Command → Prop
  | .compute op type _ _ _ => op.Fits ∧ op.Yields type
  | .assign update _ _ => update.Fits
  | _ => True

theorem guard_eq_some_iff {p : Prop} [Decidable p] {u : Unit} :
    (guard p : Option Unit) = some u ↔ p := by
  by_cases h : p
  · simp [guard, h]
  · simp only [guard, h, iff_false]
    rintro ⟨⟩

theorem PointOp.fits_of_ofInstruction? {instruction : Instruction} {op : PointOp}
    (h : ofInstruction? instruction = some op) :
    op.Fits ∧ (instruction.opcode ≠ .convert → op.Yields none) := by
  obtain ⟨opcode, key⟩ := instruction
  unfold ofInstruction? at h
  cases opcode with
  | arithmetic operator =>
    simp only [Option.bind_eq_bind, Option.bind_eq_some_iff, guard_eq_some_iff] at h
    obtain ⟨⟨lhs, rhs⟩, -, -, hwidth, ⟨⟩⟩ := h
    exact ⟨hwidth, fun _ => trivial⟩
  | test operator =>
    simp only [Option.bind_eq_bind, Option.bind_eq_some_iff, guard_eq_some_iff] at h
    obtain ⟨⟨lhs, rhs⟩, -, -, -, ⟨⟩⟩ := h
    exact ⟨trivial, fun _ => trivial⟩
  | negate =>
    simp only [Option.bind_eq_bind, Option.bind_eq_some_iff] at h
    obtain ⟨shape, -, ⟨⟩⟩ := h
    exact ⟨trivial, fun _ => trivial⟩
  | transform =>
    simp only [Option.bind_eq_bind, Option.bind_eq_some_iff, guard_eq_some_iff] at h
    obtain ⟨shape, -, -, -, ⟨⟩⟩ := h
    exact ⟨trivial, fun _ => trivial⟩
  | promote =>
    simp only [Option.bind_eq_bind, Option.bind_eq_some_iff, guard_eq_some_iff] at h
    obtain ⟨⟨result, source⟩, -, -, ⟨hresult, -, hwidth⟩, ⟨⟩⟩ := h
    exact ⟨⟨fun _ => hresult, .inl hwidth⟩, fun _ => hwidth⟩
  | convert =>
    simp only [Option.bind_eq_bind, Option.bind_eq_some_iff, guard_eq_some_iff] at h
    obtain ⟨⟨result, source⟩, -, -, ⟨hstorage, hwidth⟩, ⟨⟩⟩ := h
    exact ⟨⟨fun hsource => hstorage.trans hsource, hwidth⟩, fun hopcode => absurd rfl hopcode⟩
  | _ => cases h

theorem Update.fits_of_ofInstruction? {instruction : Instruction} {update : Update}
    (h : ofInstruction? instruction = some update) : update.Fits := by
  unfold ofInstruction? at h
  split at h
  · simp only [Option.bind_eq_bind, Option.bind_eq_some_iff, guard_eq_some_iff] at h
    obtain ⟨⟨destination, source⟩, -, -, hwidth, -, hstorage, ⟨⟩⟩ := h
    refine ⟨fun hsource => hstorage.resolve_right ?_, hwidth.imp_right And.right⟩
    intro huniform
    rw [hsource] at huniform
    cases huniform
  · cases h

/-- Commands that are decoded fit. -/
theorem Command.fits_of_decode {code : Array Word} {ip : Nat} {instruction : Instruction}
    {command : Command} (h : decode code ip instruction = .ok command) : command.Fits := by
  cases decode_eq_ok.mp h with
  | compute haction =>
    cases haction with
    | compute op hop hopcode =>
      obtain ⟨hfits, hyields⟩ := PointOp.fits_of_ofInstruction? hop
      exact ⟨hfits, hyields hopcode⟩
    | convert op word type hop hopcode hword htype hwidth =>
      exact ⟨(PointOp.fits_of_ofInstruction? hop).1, hwidth⟩
  | assign haction =>
    cases haction with
    | assign update hupdate => exact Update.fits_of_ofInstruction? hupdate
  | _ => trivial

end Shading
