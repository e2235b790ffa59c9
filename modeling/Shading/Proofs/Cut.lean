import Shading.Proofs.Kernels

namespace Shading

/-!
# Values at a single point

Taking all points but one away from a value leaves a value on a single point.  What the machine does
at a point is told in these terms: two values agree at point `i` if their cuts at `i` are equal.

* `Value.cut` — a varying value cut down to one element, a uniform value as it is;
* `Value.Over` — values whose size and floats suit a number of points.
-/

/-! ### Buffers -/

/-- Element `i` of a buffer whose elements have `width` floats each. -/
def cutFloats (width i : Nat) (floats : Buffer) : Buffer :=
  floats.extract (i * width) (i * width + width)

section Buffers

variable {width i c : Nat} {xs ys : Buffer}

theorem getElem?_cutFloats :
    (cutFloats width i xs)[c]? = if c < width then xs[i * width + c]? else none := by
  rw [cutFloats, Array.getElem?_extract]
  by_cases hc : c < width
  · rw [if_pos hc]
    by_cases hx : i * width + c < xs.size
    · rw [if_pos (by omega)]
    · rw [if_neg (by omega), Array.getElem?_eq_none (by omega)]
  · rw [if_neg hc, if_neg (by omega)]

theorem size_cutFloats (h : i * width + width ≤ xs.size) : (cutFloats width i xs).size = width := by
  rw [cutFloats, Array.size_extract]
  omega

theorem cutFloats_congr (h : ∀ c < width, xs[i * width + c]? = ys[i * width + c]?) :
    cutFloats width i xs = cutFloats width i ys := by
  apply Array.ext_getElem?
  intro c
  rw [getElem?_cutFloats, getElem?_cutFloats]
  by_cases hc : c < width
  · rw [if_pos hc, if_pos hc, h c hc]
  · rw [if_neg hc, if_neg hc]

/-- Rewriting a buffer rewrites its elements. -/
theorem cutFloats_rewriteAt {chosen : Nat → Bool} {new : Nat → Float32 → Float32} :
    cutFloats width i (rewriteAt chosen new xs)
      = rewriteAt (fun c => chosen (i * width + c)) (fun c => new (i * width + c))
          (cutFloats width i xs) := by
  apply Array.ext_getElem?
  intro c
  simp only [getElem?_cutFloats, getElem?_rewriteAt]
  by_cases hc : c < width <;> simp [hc]

/-- An element that is rewritten nowhere stays. -/
theorem cutFloats_rewriteAt_eq_self {chosen : Nat → Bool} {new : Nat → Float32 → Float32}
    (h : ∀ c < width, chosen (i * width + c) = false) :
    cutFloats width i (rewriteAt chosen new xs) = cutFloats width i xs := by
  refine cutFloats_congr fun c hc => ?_
  rw [getElem?_rewriteAt, h c hc]
  rfl

end Buffers

/-! ### Values -/

namespace Value

variable {value : Value} {points i : Nat}

/-- The value as point `i` alone has it. -/
def cut (value : Value) (i : Nat) : Value :=
  match value.storage with
  | .uniform => value
  | .varying => { value with size := 1, floats := cutFloats value.components i value.floats }

theorem cut_uniform (h : value.storage = .uniform) : value.cut i = value := by
  rw [cut, h]

theorem cut_varying (h : value.storage = .varying) :
    value.cut i
      = { value with size := 1, floats := cutFloats value.components i value.floats } := by
  rw [cut, h]

theorem cut_with_floats {floats : Buffer} (h : value.storage = .varying) :
    { value with floats := floats }.cut i
      = { value with size := 1, floats := cutFloats value.components i floats } :=
  cut_varying h

theorem cut_with_floats_uniform {floats : Buffer} (h : value.storage = .uniform) :
    { value with floats := floats }.cut i = { value with floats := floats } :=
  cut_uniform h

/-- Cutting a value whose floats were changed changes the floats of the cut. -/
theorem cut_eq_with_floats {floats : Buffer} :
    { value with floats := floats }.cut i
      = { value.cut i with floats := ({ value with floats := floats }.cut i).floats } := by
  obtain hstorage | hstorage := value.storage.uniform_or_varying
  · rw [cut_uniform hstorage, cut_with_floats_uniform hstorage]
  · rw [cut_varying hstorage, cut_with_floats hstorage]

@[simp] theorem cut_type : (value.cut i).type = value.type := by
  unfold cut
  split <;> rfl

@[simp] theorem cut_storage : (value.cut i).storage = value.storage := by
  unfold cut
  split <;> simp_all

@[simp] theorem cut_components : (value.cut i).components = value.components := by
  rw [components, cut_type, components]

@[simp] theorem cut_empty : empty.cut i = empty := rfl

/-- A value over so many points: one element for each of them or one for all, or nothing at all, and
    floats for each element. -/
structure Over (points : Nat) (value : Value) : Prop where
  size : value = empty ∨ value.size = value.storage.size points
  floats : value.floats.size = value.components * value.size

theorem over_empty : Over points empty := ⟨.inl rfl, rfl⟩

namespace Over

variable (h : value.Over points)

include h

theorem size_of_varying (hstorage : value.storage = .varying) : value.size = points := by
  rcases h.size with rfl | hsize
  · cases hstorage
  · rw [hsize, hstorage]
    rfl

theorem floats_of_varying (hstorage : value.storage = .varying) :
    value.floats.size = value.components * points := by
  rw [h.floats, h.size_of_varying hstorage]

/-- A cut of a value over any number of points is one over a single point. -/
theorem cut (hi : i < points) : (value.cut i).Over 1 := by
  obtain hstorage | hstorage := value.storage.uniform_or_varying
  · rw [cut_uniform hstorage]
    refine ⟨h.size.imp_right fun hsize => ?_, h.floats⟩
    rw [hsize, hstorage]
    rfl
  · have hfloats := h.floats_of_varying hstorage
    have hle : i * value.components + value.components ≤ value.floats.size := by
      rw [hfloats]
      exact block_le hi
    rw [cut_varying hstorage]
    refine ⟨.inr (by rw [hstorage]; rfl), ?_⟩
    rw [size_cutFloats hle]
    exact (Nat.mul_one _).symm

theorem cut_isEmpty (hi : i < points) : (value.cut i).isEmpty = value.isEmpty := by
  obtain hstorage | hstorage := value.storage.uniform_or_varying
  · rw [cut_uniform hstorage]
  · have hsize := h.size_of_varying hstorage
    have hpoints : (points == 0) = false := beq_eq_false_iff_ne.mpr (by omega)
    rw [cut_varying hstorage, isEmpty, isEmpty, hsize, hpoints]
    rfl

theorem cut_fits {type : ElementType} {storage : Storage} :
    (value.cut i).fits type storage (storage.size 1)
      = value.fits type storage (storage.size points) := by
  rw [Bool.eq_iff_iff, fits_iff, fits_iff, cut_type, cut_storage]
  refine and_congr_right fun _ => and_congr_right fun hstorage => ?_
  subst hstorage
  obtain hstorage | hstorage := value.storage.uniform_or_varying
  · rw [cut_uniform hstorage, hstorage]
    rfl
  · rw [cut_varying hstorage, hstorage, h.size_of_varying hstorage]
    exact iff_of_true rfl rfl

/-- A cut of a value that holds something has the floats of one element. -/
theorem floats_cut (hsize : value.size = value.storage.size points) (hi : i < points) :
    (value.cut i).floats.size = value.components := by
  rw [(h.cut hi).floats, cut_components]
  obtain hstorage | hstorage := value.storage.uniform_or_varying
  · rw [cut_uniform hstorage, hsize, hstorage]
    exact Nat.mul_one _
  · rw [cut_varying hstorage]
    exact Nat.mul_one _

theorem with_floats {floats : Buffer} (hfloats : floats.size = value.floats.size) :
    { value with floats := floats }.Over points := by
  refine ⟨h.size.imp_left fun hempty => ?_, hfloats.trans h.floats⟩
  subst hempty
  have hnil : floats = #[] := Array.eq_empty_of_size_eq_zero hfloats
  rw [hnil]
  rfl

end Over

/-- Values all of which are over so many points. -/
def AllOver (points : Nat) (values : Array Value) : Prop :=
  ∀ (n : Nat) (value : Value), values[n]? = some value → value.Over points

theorem AllOver.set {values : Array Value} {n : Nat} (h : AllOver points values)
    (hvalue : value.Over points) : AllOver points (values.setIfInBounds n value) := by
  intro k other hother
  rw [Array.getElem?_setIfInBounds] at hother
  split at hother
  · split at hother
    · exact Option.some.inj hother ▸ hvalue
    · cases hother
  · exact h k other hother

theorem AllOver.cut {values : Array Value} (h : AllOver points values) (hi : i < points) :
    AllOver 1 (values.map (Value.cut · i)) := by
  intro n value hvalue
  rw [Array.getElem?_map, Option.map_eq_some_iff] at hvalue
  obtain ⟨whole, hwhole, rfl⟩ := hvalue
  exact (h n whole hwhole).cut hi

/-! ### Reading -/

theorem element_lt {storage : Storage} (hi : i < points) :
    storage.element i < storage.size points := by
  cases storage
  · exact Nat.zero_lt_one
  · exact hi

@[simp] theorem cut_shape? : (value.cut i).shape? = value.shape? := by
  rw [shape?, shape?, cut_components, cut_storage]

/-- A float of the element that point `i` reads, and of the only element of the cut. -/
theorem getElem?_cut {c : Nat} (hc : c < value.components) :
    (value.cut i).floats[c]? = value.floats[value.storage.element i * value.components + c]? := by
  obtain hstorage | hstorage := value.storage.uniform_or_varying
  · rw [cut_uniform hstorage, hstorage, Storage.element, Nat.zero_mul, Nat.zero_add]
  · rw [cut_varying hstorage, hstorage, Storage.element, getElem?_cutFloats, if_pos hc]

theorem getElem?_cut_with_floats {floats : Buffer} {c : Nat} (hc : c < value.components) :
    ({ value with floats := floats }.cut i).floats[c]?
      = floats[value.storage.element i * value.components + c]? :=
  getElem?_cut hc

/-- Rewriting a value rewrites its cuts. -/
theorem cut_rewriteAt {chosen : Nat → Bool} {new : Nat → Float32 → Float32} :
    ({ value with floats := rewriteAt chosen new value.floats }.cut i).floats
      = rewriteAt (fun c => chosen (value.storage.element i * value.components + c))
          (fun c => new (value.storage.element i * value.components + c)) (value.cut i).floats := by
  obtain hstorage | hstorage := value.storage.uniform_or_varying
  · rw [cut_uniform hstorage, hstorage, Storage.element, Nat.zero_mul]
    simp only [Nat.zero_add]
    rfl
  · rw [cut_with_floats hstorage, cut_varying hstorage, hstorage]
    exact cutFloats_rewriteAt

/-- Reading at an element of a result that is varying if the value is. -/
theorem element_element {storage result : Storage} (h : storage = .varying → result = .varying) :
    storage.element (result.element i) = storage.element i := by
  cases storage with
  | uniform => rfl
  | varying => rw [h rfl]; rfl

theorem element_zero (storage : Storage) : storage.element 0 = 0 := by
  cases storage <;> rfl

variable {result : Storage}

/-- The type matters only if there is an element for every point. -/
theorem cut_float (hone : value.storage = .varying → value.components = 1)
    (hresult : value.storage = .varying → result = .varying) :
    (value.cut i).float 0 = value.float (result.element i) := by
  unfold float
  rw [element_zero, element_element hresult]
  refine fetch_congr ?_
  obtain hstorage | hstorage := value.storage.uniform_or_varying
  · rw [cut_uniform hstorage, hstorage]
    rfl
  · have hone := hone hstorage
    rw [getElem?_cut (by omega), hone, Nat.mul_one, Nat.add_zero]

theorem cut_vec3 (hthree : value.components = 3)
    (hresult : value.storage = .varying → result = .varying) :
    (value.cut i).vec3 0 = value.vec3 (result.element i) := by
  unfold vec3
  rw [element_zero, element_element hresult]
  have hread : ∀ c < 3, fetch (value.cut i).floats (0 * 3 + c)
      = fetch value.floats (value.storage.element i * 3 + c) := by
    intro c hc
    refine fetch_congr ?_
    rw [Nat.zero_mul, Nat.zero_add, getElem?_cut (by omega), hthree]
  dsimp only
  rw [hread 1 (by decide), hread 2 (by decide)]
  exact congrArg (· >>= _) (hread 0 (by decide))

/-! ### Fresh values -/

theorem components_le (type : ElementType) : type.components ≤ 16 := by
  cases type <;> decide

variable {type : ElementType} {storage : Storage} {out : Value}

theorem zeros_over (type : ElementType) (storage : Storage) :
    (zeros type storage (storage.size points)).Over points :=
  ⟨.inr rfl, Array.size_replicate⟩

theorem cut_zeros (hi : i < points) :
    (zeros type storage (storage.size points)).cut i = zeros type storage (storage.size 1) := by
  cases storage with
  | uniform => rfl
  | varying =>
    have hfloats : cutFloats type.components i (Array.replicate (type.components * points) 0)
        = Array.replicate (type.components * 1) 0 := by
      apply Array.ext_getElem?
      intro c
      rw [getElem?_cutFloats, Array.getElem?_replicate, Array.getElem?_replicate, Nat.mul_one]
      by_cases hc : c < type.components
      · have hplace := block_le (w := type.components) hi
        rw [if_pos hc, if_pos hc, if_pos (by omega)]
      · rw [if_neg hc, if_neg hc]
    exact congrArg (fun floats => { zeros type .varying 1 with floats := floats }) hfloats

theorem allocate_cut (hi : i < points)
    (h : allocate type storage (storage.size points) = .ok out) :
    allocate type storage (storage.size 1) = .ok (out.cut i) := by
  obtain ⟨-, rfl⟩ := allocate_eq_ok.mp h
  have hle := components_le type
  refine allocate_eq_ok.mpr ⟨?_, cut_zeros hi⟩
  cases storage <;> simp only [Storage.size] <;> omega

theorem allocate_over (h : allocate type storage (storage.size points) = .ok out) :
    out.Over points := by
  obtain ⟨-, rfl⟩ := allocate_eq_ok.mp h
  exact zeros_over type storage

theorem ensure_cut (hvalue : value.Over points) (hi : i < points)
    (h : value.ensure type storage (storage.size points) = .ok out) :
    (value.cut i).ensure type storage (storage.size 1) = .ok (out.cut i) := by
  unfold ensure at h ⊢
  rw [hvalue.cut_fits]
  split at h
  next hfits => rw [if_pos hfits, Except.ok.inj h]
  next hfits =>
    rw [if_neg hfits]
    exact allocate_cut hi h

theorem ensure_over (hvalue : value.Over points)
    (h : value.ensure type storage (storage.size points) = .ok out) : out.Over points := by
  unfold ensure at h
  split at h
  · exact Except.ok.inj h ▸ hvalue
  · exact allocate_over h

end Value

end Shading
