import Shading.Proofs.Outputs

namespace Shading

/-!
# Values and their elements

The buffer of a value is flat, and the type of the value cuts it into elements.  However a value came
about, there is a float for every component of every element.  So each element can be read, and what
is written at a point is what the point reads afterwards.

* `Value.IsFilled` — values with all their floats;
* `Value.Made` — the values that come of constructors and operations, and `Value.Made.isFilled`;
* `Value.element` — what a point reads of a value, as its type says;
* `Value.Writes`, `Value.Spreads` — what writing one element and broadcasting leave;
* `Value.Made.obeys_element_laws` — the laws of all values.
-/

/-- The loop that tabulates succeeds if every entry can be computed. -/
theorem exists_tabulate {α : Type} {n : Nat} {f : Nat → Except Fault α}
    (h : ∀ k < n, ∃ x, f k = .ok x) : ∃ xs, tabulate n f = .ok xs := by
  choose entry hentry using h
  refine ⟨Array.ofFn fun k : Fin n => entry k k.isLt, tabulate_eq_ok.mpr ⟨Array.size_ofFn, ?_⟩⟩
  intro k x hx
  obtain ⟨hlt, rfl⟩ := Array.getElem?_eq_some_iff.mp hx
  rw [Array.size_ofFn] at hlt
  simpa using hentry k hlt

/-! ### Filled values -/

namespace Value

variable {value next : Value} {type : ElementType} {storage : Storage} {size points i : Nat}
  {x : Float32} {v : Vec3}

/-- There is a float for every component of every element. -/
def IsFilled (value : Value) : Prop := value.floats.size = value.components * value.size

theorem zeros_isFilled (type : ElementType) (storage : Storage) (size : Nat) :
    (zeros type storage size).IsFilled :=
  Array.size_replicate

theorem IsFilled.with_floats {floats : Buffer} (h : value.IsFilled)
    (hfloats : floats.size = value.floats.size) : { value with floats := floats }.IsFilled :=
  hfloats.trans h

theorem allocate_isFilled (h : allocate type storage size = .ok next) : next.IsFilled := by
  obtain ⟨-, rfl⟩ := allocate_eq_ok.mp h
  exact zeros_isFilled type storage size

theorem ensure_isFilled (hvalue : value.IsFilled) (h : value.ensure type storage size = .ok next) :
    next.IsFilled := by
  unfold ensure at h
  split at h
  · exact Except.ok.inj h ▸ hvalue
  · exact allocate_isFilled h

theorem broadcast_isFilled (hvalue : value.IsFilled) (h : value.broadcast points = .ok next) :
    next.IsFilled := by
  obtain hstorage | hstorage := value.storage.uniform_or_varying
  · obtain ⟨-, floats, ⟨hsize, -⟩, rfl⟩ := (broadcast_eq_ok hstorage).mp h
    exact hsize
  · rw [broadcast, hstorage] at h
    exact Except.ok.inj h ▸ hvalue

theorem setFloat_iff : value.setFloat i x = .ok next ↔
    value.storage.element i < value.floats.size ∧
      next = { value with floats := value.floats.setIfInBounds (value.storage.element i) x } := by
  simp only [setFloat, bind_eq_ok, store_eq_ok, pure_eq_ok]
  constructor
  · rintro ⟨_, ⟨hlt, rfl⟩, rfl⟩
    exact ⟨hlt, rfl⟩
  · rintro ⟨hlt, rfl⟩
    exact ⟨_, ⟨hlt, rfl⟩, rfl⟩

/-- The floats with the triple that starts at `base` overwritten. -/
def putTriple (floats : Buffer) (base : Nat) (v : Vec3) : Buffer :=
  ((floats.setIfInBounds base v.x).setIfInBounds (base + 1) v.y).setIfInBounds (base + 2) v.z

@[simp] theorem size_putTriple (floats : Buffer) (base : Nat) (v : Vec3) :
    (putTriple floats base v).size = floats.size := by
  simp [putTriple]

theorem setVec3_iff : value.setVec3 i v = .ok next ↔
    value.storage.element i * 3 + 2 < value.floats.size ∧
      next = { value with floats := putTriple value.floats (value.storage.element i * 3) v } := by
  simp only [setVec3, bind_eq_ok, store_eq_ok, pure_eq_ok]
  constructor
  · rintro ⟨_, ⟨-, rfl⟩, _, ⟨-, rfl⟩, _, ⟨hlt, rfl⟩, rfl⟩
    exact ⟨by simpa using hlt, rfl⟩
  · rintro ⟨hlt, rfl⟩
    exact ⟨_, ⟨by omega, rfl⟩, _, ⟨by simp; omega, rfl⟩, _, ⟨by simp; omega, rfl⟩, rfl⟩

theorem varyingVec3_isFilled {triples : List Vec3} (h : varyingVec3 type triples = .ok value) :
    value.IsFilled := by
  unfold varyingVec3 at h
  split at h
  next htriple =>
    obtain rfl := Except.ok.inj h
    have hthree : type.components = 3 := beq_iff_eq.mp htriple
    have hlength : (triples.flatMap fun v => [v.x, v.y, v.z]).length = 3 * triples.length := by
      simp [Nat.mul_comm]
    exact hlength.trans (congrArg (· * triples.length) hthree.symm)
  next => cases h

/-- The values that constructors and operations give. -/
inductive Made : Value → Prop
  | empty : Made empty
  | make {type : ElementType} {storage : Storage} {size : Nat} {value : Value}
      (h : make type storage size = .ok value) : Made value
  | uniformFloat (x : Float32) : Made (uniformFloat x)
  | uniformVec3 {type : ElementType} {v : Vec3} {value : Value}
      (h : uniformVec3 type v = .ok value) : Made value
  | uniformMatrix (m : Mat4) : Made (uniformMatrix m)
  | uniformString (text : String) : Made (uniformString text)
  | varyingFloat (floats : Buffer) : Made (varyingFloat floats)
  | varyingVec3 {type : ElementType} {triples : List Vec3} {value : Value}
      (h : varyingVec3 type triples = .ok value) : Made value
  | reset {value next : Value} {type : ElementType} {storage : Storage} {size : Nat}
      (before : Made value) (h : value.reset type storage size = .ok next) : Made next
  | ensure {value next : Value} {type : ElementType} {storage : Storage} {size : Nat}
      (before : Made value) (h : value.ensure type storage size = .ok next) : Made next
  | retype {value next : Value} {type : ElementType} (before : Made value)
      (h : value.retype type = .ok next) : Made next
  | clear {value : Value} (before : Made value) : Made value.clear
  | setFloat {value next : Value} {i : Nat} {x : Float32} (before : Made value)
      (h : value.setFloat i x = .ok next) : Made next
  | setVec3 {value next : Value} {i : Nat} {v : Vec3} (before : Made value)
      (h : value.setVec3 i v = .ok next) : Made next
  | broadcast {value next : Value} {points : Nat} (before : Made value)
      (h : value.broadcast points = .ok next) : Made next

/-- **Floats.**  Whatever was done to a value, it has all its floats. -/
theorem Made.isFilled (h : value.Made) : value.IsFilled := by
  induction h with
  | empty => exact zeros_isFilled .float .uniform 0
  | make h =>
    unfold Value.make at h
    split at h
    · exact allocate_isFilled h
    · cases h
  | uniformFloat x => rfl
  | uniformVec3 h =>
    unfold Value.uniformVec3 at h
    split at h
    next htriple =>
      obtain rfl := Except.ok.inj h
      exact (beq_iff_eq.mp htriple).symm.trans (Nat.mul_one _).symm
    next => cases h
  | uniformMatrix m => rfl
  | uniformString text => exact zeros_isFilled .string .uniform 1
  | varyingFloat floats => exact (Nat.one_mul _).symm
  | varyingVec3 h => exact varyingVec3_isFilled h
  | reset _ h => exact allocate_isFilled h
  | ensure _ h ih => exact ensure_isFilled ih h
  | retype _ h ih =>
    unfold Value.retype at h
    split at h
    next hsame =>
      obtain rfl := Except.ok.inj h
      exact ih.trans (congrArg (· * _) hsame)
    next => cases h
  | clear _ ih => exact ih.with_floats Array.size_replicate
  | setFloat _ h ih =>
    obtain ⟨-, rfl⟩ := setFloat_iff.mp h
    exact ih.with_floats Array.size_setIfInBounds
  | setVec3 _ h ih =>
    obtain ⟨-, rfl⟩ := setVec3_iff.mp h
    exact ih.with_floats (size_putTriple _ _ _)
  | broadcast _ h ih => exact broadcast_isFilled ih h

end Value

/-! ### Elements -/

/-- What a point reads of a value: the element, or the text that a string has instead. -/
inductive Element
  | float (x : Float32)
  | triple (v : Vec3)
  | matrix (m : Mat4)
  | text (text : Option String)

theorem lt_size_congr {α : Type} {xs ys : Array α} {a b : Nat} (h : xs[a]? = ys[b]?) :
    a < xs.size ↔ b < ys.size := by
  simp only [← Nat.not_le, ← Array.getElem?_eq_none_iff, h]

theorem Mat4.ofFn_congr {f g : Nat → Float32} (h : ∀ k < 16, f k = g k) : ofFn f = ofFn g := by
  simp [ofFn, h]

namespace Value

variable {value next : Value} {points i j : Nat} {x : Float32} {v : Vec3} {floats : Buffer}

/-- The element that point `i` reads. -/
def element (value : Value) (i : Nat) : Except Fault Element :=
  match value.type with
  | .float => Element.float <$> value.float i
  | .point | .vector | .normal | .color => Element.triple <$> value.vec3 i
  | .matrix => Element.matrix <$> value.matrix i
  | .string => .ok (.text value.text)

theorem element_eq_float (htype : value.type = .float) (h : value.float i = .ok x) :
    value.element i = .ok (.float x) := by
  rw [element, htype, h]
  rfl

theorem element_eq_triple (htype : value.type.isTriple = true) (h : value.vec3 i = .ok v) :
    value.element i = .ok (.triple v) := by
  unfold element
  cases hvalue : value.type <;> rw [hvalue] at htype
  case point | vector | normal | color =>
    rw [h]
    rfl
  all_goals cases htype

/-- The components of an element that is there lie within the buffer. -/
theorem IsFilled.component_lt (h : value.IsFilled) (hi : value.storage.element i < value.size)
    {c : Nat} (hc : c < value.components) :
    value.storage.element i * value.components + c < value.floats.size := by
  have hblock := block_le (w := value.components) hi
  rw [h]
  omega

/-- **Reading.**  Every element of a value with all its floats can be read. -/
theorem IsFilled.exists_element (h : value.IsFilled) (hi : value.storage.element i < value.size) :
    ∃ element, value.element i = .ok element := by
  have hlt := @IsFilled.component_lt _ _ h hi
  unfold element
  cases htype : value.type with
  | float =>
    rw [components, htype] at hlt
    have hread : value.float i = .ok _ :=
      fetch_eq_ok.mpr (Array.getElem?_eq_getElem (by simpa [ElementType.components] using @hlt 0))
    exact ⟨_, map_eq_ok.mpr ⟨_, hread, rfl⟩⟩
  | matrix =>
    rw [components, htype] at hlt
    have hreach : value.storage.element i * 16 + 15 < value.floats.size := hlt (by decide)
    exact ⟨_, map_eq_ok.mpr ⟨_, if_pos hreach, rfl⟩⟩
  | string => exact ⟨_, rfl⟩
  | point | vector | normal | color =>
    rw [components, htype] at hlt
    obtain ⟨v, hv⟩ := exists_vec3 value i (hlt (by decide))
    exact ⟨_, map_eq_ok.mpr ⟨v, hv, rfl⟩⟩

/-- Points read the same of two values with the same floats at their elements. -/
theorem element_congr (htype : next.type = value.type) (htext : next.text = value.text)
    (h : ∀ c < value.components, next.floats[next.storage.element i * value.components + c]?
      = value.floats[value.storage.element j * value.components + c]?) :
    next.element i = value.element j := by
  unfold element
  rw [htype, htext]
  unfold components at h
  cases hvalue : value.type with
  | float =>
    rw [hvalue] at h
    refine congrArg (Element.float <$> ·) (fetch_congr ?_)
    simpa [ElementType.components] using h 0 (by decide)
  | matrix =>
    rw [hvalue] at h
    refine congrArg (Element.matrix <$> ·) ?_
    have hget : ∀ c < 16, next.floats[next.storage.element i * 16 + c]?
        = value.floats[value.storage.element j * 16 + c]? := h
    -- both reach as far as the last component, or neither does
    have hreach : next.storage.element i * 16 + 16 ≤ next.floats.size ↔
        value.storage.element j * 16 + 16 ≤ value.floats.size := by
      exact lt_size_congr (hget 15 (by decide))
    have hmatrix : (Mat4.ofFn fun k => next.floats.getD (next.storage.element i * 16 + k) 0)
        = Mat4.ofFn fun k => value.floats.getD (value.storage.element j * 16 + k) 0 := by
      refine Mat4.ofFn_congr fun c hc => ?_
      rw [Array.getD_eq_getD_getElem?, hget c hc, Array.getD_eq_getD_getElem?]
    simp only [matrix, hreach, hmatrix]
  | string => rfl
  | point | vector | normal | color =>
    rw [hvalue] at h
    refine congrArg (Element.triple <$> ·) ?_
    have hread : ∀ c < 3, fetch next.floats (next.storage.element i * 3 + c)
        = fetch value.floats (value.storage.element j * 3 + c) := fun c hc => fetch_congr (h c hc)
    have hfirst : fetch next.floats (next.storage.element i * 3)
        = fetch value.floats (value.storage.element j * 3) := hread 0 (by decide)
    simp only [vec3]
    rw [hfirst, hread 1 (by decide), hread 2 (by decide)]

/-! ### Writing and broadcasting -/

/-- The value with another element at point `i`: every point reads it if the value is uniform, and no
    other point does if the value is varying. -/
structure Writes (value : Value) (i : Nat) (element : Element) (next : Value) : Prop where
  same_shape : ∃ floats, next = { value with floats := floats }
  here : next.element i = .ok element
  everywhere : value.storage = .uniform → ∀ j, next.element j = .ok element
  elsewhere : value.storage = .varying → ∀ j, j ≠ i → next.element j = value.element j

/-- The varying value over so many points that each of them reads as it reads the given one. -/
structure Spreads (value : Value) (points : Nat) (next : Value) : Prop where
  type_eq : next.type = value.type
  storage_eq : next.storage = .varying
  size_eq : next.size = points
  text_eq : next.text = value.text
  element_eq : ∀ i < points, next.element i = value.element i

/-- Other floats make another element at one point if the components of its element are other ones,
    and those of all others the same. -/
theorem Writes.of_floats {element : Element}
    (hhere : ∀ j, value.storage.element j = value.storage.element i →
      { value with floats := floats }.element j = .ok element)
    (helsewhere : ∀ e, e ≠ value.storage.element i → ∀ c < value.components,
      floats[e * value.components + c]? = value.floats[e * value.components + c]?) :
    value.Writes i element { value with floats := floats } where
  same_shape := ⟨floats, rfl⟩
  here := hhere i rfl
  everywhere hstorage j := hhere j (by rw [hstorage]; rfl)
  elsewhere hstorage j hj := by
    refine element_congr rfl rfl (helsewhere _ ?_)
    rw [hstorage]
    exact hj

theorem setFloat_writes (htype : value.type = .float) (h : value.setFloat i x = .ok next) :
    value.Writes i (.float x) next := by
  obtain ⟨hlt, rfl⟩ := setFloat_iff.mp h
  refine .of_floats (fun j hj => ?_) fun e he c hc => ?_
  · refine element_eq_float ?_ (fetch_eq_ok.mpr ?_)
    · exact htype
    · simp [hj, hlt]
  · rw [components_of_float htype] at hc ⊢
    exact Array.getElem?_setIfInBounds_ne (by omega)

/-- The floats of a triple that was overwritten, and those around it. -/
theorem getElem?_putTriple {base k : Nat} (h : base + 2 < floats.size) :
    (putTriple floats base v)[k]? = if k = base then some v.x else if k = base + 1 then some v.y
      else if k = base + 2 then some v.z else floats[k]? := by
  unfold putTriple
  grind

theorem setVec3_writes (htype : value.type.isTriple = true) (h : value.setVec3 i v = .ok next) :
    value.Writes i (.triple v) next := by
  obtain ⟨hlt, rfl⟩ := setVec3_iff.mp h
  refine .of_floats (fun j hj => ?_) fun e he c hc => ?_
  · refine element_eq_triple ?_ (vec3_eq_ok.mpr ?_)
    · exact htype
    · simp [hj, getElem?_putTriple hlt]
  · rw [components_of_isTriple htype] at hc ⊢
    rw [getElem?_putTriple hlt, if_neg (by omega), if_neg (by omega), if_neg (by omega)]

theorem broadcast_spreads (hstorage : value.storage = .uniform)
    (h : value.broadcast points = .ok next) : value.Spreads points next := by
  obtain ⟨-, floats, ⟨hsize, hfloats⟩, rfl⟩ := (broadcast_eq_ok hstorage).mp h
  refine ⟨rfl, rfl, rfl, rfl, fun i hi => element_congr rfl rfl fun c hc => ?_⟩
  have hblock := block_le (w := value.components) hi
  have hread : floats[i * value.components + c]? = some floats[i * value.components + c] :=
    Array.getElem?_eq_getElem (by omega)
  have hshown := hfloats _ _ hread
  rw [block_mod hc] at hshown
  rw [hstorage]
  simp [Storage.element, hshown]

/-- A uniform value that has an element can be given to every point, if there is room. -/
theorem IsFilled.exists_broadcast (h : value.IsFilled) (hstorage : value.storage = .uniform)
    (hsize : 0 < value.size) :
    (∃ next, value.broadcast points = .ok next) ↔
      4 * (value.components * points) < 0x8000000000000000 := by
  constructor
  · rintro ⟨next, hnext⟩
    exact ((broadcast_eq_ok hstorage).mp hnext).1
  · intro hroom
    obtain ⟨floats, hfloats⟩ : ∃ floats, tabulate (value.components * points)
        (fun k => fetch value.floats (k % value.components)) = .ok floats := by
      refine exists_tabulate fun k hk => ⟨_, fetch_eq_ok.mpr (Array.getElem?_eq_getElem ?_)⟩
      have hpos : 0 < value.components := Nat.pos_of_mul_pos_right (Nat.zero_lt_of_lt hk)
      rw [h]
      exact Nat.lt_of_lt_of_le (Nat.mod_lt k hpos) (Nat.le_mul_of_pos_right _ hsize)
    obtain ⟨hcount, hall⟩ := tabulate_eq_ok.mp hfloats
    exact ⟨_, (broadcast_eq_ok hstorage).mpr ⟨hroom, floats, ⟨hcount, fun k x hx =>
      fetch_eq_ok.mp (hall k x hx)⟩, rfl⟩⟩

/-- A float can be written at the points whose element is there. -/
theorem IsFilled.exists_setFloat (h : value.IsFilled) (htype : value.type = .float) :
    (∃ next, value.setFloat i x = .ok next) ↔ value.storage.element i < value.size := by
  have hsize : value.floats.size = 1 * value.size := components_of_float htype ▸ h
  simp only [setFloat_iff, exists_and_left, exists_eq, and_true]
  omega

/-- A triple can be written at the points whose element is there. -/
theorem IsFilled.exists_setVec3 (h : value.IsFilled) (htype : value.type.isTriple = true) :
    (∃ next, value.setVec3 i v = .ok next) ↔ value.storage.element i < value.size := by
  have hsize : value.floats.size = 3 * value.size := components_of_isTriple htype ▸ h
  simp only [setVec3_iff, exists_and_left, exists_eq, and_true]
  omega

/-- **Values and their elements.**  Whatever was done to a value, it has a float for every component
    of every element, and every element can be read.  A reset leaves zeros whatever was held, and
    `ensure` resets the values of another shape alone.  A broadcast value reads as the uniform value
    it came of, and what is written at a point is what the point reads afterwards, with all other
    elements as they were. -/
theorem Made.obeys_element_laws (h : value.Made) :
    value.floats.size = value.components * value.size ∧
      (∀ i, value.storage.element i < value.size → ∃ element, value.element i = .ok element) ∧
      (∀ type storage size next, value.reset type storage size = .ok next ↔
        4 * (type.components * size) < 0x8000000000000000 ∧ next = zeros type storage size) ∧
      (∀ type storage size, value.ensure type storage size =
        if value.type = type ∧ value.storage = storage ∧ value.size = size then .ok value
        else value.reset type storage size) ∧
      (value.storage = .varying → ∀ points, value.broadcast points = .ok value) ∧
      (value.storage = .uniform → 0 < value.size → ∀ points,
        ((∃ next, value.broadcast points = .ok next) ↔
          4 * (value.components * points) < 0x8000000000000000) ∧
        ∀ next, value.broadcast points = .ok next → value.Spreads points next) ∧
      (value.type = .float → ∀ i x,
        ((∃ next, value.setFloat i x = .ok next) ↔ value.storage.element i < value.size) ∧
        ∀ next, value.setFloat i x = .ok next → value.Writes i (.float x) next) ∧
      (value.type.isTriple = true → ∀ i v,
        ((∃ next, value.setVec3 i v = .ok next) ↔ value.storage.element i < value.size) ∧
        ∀ next, value.setVec3 i v = .ok next → value.Writes i (.triple v) next) := by
  have hfilled := h.isFilled
  refine ⟨hfilled, fun i => hfilled.exists_element, fun type storage size next => ?_,
    fun type storage size => ?_, fun hstorage points => ?_, fun hstorage hsize points => ?_,
    fun htype i x => ?_, fun htype i v => ?_⟩
  · exact allocate_eq_ok
  · simp only [Value.ensure, fits_iff]
  · rw [Value.broadcast, hstorage]
  · exact ⟨hfilled.exists_broadcast hstorage hsize, fun next => broadcast_spreads hstorage⟩
  · exact ⟨hfilled.exists_setFloat htype, fun next => setFloat_writes htype⟩
  · exact ⟨hfilled.exists_setVec3 htype, fun next => setVec3_writes htype⟩

/-- A point spread over two points, and moved at the second of them. -/
theorem Made.obeys_element_laws_of_moved_point :
    let origin : Value := ⟨.point, .uniform, 1, #[1, 2, 3], none⟩
    ∃ spread moved, origin.broadcast 2 = .ok spread ∧ spread.setVec3 1 ⟨4, 5, 6⟩ = .ok moved ∧
      moved.element 0 = .ok (.triple ⟨1, 2, 3⟩) ∧ moved.element 1 = .ok (.triple ⟨4, 5, 6⟩) := by
  intro origin
  have hmake : Value.uniformVec3 .point ⟨1, 2, 3⟩ = .ok origin := rfl
  have horigin : origin.Made := .uniformVec3 hmake
  obtain ⟨-, -, -, -, -, hbroadcast, -⟩ := horigin.obeys_element_laws
  obtain ⟨hroom, hspreads⟩ := hbroadcast rfl (by decide) 2
  obtain ⟨spread, hspread⟩ := hroom.mpr (by decide)
  obtain ⟨htype, hstorage, hsize, -, hread⟩ := hspreads spread hspread
  obtain ⟨-, -, -, -, -, -, -, hset⟩ := (horigin.broadcast hspread).obeys_element_laws
  obtain ⟨hthere, hwrites⟩ := hset (by rw [htype]; rfl) 1 ⟨4, 5, 6⟩
  obtain ⟨moved, hmoved⟩ := hthere.mpr (by rw [hstorage, hsize]; decide)
  obtain ⟨-, hhere, -, helsewhere⟩ := hwrites moved hmoved
  refine ⟨spread, moved, hspread, hmoved, ?_, hhere⟩
  rw [helsewhere hstorage 0 (by decide), hread 0 (by decide)]
  exact element_eq_triple rfl rfl

end Value

end Shading
