import Shading.Proofs.Faults
import Shading.Proofs.Outputs

namespace Shading

/-!
# Derivatives over a grid

The point in column `x` and row `y` of a grid has number `y * width + x`.  A derivative compares it with
the next point of its row or of its column, or at the far edge repeats the change before it.  Where
there is no second column or row, nothing changes.

* `Direction.change` — the change of what is in columns and rows;
* `neighbours?_cases` — which points are compared, all of them points of the grid;
* `Value.Samples` — a varying value, told by its element in each column and row;
* `Builtin.derivatives_read_neighbours` — the derivatives and the area of a value.
-/

variable {α : Type} {width height x y : Nat}

/-! ### Points of a grid -/

theorem place_lt (hx : x < width) (hy : y < height) : y * width + x < width * height := by
  have hrow : y * width + width ≤ width * height := block_le hy
  omega

theorem exists_place {i : Nat} (hi : i < width * height) :
    ∃ x < width, ∃ y < height, i = y * width + x := by
  have hwidth : 0 < width := Nat.pos_of_mul_pos_right (Nat.lt_of_le_of_lt (Nat.zero_le i) hi)
  exact ⟨i % width, Nat.mod_lt i hwidth, i / width, Nat.div_lt_of_lt_mul hi,
    (Nat.div_add_mod' i width).symm⟩

/-- How many points there are in a direction. -/
def Direction.extent (width height : Nat) : Direction → Nat
  | .u => width
  | .v => height

/-- The change of the elements from column to column or from row to row, that of the last column or row
    being the one before it. -/
def Direction.change [Sub α] (direction : Direction) (zero : α) (width height : Nat)
    (element : Nat → Nat → α) (x y : Nat) : α :=
  match direction with
  | .u =>
    if 2 ≤ width then
      element (min x (width - 2) + 1) y - element (min x (width - 2)) y
    else zero
  | .v =>
    if 2 ≤ height then
      element x (min y (height - 2) + 1) - element x (min y (height - 2))
    else zero

/-- The neighbours of a point are two points of the grid, and the change is their difference; or there
    are none, and no change. -/
theorem neighbours?_cases [Sub α] (zero : α) (element : Nat → Nat → α) (hx : x < width)
    (hy : y < height) (direction : Direction) :
    (∃ a < width, ∃ b < height, ∃ c < width, ∃ d < height,
      neighbours? width height direction (y * width + x) = some (b * width + a, d * width + c) ∧
      direction.change zero width height element x y = element c d - element a b) ∨
    direction.extent width height < 2 ∧
      neighbours? width height direction (y * width + x) = none ∧
      direction.change zero width height element x y = zero := by
  cases direction with
  | u =>
    simp only [neighbours?, Direction.change, block_mod hx, block_div hx]
    by_cases hwidth : 2 ≤ width
    · rw [if_pos hwidth, if_pos (show 1 < width from hwidth)]
      exact .inl ⟨min x (width - 2), by omega, y, hy, min x (width - 2) + 1, by omega, y, hy, rfl, rfl⟩
    · rw [if_neg hwidth, if_neg (show ¬ 1 < width from hwidth)]
      exact .inr ⟨Nat.lt_of_not_le hwidth, rfl, rfl⟩
  | v =>
    simp only [neighbours?, Direction.change, block_mod hx, block_div hx]
    by_cases hheight : 2 ≤ height
    · rw [if_pos hheight, if_pos (show 1 < height from hheight)]
      exact .inl ⟨x, hx, min y (height - 2), by omega, x, hx, min y (height - 2) + 1, by omega, rfl,
        rfl⟩
    · rw [if_neg hheight, if_neg (show ¬ 1 < height from hheight)]
      exact .inr ⟨Nat.lt_of_not_le hheight, rfl, rfl⟩

theorem neighbours?_lt {direction : Direction} {i a b : Nat} (hi : i < width * height)
    (h : neighbours? width height direction i = some (a, b)) :
    a < width * height ∧ b < width * height := by
  obtain ⟨x, hx, y, hy, rfl⟩ := exists_place hi
  obtain ⟨_, ha, _, hb, _, hc, _, hd, hsome, -⟩ | ⟨-, hnone, -⟩ :=
    neighbours?_cases 0 (fun _ _ => 0) hx hy direction
  · cases hsome.symm.trans h
    exact ⟨place_lt ha hb, place_lt hc hd⟩
  · cases hnone.symm.trans h

/-- An array is computed point by point if every entry can be, and what is made of it is made of the
    entries in their columns and rows. -/
theorem tabulate_places {β : Type} {f : Nat → Except Fault α} {make : Array α → Except Fault β}
    {made : β → Prop} (element : Nat → Nat → α)
    (h : ∀ x < width, ∀ y < height, f (y * width + x) = .ok (element x y))
    (hmake : ∀ xs : Array α, xs.size = width * height →
      (∀ x < width, ∀ y < height, xs[y * width + x]? = some (element x y)) →
      ∃ b, make xs = .ok b ∧ made b) :
    ∃ b, tabulate (width * height) f >>= make = .ok b ∧ made b := by
  have hentry : ∀ x < width, ∀ y < height, (Array.ofFn fun i : Fin (width * height) =>
      element (i % width) (i / width))[y * width + x]? = some (element x y) := by
    intro x hx y hy
    rw [Array.getElem?_ofFn, dif_pos (place_lt hx hy)]
    simp only [block_mod hx, block_div hx]
  obtain ⟨b, hb, hmade⟩ := hmake _ Array.size_ofFn hentry
  refine ⟨b, bind_eq_ok.mpr ⟨_, tabulate_eq_ok.mpr ⟨Array.size_ofFn, fun i entry hi => ?_⟩, hb⟩, hmade⟩
  have hlt : i < width * height := by simpa using (Array.getElem?_eq_some_iff.mp hi).1
  obtain ⟨x, hx, y, hy, rfl⟩ := exists_place hlt
  rw [h x hx y hy, ← Option.some.inj ((hentry x hx y hy).symm.trans hi)]

/-! ### Values over a grid -/

namespace Value

/-- A varying value over a grid of the given dimensions, read in some way as elements: the one in
    column `x` and row `y` is `element x y`. -/
structure Samples (read : Value → Nat → Except Fault α) (width height : Nat)
    (element : Nat → Nat → α) (value : Value) : Prop where
  isOver : value.Over (width * height)
  storage_eq : value.storage = .varying
  read_eq : ∀ x < width, ∀ y < height, read value (y * width + x) = .ok (element x y)

variable {value : Value}

theorem exists_samples {read : Value → Nat → Except Fault α} [Inhabited α]
    (hover : value.Over (width * height)) (hstorage : value.storage = .varying)
    (hread : ∀ i < width * height, ∃ a, read value i = .ok a) :
    ∃ element, value.Samples read width height element := by
  refine ⟨fun x y => (read value (y * width + x)).toOption.getD default, hover, hstorage, ?_⟩
  intro x hx y hy
  obtain ⟨a, ha⟩ := hread _ (place_lt hx hy)
  rw [ha]
  rfl

theorem exists_samples_float (hover : value.Over (width * height)) (hstorage : value.storage = .varying)
    (htype : value.type = .float) : ∃ element, value.Samples Value.float width height element := by
  refine exists_samples hover hstorage fun i hi => ?_
  have hsize := hover.floats_of_varying hstorage
  rw [components_of_float htype, Nat.one_mul] at hsize
  exact ⟨value.floats[i], by rw [float, hstorage]; exact fetch_eq_ok.mpr (Array.getElem?_eq_getElem _)⟩

theorem exists_samples_vec3 (hover : value.Over (width * height)) (hstorage : value.storage = .varying)
    (htype : value.type.isTriple = true) :
    ∃ element, value.Samples Value.vec3 width height element := by
  refine exists_samples hover hstorage fun i hi => exists_vec3 value i ?_
  have hsize := hover.floats_of_varying hstorage
  have hblock := @block_le 3 i _ hi
  rw [components_of_isTriple htype] at hsize
  rw [hstorage, hsize]
  show i * 3 + 2 < _
  omega

variable {element : Nat → Nat → Float32} {triple : Nat → Nat → Vec3}

theorem samples_floats {floats : Buffer} (hsize : floats.size = width * height)
    (h : ∀ x < width, ∀ y < height, floats[y * width + x]? = some (element x y)) :
    (Value.mk .float .varying (width * height) floats none).Samples Value.float width height
      element where
  isOver := ⟨.inr rfl, hsize.trans (Nat.one_mul _).symm⟩
  storage_eq := rfl
  read_eq x hx y hy := fetch_eq_ok.mpr (h x hx y hy)

theorem samples_triples {type : ElementType} {triples : Array Vec3} (htype : type.isTriple = true)
    (hsize : triples.size = width * height)
    (h : ∀ x < width, ∀ y < height, triples[y * width + x]? = some (triple x y)) :
    (Value.mk type .varying (width * height) (triples.flatMap fun v => #[v.x, v.y, v.z]) none).Samples
      Value.vec3 width height triple where
  isOver := by
    refine ⟨.inr rfl, Setting.size_flatMap_triples.trans ?_⟩
    rw [hsize, components_of_isTriple htype]
  storage_eq := rfl
  read_eq x hx y hy := by
    have hentry : ∀ c < 3, (triples.flatMap fun v => #[v.x, v.y, v.z])[(y * width + x) * 3 + c]?
        = #[(triple x y).x, (triple x y).y, (triple x y).z][c]? := by
      intro c hc
      rw [getElem?_flatMap_triples hc, h x hx y hy]
      rfl
    exact vec3_eq_ok.mpr ⟨hentry 0 (by decide), hentry 1 (by decide), hentry 2 (by decide)⟩

end Value

/-! ### Derivatives and areas -/

namespace Setting

variable {setting : Setting} {value : Value}

theorem difference_uniform {direction : Direction} (hstorage : value.storage = .uniform)
    (htype : value.type = .float ∨ value.type.isTriple = true) :
    setting.difference direction value = .ok (.zeros value.type .uniform value.size) := by
  unfold difference
  rw [if_neg (by tauto), hstorage]
  rfl

theorem difference_float {element : Nat → Nat → Float32} (direction : Direction)
    (htype : value.type = .float)
    (h : value.Samples Value.float setting.width setting.height element) :
    ∃ change, setting.difference direction value = .ok change ∧ change.type = .float ∧
      change.Samples Value.float setting.width setting.height
        (direction.change 0 setting.width setting.height element) := by
  have hsize := h.isOver.size_of_varying h.storage_eq
  unfold difference
  rw [if_neg (by simp [htype]), h.storage_eq, htype, hsize]
  dsimp only
  rw [if_neg (by simp), if_pos rfl]
  refine tabulate_places (direction.change 0 setting.width setting.height element) ?_
    fun floats hcount hentry => ⟨_, rfl, rfl, Value.samples_floats hcount hentry⟩
  intro x hx y hy
  obtain ⟨a, ha, b, hb, c, hc, d, hd, hpair, hchange⟩ | ⟨-, hpair, hchange⟩ :=
    neighbours?_cases 0 element hx hy direction
  · simp only [hpair, h.read_eq a ha b hb, h.read_eq c hc d hd, hchange]
    rfl
  · simp only [hpair, hchange]
    rfl

theorem difference_triple {element : Nat → Nat → Vec3} (direction : Direction)
    (htype : value.type.isTriple = true)
    (h : value.Samples Value.vec3 setting.width setting.height element) :
    ∃ change, setting.difference direction value = .ok change ∧ change.type = value.type ∧
      change.Samples Value.vec3 setting.width setting.height
        (direction.change .zero setting.width setting.height element) := by
  have hsize := h.isOver.size_of_varying h.storage_eq
  have hfloat : value.type ≠ .float := by
    intro hfloat
    rw [hfloat] at htype
    cases htype
  unfold difference
  rw [if_neg (by simp [htype]), h.storage_eq, hsize]
  dsimp only
  rw [if_neg (by simp), if_neg hfloat]
  refine tabulate_places (direction.change .zero setting.width setting.height element) ?_
    fun triples hcount hentry => ⟨_, rfl, rfl, Value.samples_triples htype hcount hentry⟩
  intro x hx y hy
  obtain ⟨a, ha, b, hb, c, hc, d, hd, hpair, hchange⟩ | ⟨-, hpair, hchange⟩ :=
    neighbours?_cases .zero element hx hy direction
  · simp only [hpair, h.read_eq a ha b hb, h.read_eq c hc d hd, hchange]
    rfl
  · simp only [hpair, hchange]
    rfl

theorem area_uniform (hstorage : value.storage = .uniform) (htype : value.type.isTriple = true) :
    setting.area #[value] = .ok (.zeros .float .uniform value.size) := by
  have hfetch : fetch #[value] 0 = .ok value := rfl
  have htriple : requireTriple "area" value = .ok () := if_pos htype
  unfold area
  have huniform : value.isUniform = true := by rw [Value.isUniform, hstorage]; rfl
  rw [hfetch, ok_bind, htriple, ok_bind, if_pos (.inl huniform), hstorage]
  rfl

/-- The area at a point is the product of the lengths of the two changes there. -/
theorem area_triple {element : Nat → Nat → Vec3} (htype : value.type.isTriple = true)
    (h : value.Samples Value.vec3 setting.width setting.height element) :
    ∃ areas, setting.area #[value] = .ok areas ∧ areas.type = .float ∧
      areas.Samples Value.float setting.width setting.height fun x y =>
        if 2 ≤ setting.width ∧ 2 ≤ setting.height then
          (Direction.u.change .zero setting.width setting.height element x y).length *
            (Direction.v.change .zero setting.width setting.height element x y).length
        else 0 := by
  have hsize := h.isOver.size_of_varying h.storage_eq
  have hfetch : fetch #[value] 0 = .ok value := rfl
  have htriple : requireTriple "area" value = .ok () := if_pos htype
  have hvarying : value.isUniform = false := by rw [Value.isUniform, h.storage_eq]; rfl
  unfold area
  rw [hfetch, ok_bind, htriple, ok_bind, hvarying, h.storage_eq, hsize]
  by_cases hflat : setting.width < 2 ∨ setting.height < 2
  · rw [if_pos (.inr hflat)]
    refine ⟨_, rfl, rfl, Value.samples_floats (by simp [ElementType.components]) fun x hx y hy => ?_⟩
    rw [if_neg (by omega), Array.getElem?_replicate, if_pos]
    rw [ElementType.components, Nat.one_mul]
    exact place_lt hx hy
  · rw [if_neg (by simpa using hflat)]
    refine tabulate_places _ ?_
      fun floats hcount hentry => ⟨_, rfl, rfl, Value.samples_floats hcount hentry⟩
    intro x hx y hy
    obtain ⟨a, ha, b, hb, c, hc, d, hd, hu, hchangeu⟩ | ⟨hnarrow, -⟩ :=
      neighbours?_cases .zero element hx hy .u
    · obtain ⟨a', ha', b', hb', c', hc', d', hd', hv, hchangev⟩ | ⟨hlow, -⟩ :=
        neighbours?_cases .zero element hx hy .v
      · rw [if_pos (by omega), hchangeu, hchangev]
        simp only [hu, hv, h.read_eq a ha b hb, h.read_eq c hc d hd, h.read_eq a' ha' b' hb',
          h.read_eq c' hc' d' hd']
        rfl
      · exact absurd (.inr hlow) hflat
    · exact absurd (.inl hnarrow) hflat

/-- What the derivatives of a varying value are, when its elements are read in some way. -/
structure Differentiates [Sub α] (setting : Setting) (read : Value → Nat → Except Fault α) (zero : α)
    (element : Nat → Nat → α) (value : Value) : Prop where
  samples : value.Samples read setting.width setting.height element
  changes : ∀ direction, ∃ change,
    (Builtin.derivative direction).run setting #[value] = .ok (.result change) ∧
    change.type = value.type ∧
    change.Samples read setting.width setting.height
      (direction.change zero setting.width setting.height element)

theorem run_derivative {direction : Direction} {change : Value}
    (h : setting.difference direction value = .ok change) :
    (Builtin.derivative direction).run setting #[value] = .ok (.result change) := by
  have hfetch : fetch #[value] 0 = .ok value := rfl
  rw [Builtin.run, derivative, hfetch, ok_bind, h]
  rfl

theorem differentiates_float {element : Nat → Nat → Float32} (htype : value.type = .float)
    (h : value.Samples Value.float setting.width setting.height element) :
    setting.Differentiates Value.float 0 element value where
  samples := h
  changes direction := by
    obtain ⟨change, hchange, hfloat, hsamples⟩ := difference_float direction htype h
    exact ⟨change, run_derivative hchange, hfloat.trans htype.symm, hsamples⟩

theorem differentiates_triple {element : Nat → Nat → Vec3} (htype : value.type.isTriple = true)
    (h : value.Samples Value.vec3 setting.width setting.height element) :
    setting.Differentiates Value.vec3 .zero element value where
  samples := h
  changes direction := by
    obtain ⟨change, hchange, hsame, hsamples⟩ := difference_triple direction htype h
    exact ⟨change, run_derivative hchange, hsame, hsamples⟩

end Setting

/-- **Derivatives.**  The derivatives of a varying value over a grid are the changes of its elements
    from column to column and from row to row, and the area of a value of triples is the product of
    their lengths, as long as there are two columns and two rows.  A uniform value has derivatives and
    an area of zero.  Only points of the grid are read, whatever its dimensions. -/
theorem Builtin.derivatives_read_neighbours (setting : Setting) {value : Value}
    (hvalue : value.Over setting.points)
    (htype : value.type = .float ∨ value.type.isTriple = true) :
    (∀ direction i a b, i < setting.points →
      neighbours? setting.width setting.height direction i = some (a, b) →
      a < setting.points ∧ b < setting.points) ∧
    (value.storage = .uniform →
      (∀ direction, (Builtin.derivative direction).run setting #[value]
        = .ok (.result (.zeros value.type .uniform value.size))) ∧
      (value.type.isTriple = true → Builtin.area.run setting #[value]
        = .ok (.result (.zeros .float .uniform value.size)))) ∧
    (value.storage = .varying → value.type = .float →
      ∃ element, setting.Differentiates Value.float 0 element value) ∧
    (value.storage = .varying → value.type.isTriple = true →
      ∃ element, setting.Differentiates Value.vec3 .zero element value ∧
        ∃ areas, Builtin.area.run setting #[value] = .ok (.result areas) ∧ areas.type = .float ∧
          areas.Samples Value.float setting.width setting.height fun x y =>
            if 2 ≤ setting.width ∧ 2 ≤ setting.height then
              (Direction.u.change .zero setting.width setting.height element x y).length *
                (Direction.v.change .zero setting.width setting.height element x y).length
            else 0) := by
  refine ⟨fun direction i a b => neighbours?_lt, fun hstorage => ⟨fun direction => ?_, ?_⟩, ?_, ?_⟩
  · exact Setting.run_derivative (Setting.difference_uniform hstorage htype)
  · intro htriple
    exact map_eq_ok.mpr ⟨_, Setting.area_uniform hstorage htriple, rfl⟩
  · intro hstorage hfloat
    obtain ⟨element, hsamples⟩ := Value.exists_samples_float hvalue hstorage hfloat
    exact ⟨element, Setting.differentiates_float hfloat hsamples⟩
  · intro hstorage htriple
    obtain ⟨element, hsamples⟩ := Value.exists_samples_vec3 hvalue hstorage htriple
    obtain ⟨areas, hareas, harea⟩ := Setting.area_triple htriple hsamples
    exact ⟨element, Setting.differentiates_triple htriple hsamples, areas,
      map_eq_ok.mpr ⟨areas, hareas, rfl⟩, harea⟩

/-- Three columns one apart and two rows two apart. -/
def lattice : Value :=
  ⟨.point, .varying, 6, #[0, 0, 0, 1, 0, 0, 2, 0, 0, 0, 2, 0, 1, 2, 0, 2, 2, 0], none⟩

/-- At the far corner, the changes are those from the column and from the row before. -/
theorem Builtin.derivatives_read_neighbours_lattice :
    lattice.Over (3 * 2) ∧ ∃ du dv,
      (Builtin.derivative .u).run ⟨.still, 3, 2, none⟩ #[lattice] = .ok (.result du) ∧
      du.vec3 5 = .ok ⟨1, 0, 0⟩ ∧
      (Builtin.derivative .v).run ⟨.still, 3, 2, none⟩ #[lattice] = .ok (.result dv) ∧
      dv.vec3 5 = .ok ⟨0, 2, 0⟩ := by
  have hover : lattice.Over (3 * 2) := ⟨.inr rfl, rfl⟩
  obtain ⟨-, -, -, htriples⟩ :=
    derivatives_read_neighbours ⟨.still, 3, 2, none⟩ hover (.inr rfl)
  obtain ⟨element, hdifferentiates, -⟩ := htriples rfl rfl
  obtain ⟨du, hdu, -, hu⟩ := hdifferentiates.changes .u
  obtain ⟨dv, hdv, -, hv⟩ := hdifferentiates.changes .v
  have hread := hdifferentiates.samples.read_eq
  have hcorner : element 2 1 = ⟨2, 2, 0⟩ := Except.ok.inj ((hread 2 (by decide) 1 (by decide)).symm)
  have hbefore : element 1 1 = ⟨1, 2, 0⟩ := Except.ok.inj ((hread 1 (by decide) 1 (by decide)).symm)
  have habove : element 2 0 = ⟨2, 0, 0⟩ := Except.ok.inj ((hread 2 (by decide) 0 (by decide)).symm)
  refine ⟨hover, du, dv, hdu, ?_, hdv, ?_⟩
  · refine (hu.read_eq 2 (by decide) 1 (by decide)).trans ?_
    show Except.ok (element 2 1 - element 1 1) = _
    rw [hcorner, hbefore]
    rfl
  · refine (hv.read_eq 2 (by decide) 1 (by decide)).trans ?_
    show Except.ok (element 2 1 - element 2 0) = _
    rw [hcorner, habove]
    rfl

end Shading
