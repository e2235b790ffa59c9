import Shading.Proofs.Derivatives

namespace Shading

/-!
# Exchanging the columns and rows of a grid

A surface over a grid, and the same surface over the grid whose columns are the rows of the first: what
changes along the rows of one changes along the columns of the other.  The normal is the cross product
of the two changes, so it stays the same if the scene is wound the other way round.

* `Value.Transposed` — two values that are the same but for the exchange;
* `Setting.calculatenormal_triple` — the normals of a surface;
* `Builtin.transposing_swaps_directions` — derivatives and normals of the two.
-/

variable {width height : Nat} {value transposed : Value} {element : Nat → Nat → Vec3}

/-- Two varying values of triples over grids of `width` columns and `height` rows, and of `height`
    columns and `width` rows: what the first has in column `x` and row `y`, the second has in column `y`
    and row `x`. -/
structure Value.Transposed (width height : Nat) (value transposed : Value) : Prop where
  type_eq : transposed.type = value.type
  storage_eq : value.storage = .varying
  storage_eq' : transposed.storage = .varying
  isOver : value.Over (width * height)
  isOver' : transposed.Over (height * width)
  vec3_eq : ∀ x < width, ∀ y < height,
    transposed.vec3 (x * height + y) = value.vec3 (y * width + x)

namespace Value

theorem transposed_of_samples (htype : transposed.type = value.type)
    (h : value.Samples Value.vec3 width height element)
    (h' : transposed.Samples Value.vec3 height width fun x y => element y x) :
    value.Transposed width height transposed where
  type_eq := htype
  storage_eq := h.storage_eq
  storage_eq' := h'.storage_eq
  isOver := h.isOver
  isOver' := h'.isOver
  vec3_eq x hx y hy := (h'.read_eq y hy x hx).trans (h.read_eq x hx y hy).symm

theorem Transposed.exists_samples (htriple : value.type.isTriple = true)
    (h : value.Transposed width height transposed) :
    ∃ element, value.Samples Value.vec3 width height element ∧
      transposed.Samples Value.vec3 height width fun x y => element y x := by
  obtain ⟨element, hsamples⟩ := exists_samples_vec3 h.isOver h.storage_eq htriple
  refine ⟨element, hsamples, h.isOver', h.storage_eq', fun y hy x hx => ?_⟩
  rw [h.vec3_eq x hx y hy, hsamples.read_eq x hx y hy]

end Value

/-- The normal at a point, from the changes in the two directions there. -/
def Scene.normal (scene : Scene) (u v : Vec3) : Vec3 :=
  if scene.leftHanded then u.cross v else v.cross u

/-- In a scene that is wound the other way round, the two directions change places. -/
theorem Scene.normal_swap {scene other : Scene} (h : scene.leftHanded ≠ other.leftHanded) (u v : Vec3) :
    other.normal v u = scene.normal u v := by
  unfold normal
  cases hscene : scene.leftHanded <;> cases hother : other.leftHanded <;> simp_all

/-- **Normals.**  The normal of a surface at each of its points. -/
theorem Setting.calculatenormal_triple {setting : Setting} (htriple : value.type.isTriple = true)
    (hroom : 4 * value.floats.size < 0x8000000000000000)
    (h : value.Samples Value.vec3 setting.width setting.height element) :
    ∃ normals, Builtin.calculatenormal.run setting #[value] = .ok (.result normals) ∧
      normals.type = .normal ∧
      normals.Samples Value.vec3 setting.width setting.height fun x y => setting.scene.normal
        (Direction.u.change .zero setting.width setting.height element x y)
        (Direction.v.change .zero setting.width setting.height element x y) := by
  obtain ⟨du, hdu, -, hu⟩ := difference_triple .u htriple h
  obtain ⟨dv, hdv, -, hv⟩ := difference_triple .v htriple h
  have hfetch : fetch #[value] 0 = .ok value := rfl
  have hrequire : requireTriple "calculatenormal" value = .ok () := if_pos htriple
  have hallocate : Value.allocate .normal .varying (setting.width * setting.height)
      = .ok (.zeros .normal .varying (setting.width * setting.height)) := by
    rw [h.isOver.floats_of_varying h.storage_eq, Value.components_of_isTriple htriple] at hroom
    exact Value.allocate_eq_ok.mpr ⟨hroom, rfl⟩
  suffices hnormals : ∃ normals, setting.calculatenormal #[value] = .ok normals ∧
      normals.type = .normal ∧ normals.Samples Value.vec3 setting.width setting.height _ by
    obtain ⟨normals, hrun, hnormals⟩ := hnormals
    exact ⟨normals, map_eq_ok.mpr ⟨normals, hrun, rfl⟩, hnormals⟩
  unfold calculatenormal triples
  rw [hfetch, ok_bind, hrequire, ok_bind, hdu, ok_bind, hdv, ok_bind, h.storage_eq]
  show ∃ normals, (Value.allocate .normal .varying (setting.width * setting.height) >>= _) = _ ∧ _
  rw [hallocate, ok_bind]
  refine tabulate_places _ ?_
    fun triples hcount hentry => ⟨_, rfl, rfl, Value.samples_triples rfl hcount hentry⟩
  intro x hx y hy
  rw [hu.read_eq x hx y hy, hv.read_eq x hx y hy]
  rfl

/-- **Transposition.**  Exchanging the columns and rows of a surface exchanges its derivatives, and
    leaves its normals as they are if the scene is wound the other way round. -/
theorem Builtin.transposing_swaps_directions (htriple : value.type.isTriple = true)
    (h : value.Transposed width height transposed) (scene other : Scene) (mask mask' : Option Mask) :
    ∃ du dv du' dv',
      (Builtin.derivative .u).run ⟨scene, width, height, mask⟩ #[value] = .ok (.result du) ∧
      (Builtin.derivative .v).run ⟨scene, width, height, mask⟩ #[value] = .ok (.result dv) ∧
      (Builtin.derivative .u).run ⟨other, height, width, mask'⟩ #[transposed] = .ok (.result du') ∧
      (Builtin.derivative .v).run ⟨other, height, width, mask'⟩ #[transposed] = .ok (.result dv') ∧
      dv.Transposed width height du' ∧ du.Transposed width height dv' ∧
      (4 * value.floats.size < 0x8000000000000000 → scene.leftHanded ≠ other.leftHanded →
        ∃ normals normals',
          Builtin.calculatenormal.run ⟨scene, width, height, mask⟩ #[value]
            = .ok (.result normals) ∧
          Builtin.calculatenormal.run ⟨other, height, width, mask'⟩ #[transposed]
            = .ok (.result normals') ∧
          normals.Transposed width height normals') := by
  have htriple' : transposed.type.isTriple = true := h.type_eq ▸ htriple
  obtain ⟨element, hsamples, hsamples'⟩ := h.exists_samples htriple
  have hchanges := (@Setting.differentiates_triple ⟨scene, width, height, mask⟩ _ _ htriple
    hsamples).changes
  have hchanges' := (@Setting.differentiates_triple ⟨other, height, width, mask'⟩ _ _ htriple'
    hsamples').changes
  obtain ⟨du, hdu, hdutype, hu⟩ := hchanges .u
  obtain ⟨dv, hdv, hdvtype, hv⟩ := hchanges .v
  obtain ⟨du', hdu', hdutype', hu'⟩ := hchanges' .u
  obtain ⟨dv', hdv', hdvtype', hv'⟩ := hchanges' .v
  refine ⟨du, dv, du', dv', hdu, hdv, hdu', hdv', ?_, ?_, fun hroom hhand => ?_⟩
  · exact Value.transposed_of_samples (by rw [hdutype', hdvtype, h.type_eq]) hv hu'
  · exact Value.transposed_of_samples (by rw [hdvtype', hdutype, h.type_eq]) hu hv'
  · have hroom' : 4 * transposed.floats.size < 0x8000000000000000 := by
      rw [h.isOver'.floats_of_varying h.storage_eq', Value.components_of_isTriple htriple',
        Nat.mul_comm height]
      rwa [h.isOver.floats_of_varying h.storage_eq, Value.components_of_isTriple htriple] at hroom
    obtain ⟨normals, hnormals, htype, hn⟩ :=
      @Setting.calculatenormal_triple _ _ ⟨scene, width, height, mask⟩ htriple hroom hsamples
    obtain ⟨normals', hnormals', htype', hn'⟩ :=
      @Setting.calculatenormal_triple _ _ ⟨other, height, width, mask'⟩ htriple' hroom' hsamples'
    refine ⟨normals, normals', hnormals, hnormals',
      Value.transposed_of_samples (htype'.trans htype.symm) hn ?_⟩
    refine ⟨hn'.isOver, hn'.storage_eq, fun y hy x hx => (hn'.read_eq y hy x hx).trans ?_⟩
    -- the change in the one direction is that in the other direction of the other surface
    exact congrArg Except.ok (Scene.normal_swap hhand _ _)

/-- The points of `lattice` in two columns and three rows. -/
def latticeAcross : Value :=
  ⟨.point, .varying, 6, #[0, 0, 0, 0, 2, 0, 1, 0, 0, 1, 2, 0, 2, 0, 0, 2, 2, 0], none⟩

theorem lattice_transposed : lattice.Transposed 3 2 latticeAcross := by
  refine ⟨rfl, rfl, rfl, ⟨.inr rfl, rfl⟩, ⟨.inr rfl, rfl⟩, fun x hx y hy => ?_⟩
  obtain rfl | rfl | rfl : x = 0 ∨ x = 1 ∨ x = 2 := by omega
  all_goals
    obtain rfl | rfl : y = 0 ∨ y = 1 := by omega
    all_goals simp [Value.vec3, lattice, latticeAcross, fetch, Storage.element]

/-- One scene is right handed, the other one left handed. -/
theorem Builtin.transposing_swaps_directions_lattice :
    lattice.Transposed 3 2 latticeAcross ∧ ∃ dv du' normals normals',
      (Builtin.derivative .v).run ⟨.still, 3, 2, none⟩ #[lattice] = .ok (.result dv) ∧
      (Builtin.derivative .u).run ⟨{ Scene.still with leftHanded := true }, 2, 3, none⟩ #[latticeAcross]
        = .ok (.result du') ∧
      dv.Transposed 3 2 du' ∧
      Builtin.calculatenormal.run ⟨.still, 3, 2, none⟩ #[lattice] = .ok (.result normals) ∧
      Builtin.calculatenormal.run ⟨{ Scene.still with leftHanded := true }, 2, 3, none⟩ #[latticeAcross]
        = .ok (.result normals') ∧
      normals.Transposed 3 2 normals' := by
  obtain ⟨_, dv, du', _, -, hdv, hdu', -, hsurface, -, hnormals⟩ :=
    transposing_swaps_directions rfl lattice_transposed .still { Scene.still with leftHanded := true }
      none none
  obtain ⟨normals, normals', hrun, hrun', htransposed⟩ := hnormals (by decide) (by decide)
  exact ⟨lattice_transposed, dv, du', normals, normals', hdv, hdu', hsurface, hrun, hrun', htransposed⟩

end Shading
