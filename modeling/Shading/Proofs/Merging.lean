import Shading.Proofs.Broadcasting

namespace Shading

/-!
# Masked assignments merge

Under a mask, an assignment leaves what it would leave without one at the points that the mask
selects, and what was there before at all others.

* `Update.Spans` — buffers that are long enough for an assignment;
* `Update.Assigns` — the buffer after an assignment to every element;
* `Update.Merges` — the buffer after an assignment under a mask;
* `Update.run_merges` — what assignments do with a mask and without.
-/

namespace Update

variable {update : Update} {destination source full : Buffer} {mask : Option Mask} {points : Nat}

/-- The buffers hold their operands over so many points. -/
structure Spans (update : Update) (destination source : Buffer) (points : Nat) : Prop where
  destination : update.destination.extent points ≤ destination.size
  source : update.source.extent points ≤ source.size

/-- Every component of every element is made once, of the float that was there and of what the source
    shows there.  The floats beyond the destination stay. -/
structure Assigns (update : Update) (destination source : Buffer) (points : Nat) (full : Buffer) :
    Prop where
  size_eq : full.size = destination.size
  written : ∀ e < update.destination.storage.size points, ∀ c < update.destination.width.count,
    ∃ old, destination[e * update.destination.width.count + c]? = some old ∧
      full[e * update.destination.width.count + c]?
        = some (update.operator.apply old (update.source.view source e c))
  beyond : ∀ k, update.destination.extent points ≤ k → full[k]? = destination[k]?

/-- The elements of `full` where the mask selects the point, and those of `destination` where it does
    not. -/
structure Merges (update : Update) (mask : Mask) (points : Nat) (destination full out : Buffer) :
    Prop where
  size_eq : out.size = destination.size
  merged : ∀ i < points, ∀ c < update.destination.width.count,
    out[i * update.destination.width.count + c]?
      = if mask.getD i false then full[i * update.destination.width.count + c]?
        else destination[i * update.destination.width.count + c]?
  beyond : ∀ k, update.destination.extent points ≤ k → out[k]? = destination[k]?

/-! ### Places -/

/-- What the source must reach for a component of the destination. -/
theorem Fits.reaches (h : update.Fits) {c : Nat} (hc : c < update.destination.width.count) :
    update.source.Reaches c := by
  rcases h.2 with hsame | hone
  · exact .inr (hsame ▸ hc)
  · exact .inl hone

/-- The source varies at most where the destination does. -/
theorem Fits.element_lt (h : update.Fits) {e : Nat}
    (he : e < update.destination.storage.size points) :
    update.source.storage = .varying → e < points := by
  intro hvarying
  rwa [h.1 hvarying] at he

theorem place_lt {e c : Nat} (he : e < update.destination.storage.size points)
    (hc : c < update.destination.width.count) :
    e * update.destination.width.count + c < update.destination.extent points := by
  rw [Shape.extent_eq, Nat.mul_comm (update.destination.storage.size points)]
  exact Nat.lt_of_lt_of_le (Nat.add_lt_add_left hc _) (block_le he)

theorem Spans.covers (h : update.Spans destination source points) (hfits : update.Fits) {e : Nat}
    (he : e < update.destination.storage.size points) : update.Covers destination source e := by
  intro c hc
  refine ⟨Nat.lt_of_lt_of_le (place_lt he hc) h.destination, ?_⟩
  exact Nat.lt_of_lt_of_le (Shape.place_lt_extent (hfits.element_lt he) (hfits.reaches hc)) h.source

/-! ### Loops -/

/-- The buffer that an assignment leaves. -/
def result (update : Update) (destination source : Buffer) (mask : Option Mask) (points : Nat) :
    Buffer :=
  rewriteAt (fun k => k / update.destination.width.count < update.destination.storage.size points &&
      update.isWritten mask (k / update.destination.width.count))
    (update.written source) destination

/-- A mask is asked for its entries only if the destination varies. -/
theorem run_eq_result (hfits : update.Fits) (hspans : update.Spans destination source points)
    (hmask : update.destination.storage = .varying → ∀ m, mask = some m → points ≤ m.size) :
    update.run destination source mask points
      = .ok (update.result destination source mask points) := by
  refine run_eq_ok.mpr ⟨fun e he => ?_, rfl⟩
  suffices hwrites : ∃ b, update.writes mask e = .ok b by
    obtain ⟨b, hb⟩ := hwrites
    exact ⟨b, hb, fun _ => hspans.covers hfits he⟩
  unfold writes
  cases hstorage : update.destination.storage with
  | uniform => exact ⟨true, rfl⟩
  | varying =>
    cases mask with
    | none => exact ⟨true, rfl⟩
    | some m =>
      rw [hstorage] at he
      have hlt : e < m.size := Nat.lt_of_lt_of_le he (hmask hstorage m rfl)
      exact ⟨m[e], fetch_eq_ok.mpr (Array.getElem?_eq_getElem hlt)⟩

@[simp] theorem size_result :
    (update.result destination source mask points).size = destination.size :=
  size_rewriteAt

theorem getElem?_result {e c : Nat} (he : e < update.destination.storage.size points)
    (hc : c < update.destination.width.count) :
    (update.result destination source mask points)[e * update.destination.width.count + c]?
      = if update.isWritten mask e then
          destination[e * update.destination.width.count + c]?.map
            (update.written source (e * update.destination.width.count + c))
        else destination[e * update.destination.width.count + c]? := by
  rw [result, getElem?_rewriteAt, block_div hc, decide_eq_true he, Bool.true_and]

theorem result_beyond {k : Nat} (hk : update.destination.extent points ≤ k) :
    (update.result destination source mask points)[k]? = destination[k]? := by
  have hnot : ¬ k / update.destination.width.count < update.destination.storage.size points := by
    rw [Nat.not_lt, Nat.le_div_iff_mul_le (width_pos _), ← Shape.extent_eq]
    exact hk
  rw [result, getElem?_rewriteAt, decide_eq_false hnot, Bool.false_and, if_neg Bool.false_ne_true]

/-- What is written is made of what the source shows. -/
theorem written_eq (hfits : update.Fits) (hspans : update.Spans destination source points) {e c : Nat}
    (he : e < update.destination.storage.size points) (hc : c < update.destination.width.count)
    (old : Float32) :
    update.written source (e * update.destination.width.count + c) old
      = update.operator.apply old (update.source.view source e c) := by
  have hshown := Shape.fetch_view hspans.source (hfits.element_lt he) (hfits.reaches hc)
  rw [written, block_div hc, block_mod hc, getD_of_getElem? (fetch_eq_ok.mp hshown)]

theorem result_none (hfits : update.Fits) (hspans : update.Spans destination source points) :
    update.Assigns destination source points (update.result destination source none points) := by
  refine ⟨size_result, fun e he c hc => ?_, fun k => result_beyond⟩
  have hplace := Nat.lt_of_lt_of_le (place_lt he hc) hspans.destination
  have hall : update.isWritten none e = true := by
    unfold isWritten
    cases update.destination.storage <;> rfl
  refine ⟨_, Array.getElem?_eq_getElem hplace, ?_⟩
  rw [getElem?_result he hc, if_pos hall, Array.getElem?_eq_getElem hplace, Option.map_some,
    written_eq hfits hspans he hc]

theorem result_some (hstorage : update.destination.storage = .varying) (m : Mask) :
    update.Merges m points destination (update.result destination source none points)
      (update.result destination source (some m) points) := by
  refine ⟨size_result, fun i hi c hc => ?_, fun k => result_beyond⟩
  have he : i < update.destination.storage.size points := by rwa [hstorage]
  rw [getElem?_result he hc, getElem?_result he hc]
  simp only [isWritten, hstorage, isActiveAt_none, isActiveAt_some, if_true]

/-- Masks that agree on all points, or a uniform destination, make no difference. -/
theorem result_congr {mask' : Option Mask}
    (h : update.destination.storage = .varying →
      ∀ i < points, isActiveAt mask i = isActiveAt mask' i) :
    update.result destination source mask points = update.result destination source mask' points := by
  refine rewriteAt_congr fun k old _ => ?_
  by_cases hk : k / update.destination.width.count < update.destination.storage.size points
  · have hwritten : update.isWritten mask (k / update.destination.width.count)
        = update.isWritten mask' (k / update.destination.width.count) := by
      unfold isWritten
      cases hstorage : update.destination.storage with
      | uniform => rfl
      | varying =>
        rw [hstorage] at hk
        exact h hstorage _ hk
    rw [hwritten]
  · simp only [decide_eq_false hk, Bool.false_and]

/-- **Masked assignments.**  Every assignment with buffers that are long enough writes each element
    once.  Under a mask, a varying destination gets the elements that it would get without it where
    the mask selects the point and keeps its own elsewhere; a mask of all points is no mask, and to a
    uniform destination no mask matters. -/
theorem run_merges {instruction : Instruction} (hupdate : ofInstruction? instruction = some update)
    (hspans : update.Spans destination source points) :
    ∃ full, update.run destination source none points = .ok full ∧
      update.Assigns destination source points full ∧
      (update.destination.storage = .varying → ∀ m : Mask, points ≤ m.size →
        ∃ out, update.run destination source (some m) points = .ok out ∧
          update.Merges m points destination full out) ∧
      (∀ m : Mask, points ≤ m.size → (∀ i < points, m[i]? = some true) →
        update.run destination source (some m) points = .ok full) ∧
      (update.destination.storage = .uniform → ∀ mask,
        update.run destination source mask points = .ok full) := by
  have hfits := fits_of_ofInstruction? hupdate
  refine ⟨_, run_eq_result hfits hspans (by simp), result_none hfits hspans, ?_, ?_, ?_⟩
  · intro hvarying m hsize
    refine ⟨_, run_eq_result hfits hspans ?_, result_some hvarying m⟩
    rintro - _ ⟨⟩
    exact hsize
  · intro m hsize htrue
    rw [run_eq_result hfits hspans (by rintro - _ ⟨⟩; exact hsize)]
    refine congrArg Except.ok (result_congr fun _ i hi => ?_)
    rw [isActiveAt_some, getD_of_getElem? (htrue i hi), isActiveAt_none]
  · intro huniform mask
    have hnot : update.destination.storage ≠ .varying := by simp [huniform]
    rw [run_eq_result hfits hspans fun hvarying => absurd hvarying hnot]
    exact congrArg Except.ok (result_congr fun hvarying => absurd hvarying hnot)

/-- A varying float scales a varying triple. -/
def scaleInPlace : Instruction :=
  ⟨.assign .multiply, .pair ⟨.varying, .three⟩ ⟨.varying, .one⟩⟩

theorem run_merges_scaleInPlace :
    ofInstruction? scaleInPlace = some ⟨.multiply, ⟨.varying, .three⟩, ⟨.varying, .one⟩⟩ ∧
      Spans ⟨.multiply, ⟨.varying, .three⟩, ⟨.varying, .one⟩⟩ #[1, 1, 1, 2, 2, 2, 7] #[2, 3] 2 ∧
      ∃ full out,
        run ⟨.multiply, ⟨.varying, .three⟩, ⟨.varying, .one⟩⟩ #[1, 1, 1, 2, 2, 2, 7] #[2, 3]
          none 2 = .ok full ∧
        run ⟨.multiply, ⟨.varying, .three⟩, ⟨.varying, .one⟩⟩ #[1, 1, 1, 2, 2, 2, 7] #[2, 3]
          (some #[false, true]) 2 = .ok out ∧
        (∀ c < 3, out[c]? = some 1) ∧ (∀ c < 3, out[3 + c]? = full[3 + c]?) ∧
        out[6]? = some 7 := by
  have hupdate : ofInstruction? scaleInPlace
      = some ⟨.multiply, ⟨.varying, .three⟩, ⟨.varying, .one⟩⟩ := by
    simp [ofInstruction?, scaleInPlace, Key.shapes?_pair, Assignment.scales]
  have hspans : Spans ⟨.multiply, ⟨.varying, .three⟩, ⟨.varying, .one⟩⟩
      #[1, 1, 1, 2, 2, 2, 7] #[2, 3] 2 := ⟨by decide, by decide⟩
  obtain ⟨full, hfull, -, hmasked, -, -⟩ := run_merges hupdate hspans
  obtain ⟨out, hout, hmerges⟩ := hmasked rfl #[false, true] (by decide)
  refine ⟨hupdate, hspans, full, out, hfull, hout, fun c hc => ?_, fun c hc => ?_, ?_⟩
  · have hfirst := hmerges.merged 0 (by decide) c hc
    obtain rfl | rfl | rfl : c = 0 ∨ c = 1 ∨ c = 2 := by omega
    all_goals exact hfirst
  · exact hmerges.merged 1 (by decide) c hc
  · exact hmerges.beyond 6 (by decide)

end Update

end Shading
