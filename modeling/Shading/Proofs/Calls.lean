import Shading.Proofs.CutBuiltins
import Shading.Proofs.Operands

namespace Shading

/-!
# Calls with a result

A call passes its arguments by moving them, so an argument that stands twice in the list is passed once
as it is and then as the empty value.  A builtin that gives a result all the same gives the one it has
for the values themselves, and nothing but the result is changed.

* `Stripped` — values passed with empty ones in place of repetitions;
* `Builtin.run_of_stripped` — builtins do not give other results for them;
* `Machine.stripped_arguments` — this is how a call passes what its addresses hold;
* `Machine.Executes.changes_only_result` — what a call with a result does.
-/

/-! ### Repeated arguments -/

/-- The values are passed as they are, or as the empty value where they stand earlier in the list. -/
structure Stripped (passed values : Array Value) : Prop where
  size_eq : passed.size = values.size
  kept_or_empty : ∀ (n : Nat) value, values[n]? = some value → passed[n]? = some value ∨
    passed[n]? = some Value.empty ∧ ∃ m < n, passed[m]? = some value ∧ values[m]? = some value

namespace Stripped

variable {passed values : Array Value} (h : Stripped passed values)

include h

theorem getElem?_eq {n : Nat} (hn : passed[n]? ≠ some Value.empty) : passed[n]? = values[n]? := by
  rcases hvalue : values[n]? with _ | value
  · rw [Array.getElem?_eq_none_iff] at hvalue ⊢
    exact h.size_eq ▸ hvalue
  · rcases h.kept_or_empty n value hvalue with hkept | ⟨hempty, -⟩
    · exact hkept
    · exact absurd hempty hn

theorem fetch_eq {n : Nat} (hn : passed[n]? ≠ some Value.empty) :
    fetch passed n = fetch values n :=
  fetch_congr (h.getElem?_eq hn)

/-- The first argument repeats nothing. -/
theorem fetch_zero : fetch passed 0 = fetch values 0 := by
  refine fetch_congr ?_
  rcases hvalue : values[0]? with _ | value
  · rw [Array.getElem?_eq_none_iff] at hvalue ⊢
    exact h.size_eq ▸ hvalue
  · rcases h.kept_or_empty 0 value hvalue with hkept | ⟨-, m, hm, -⟩
    · exact hkept
    · exact absurd hm (Nat.not_lt_zero m)

/-- No float can be read from an empty value. -/
theorem float {n i : Nat} {x x' : Value} {s : Float32} (hx : passed[n]? = some x)
    (hx' : values[n]? = some x') (hs : x.float i = .ok s) : x'.float i = .ok s := by
  have hn : passed[n]? ≠ some Value.empty := by
    intro hempty
    obtain rfl := Option.some.inj (hx.symm.trans hempty)
    simp [Value.float, Value.empty, Value.zeros] at hs
  rw [h.getElem?_eq hn, hx'] at hx
  rwa [Option.some.inj hx]

end Stripped

namespace Setting

variable {setting : Setting} {passed values : Array Value} {out : Value}

theorem ne_empty_of_isTriple {n : Nat} {p : Value} (hp : passed[n]? = some p)
    (htriple : p.type.isTriple = true) : passed[n]? ≠ some Value.empty := by
  intro hempty
  obtain rfl := Option.some.inj (hp.symm.trans hempty)
  cases htriple

theorem distance_stripped (h : Stripped passed values) (hout : setting.distance passed = .ok out) :
    setting.distance values = .ok out := by
  unfold distance at hout ⊢
  have hn : passed[1]? ≠ some Value.empty := by
    simp only [bind_eq_ok, fetch_eq_ok, requireTriple_eq_ok] at hout
    obtain ⟨_, -, q, hq, _, -, _, htriple, -⟩ := hout
    exact ne_empty_of_isTriple hq htriple
  rwa [h.fetch_zero, h.fetch_eq hn] at hout

theorem reflect_stripped (h : Stripped passed values) (hout : setting.reflect passed = .ok out) :
    setting.reflect values = .ok out := by
  unfold reflect at hout ⊢
  have hn : passed[1]? ≠ some Value.empty := by
    simp only [bind_eq_ok, fetch_eq_ok, requireTriple_eq_ok] at hout
    obtain ⟨_, -, q, hq, _, -, _, htriple, -⟩ := hout
    exact ne_empty_of_isTriple hq htriple
  rwa [h.fetch_zero, h.fetch_eq hn] at hout

theorem faceforward_stripped (h : Stripped passed values)
    (hout : setting.faceforward passed = .ok out) : setting.faceforward values = .ok out := by
  unfold faceforward at hout ⊢
  have hn : passed[1]? ≠ some Value.empty ∧ passed[2]? ≠ some Value.empty := by
    simp only [bind_eq_ok, fetch_eq_ok, requireTriple_eq_ok] at hout
    obtain ⟨n, -, incident, hincident, _, -, _, htriple, _, hreference, -⟩ := hout
    refine ⟨ne_empty_of_isTriple hincident htriple, fun hempty => ?_⟩
    rw [hempty] at hreference
    cases hreference
  rwa [h.fetch_zero, h.fetch_eq hn.1, h.getElem?_eq hn.2] at hout

theorem rotate_stripped (h : Stripped passed values) (hout : setting.rotate passed = .ok out) :
    setting.rotate values = .ok out := by
  unfold rotate at hout ⊢
  have hn : passed[1]? ≠ some Value.empty ∧ passed[2]? ≠ some Value.empty ∧
      passed[3]? ≠ some Value.empty := by
    simp only [bind_eq_ok, fetch_eq_ok] at hout
    obtain ⟨q, -, angle, hangle, p0, hp0, p1, hp1, _, -, _, -, _, -, _, -, v1, hv1, v0, hv0, s, hs, -⟩ :=
      hout
    refine ⟨?_, ?_, ?_⟩
    · intro hempty
      obtain rfl := Option.some.inj (hangle.symm.trans hempty)
      cases hs
    · intro hempty
      obtain rfl := Option.some.inj (hp0.symm.trans hempty)
      cases hv0
    · intro hempty
      obtain rfl := Option.some.inj (hp1.symm.trans hempty)
      cases hv1
  rwa [h.fetch_zero, h.fetch_eq hn.1, h.fetch_eq hn.2.1, h.fetch_eq hn.2.2] at hout

/-- A transform takes spaces and matrices before its last argument. -/
theorem type_of_leadingMatrix {scene : Scene} {leading : List Value} {matrix : Mat4}
    (h : leadingMatrix scene leading = .ok matrix) :
    ∀ value ∈ leading, value.type = .string ∨ value.type = .matrix := by
  simp only [leadingMatrix, bind_eq_ok] at h
  obtain ⟨_, -, h⟩ := h
  split at h
  all_goals
    rename_i htypes
    simp_all

theorem transform_stripped {kind : TransformKind} (h : Stripped passed values)
    (hout : setting.transform passed kind = .ok out) : setting.transform values kind = .ok out := by
  have hn : ∀ n : Nat, passed[n]? ≠ some Value.empty := by
    intro n hempty
    unfold transform at hout
    rcases hback : passed.back? with _ | p
    · simp [hback] at hout
    simp only [hback, bind_eq_ok, pure_eq_ok, requireTriple_eq_ok, exists_eq_left'] at hout
    obtain ⟨_, htriple, matrix, hmatrix, -⟩ := hout
    rw [Array.back?_eq_getElem?] at hback
    have hlt : n < passed.size := (Array.getElem?_eq_some_iff.mp hempty).1
    by_cases hlast : n = passed.size - 1
    · -- the last argument is a triple
      exact ne_empty_of_isTriple hback htriple (hlast ▸ hempty)
    · -- the others are spaces and matrices
      have hmem : Value.empty ∈ passed.pop.toList := by
        refine List.mem_iff_getElem?.mpr ⟨n, ?_⟩
        rw [Array.getElem?_toList, Array.getElem?_pop, if_pos (by omega), hempty]
      rcases type_of_leadingMatrix hmatrix _ hmem with htype | htype <;> cases htype
  have heq : passed = values := Array.ext_getElem? fun n => h.getElem?_eq (hn n)
  rwa [heq] at hout

/-- Without an index of refraction nothing can be refracted, unless there are no points at all. -/
theorem refract_stripped (h : Stripped passed values) (hout : setting.refract passed = .ok out) :
    setting.refract values = .ok out := by
  by_cases hempty : passed[2]? = some Value.empty
  · simp only [refract, bind_eq_ok, fetch_eq_ok, requireTriple_eq_ok] at hout ⊢
    obtain ⟨incident, hincident, n, hn, eta, heta, _, htriple, _, hntriple, hout⟩ := hout
    obtain rfl := Option.some.inj (heta.symm.trans hempty)
    have hincident' : values[0]? = some incident := by
      rw [← fetch_eq_ok, ← h.fetch_zero, fetch_eq_ok, hincident]
    have hn' : values[1]? = some n :=
      (h.getElem?_eq (ne_empty_of_isTriple hn hntriple)).symm.trans hn
    have hlt : 2 < values.size := h.size_eq ▸ (Array.getElem?_eq_some_iff.mp hempty).1
    have heta' := Array.getElem?_eq_getElem hlt
    generalize values[2] = eta at heta'
    -- the index of refraction is one of the vectors, so it makes the result no wider
    have hstorage : widestOf [incident, n, eta] = widestOf [incident, n, Value.empty] := by
      have hsame : eta = incident ∨ eta = n ∨ eta = Value.empty := by
        rcases h.kept_or_empty 2 eta heta' with hkept | ⟨-, m, hm, -, hvalue⟩
        · exact .inr (.inr (Option.some.inj (hkept.symm.trans hempty)))
        · rcases Nat.lt_succ_iff_lt_or_eq.mp hm with hm | rfl
          · obtain rfl := Nat.lt_one_iff.mp hm
            exact .inl (Option.some.inj (hvalue.symm.trans hincident'))
          · exact .inr (.inl (Option.some.inj (hvalue.symm.trans hn')))
      rcases hsame with rfl | rfl | rfl
      · cases hI : eta.storage <;> cases hN : n.storage <;> simp [widestOf, hI, hN] <;> rfl
      · cases hI : incident.storage <;> cases hN : eta.storage <;> simp [widestOf, hI, hN] <;> rfl
      · rfl
    refine ⟨incident, hincident', n, hn', eta, heta', (), htriple, (), hntriple, ?_⟩
    rw [hstorage]
    refine triples_mono (fun i _ v hv => ?_) hout
    -- no element was computed, since that would have taken the index
    simp only [bind_eq_ok] at hv
    obtain ⟨_, -, _, -, index, hindex, -⟩ := hv
    cases hindex
  · unfold refract at hout ⊢
    have hn : passed[1]? ≠ some Value.empty := by
      simp only [bind_eq_ok, fetch_eq_ok, requireTriple_eq_ok] at hout
      obtain ⟨_, -, n, hn, _, -, _, -, _, htriple, -⟩ := hout
      exact ne_empty_of_isTriple hn htriple
    rwa [h.fetch_zero, h.fetch_eq hn, h.fetch_eq hempty] at hout

end Setting

/-- **Repetitions.**  A builtin that gives a result while repeated arguments are passed as empty values
    gives the same one for the values themselves. -/
theorem Builtin.run_of_stripped {function : Builtin} {setting : Setting} {passed values : Array Value}
    {value : Value} (h : Stripped passed values)
    (hrun : function.run setting passed = .ok (.result value)) :
    function.run setting values = .ok (.result value) := by
  have hmap : ∀ {x y : Except Fault Value}, (∀ out, x = .ok out → y = .ok out) →
      Reply.result <$> x = .ok (.result value) → Reply.result <$> y = .ok (.result value) := by
    intro x y hxy hx
    obtain ⟨out, hout, hvalue⟩ := map_eq_ok.mp hx
    exact map_eq_ok.mpr ⟨out, hxy out hout, hvalue⟩
  cases function with
  | setComponent axis => simp [run] at hrun
  | fresnel => simp [run] at hrun
  | component axis =>
    -- those of a single argument read the first, which is passed as it is
    unfold run Setting.component at hrun ⊢
    rwa [h.fetch_zero] at hrun
  | length =>
    unfold run Setting.length at hrun ⊢
    rwa [h.fetch_zero] at hrun
  | normalize =>
    unfold run Setting.normalize at hrun ⊢
    rwa [h.fetch_zero] at hrun
  | area =>
    unfold run Setting.area at hrun ⊢
    rwa [h.fetch_zero] at hrun
  | depth =>
    unfold run Setting.depth at hrun ⊢
    rwa [h.fetch_zero] at hrun
  | calculatenormal =>
    unfold run Setting.calculatenormal at hrun ⊢
    rwa [h.fetch_zero] at hrun
  | derivative direction =>
    unfold run Setting.derivative at hrun ⊢
    rwa [h.fetch_zero] at hrun
  | distance => exact hmap (fun _ => Setting.distance_stripped h) hrun
  | faceforward => exact hmap (fun _ => Setting.faceforward_stripped h) hrun
  | reflect => exact hmap (fun _ => Setting.reflect_stripped h) hrun
  | refract => exact hmap (fun _ => Setting.refract_stripped h) hrun
  | rotate => exact hmap (fun _ => Setting.rotate_stripped h) hrun
  | transform kind => exact hmap (fun _ => Setting.transform_stripped h) hrun

/-! ### Calls -/

namespace Machine

variable {σ : Type} {constants : Array Value} {renderer : Renderer σ} {shader : Shader}
  {machine next : Machine σ} {function : Builtin} {result : Address} {addresses : List Address}

section Arguments

variable {arguments : List Value}
  (harguments : addresses.zipIdx.mapM (fun (address, n) =>
    machine.argument constants function result addresses n address) = .ok arguments)

include harguments

/-- Where an address first stands, what it holds is passed. -/
theorem exists_passed {n : Nat} {address : Address} (haddress : addresses[n]? = some address) :
    ∃ m ≤ n, ∃ value, addresses[m]? = some address ∧ arguments[m]? = some value ∧
      machine.registers.read constants address = .ok value := by
  obtain ⟨m, hm, haddress, hfirst⟩ := exists_first haddress
  obtain ⟨value, hvalue, hargument⟩ := (mapM_eq_ok.mp harguments).2 m (address, m)
    (by simp [haddress])
  refine ⟨m, hm, value, haddress, hvalue, ?_⟩
  have hnot : ¬ (addresses.take m).contains address = true := by simpa using hfirst
  dsimp only at hargument
  unfold argument at hargument
  rwa [if_neg hnot, ite_self] at hargument

/-- **Arguments.**  A call passes what its addresses hold, repetitions as empty values. -/
theorem stripped_arguments :
    ∃ values, addresses.mapM (machine.registers.read constants) = .ok values ∧
      Stripped arguments.toArray values.toArray := by
  let held (address : Address) : Value :=
    (machine.registers.read constants address).toOption.getD Value.empty
  have hread : ∀ address ∈ addresses,
      machine.registers.read constants address = .ok (held address) := by
    intro address hmem
    obtain ⟨n, hn⟩ := List.mem_iff_getElem?.mp hmem
    obtain ⟨-, -, value, -, -, hvalue⟩ := exists_passed harguments hn
    show _ = Except.ok ((machine.registers.read constants address).toOption.getD Value.empty)
    rw [hvalue]
    rfl
  have hlength : arguments.length = addresses.length := by
    rw [← (mapM_eq_ok.mp harguments).1, List.length_zipIdx]
  refine ⟨addresses.map held, mapM_of_eq_ok hread, by simp [hlength], fun n value hvalue => ?_⟩
  simp only [List.getElem?_toArray, List.getElem?_map, Option.map_eq_some_iff] at hvalue ⊢
  obtain ⟨address, haddress, rfl⟩ := hvalue
  have hheld := hread address (List.mem_of_getElem? haddress)
  obtain ⟨m, hm, value, hmaddress, hvalue, hmread⟩ := exists_passed harguments haddress
  obtain rfl := Except.ok.inj (hheld.symm.trans hmread)
  rcases Nat.eq_or_lt_of_le hm with rfl | hlt
  · exact .inl hvalue
  · obtain ⟨passed, hpassed, hargument⟩ := (mapM_eq_ok.mp harguments).2 n (address, n)
      (by simp [haddress])
    rcases read_of_argument hargument with rfl | hpread
    · exact .inr ⟨hpassed, m, hlt, hvalue, address, hmaddress, rfl⟩
    · obtain rfl := Except.ok.inj (hheld.symm.trans hpread)
      exact .inl hpassed

end Arguments

/-- What it means that a call changes its result and nothing else. -/
structure ChangesResult (renderer : Renderer σ) (shader : Shader) (function : Builtin)
    (result : Address) (addresses : List Address) (machine next : Machine σ) : Prop where
  /-- Registers apart, the machine moves on and counts the instruction. -/
  moves : ∃ offset registers, next =
    { machine with ip := offset, executed := machine.executed + 1, registers := registers }
  /-- No other register changes. -/
  frame : ∀ constants address, address ≠ result →
    next.registers.read constants address = machine.registers.read constants address
  /-- The function is applied to what the arguments held before, and its result is put away. -/
  applies : ∃ values mask value,
    addresses.mapM (machine.registers.read shader.constants) = .ok values ∧
    machine.masks.active = .ok mask ∧
    function.run ⟨renderer.scene, machine.width, machine.height, mask⟩ values.toArray
      = .ok (.result value) ∧
    machine.registers.commit machine.masks machine.points result value = .ok next.registers ∧
    (∀ slot, result = .temporary slot → next.registers.target result = .ok value)
  /-- The call goes the same way whatever else a temporary held that is only its result. -/
  forgets : ∀ slot old, result = .temporary slot → result ∉ addresses →
    Executes renderer shader (.call function result addresses)
      { machine with registers := machine.registers.set result old } next

/-- A call with a result, told by what its addresses hold. -/
theorem call_of_not_isVoid {scene : Scene} (hvoid : function.isVoid = false)
    (h : machine.call constants scene function result addresses = .ok next) :
    ∃ values mask value registers,
      addresses.mapM (machine.registers.read constants) = .ok values ∧
      machine.masks.active = .ok mask ∧
      function.run ⟨scene, machine.width, machine.height, mask⟩ values.toArray
        = .ok (.result value) ∧
      machine.registers.commit machine.masks machine.points result value = .ok registers ∧
      next = { machine with registers := registers } := by
  obtain ⟨arguments, mask, reply, registers, harguments, -, hmask, hrun, hreplied, rfl⟩ :=
    call_eq_ok.mp h
  obtain ⟨values, hvalues, hstripped⟩ := stripped_arguments harguments
  cases reply with
  | result value =>
    exact ⟨values, mask, value, registers, hvalues, hmask, Builtin.run_of_stripped hstripped hrun,
      hreplied, rfl⟩
  | arguments values =>
    obtain ⟨axis, rfl, -⟩ | ⟨rfl, -⟩ := run_arguments hrun <;> cases hvoid

/-- What a temporary held makes no difference to a call that does not read it. -/
theorem call_set {scene : Scene} {slot : Nat} (old : Value) (hvoid : function.isVoid = false)
    (hresult : result = .temporary slot) (hmem : result ∉ addresses)
    (h : machine.call constants scene function result addresses = .ok next) :
    { machine with registers := machine.registers.set result old }.call constants scene function
      result addresses = .ok next := by
  obtain ⟨arguments, mask, reply, registers, harguments, hclaim, hmask, hrun, hreplied, rfl⟩ :=
    call_eq_ok.mp h
  obtain ⟨held, htarget⟩ : ∃ held, machine.registers.target result = .ok held := by
    obtain ⟨held, hheld⟩ := hclaim hvoid
    subst hresult
    exact ⟨held, hheld⟩
  have htarget' : (machine.registers.set result old).target result = .ok old := by
    rw [Registers.target_set_self, htarget]
    rfl
  refine call_eq_ok.mpr ⟨arguments, mask, reply, registers, ?_, fun _ => ⟨old, ?_⟩, hmask, hrun, ?_,
    rfl⟩
  · rw [← harguments]
    refine mapM_congr fun entry hentry => ?_
    have hne : entry.1 ≠ result := by
      rintro rfl
      exact hmem (List.fst_mem_of_mem_zipIdx hentry)
    simp only [argument, Registers.read_set_of_ne hne]
  · subst hresult
    exact htarget'
  · cases reply with
    | arguments values =>
      obtain ⟨axis, rfl, -⟩ | ⟨rfl, -⟩ := run_arguments hrun <;> cases hvoid
    | result value =>
      subst hresult
      have hput : machine.registers.put (.temporary slot) value = .ok registers := hreplied
      rw [Registers.put_eq, htarget] at hput
      show (machine.registers.set (.temporary slot) old).put (.temporary slot) value = .ok registers
      rw [Registers.put_eq, htarget', Registers.set_set]
      exact hput

/-- A call that goes the same way from other registers is executed the same way. -/
theorem Executes.call_congr {registers : Registers}
    (hcall : ∀ last, { machine with executed := machine.executed + 1 }.call shader.constants
        renderer.scene function result addresses = .ok last →
      { machine with executed := machine.executed + 1, registers := registers }.call
        shader.constants renderer.scene function result addresses = .ok last)
    (h : Executes renderer shader (.call function result addresses) machine next) :
    Executes renderer shader (.call function result addresses)
      { machine with registers := registers } next := by
  obtain ⟨⟨word, instruction, hword, hinstruction, hcommand⟩, word', flow, hword', hstep⟩ := h
  obtain rfl := Option.some.inj (hword.symm.trans hword')
  obtain ⟨instruction', command', last, hinstruction', hcommand', hperform, hmoved⟩ :=
    step_eq_ok.mp hstep
  obtain rfl := Except.ok.inj (hinstruction.symm.trans hinstruction')
  obtain rfl := Except.ok.inj (hcommand.symm.trans hcommand')
  refine ⟨⟨word, instruction, hword, hinstruction, hcommand⟩, word, flow, hword,
    step_eq_ok.mpr ⟨instruction, _, last, hinstruction, hcommand, ?_, hmoved⟩⟩
  cases perform_eq_ok.mp hperform with
  | call _ _ _ _ h => exact perform_eq_ok.mpr (.call _ _ _ _ (hcall last h))

/-- **Results.**  A call with a result changes nothing else, and the result is that of the function for
    what the arguments held before the call, whichever of the addresses are the same. -/
theorem Executes.changes_only_result (hvoid : function.isVoid = false)
    (h : Executes renderer shader (.call function result addresses) machine next) :
    ChangesResult renderer shader function result addresses machine next := by
  obtain ⟨instruction, flow, last, offset, hperformed, rfl⟩ := h.performed
  cases hperformed with
  | call _ _ _ _ hcall =>
    obtain ⟨values, mask, value, registers, hvalues, hmask, hrun, hcommit, rfl⟩ :=
      call_of_not_isVoid hvoid hcall
    obtain ⟨taken, htaken⟩ := Registers.exists_set_of_commit hcommit
    refine ⟨⟨offset, registers, rfl⟩, ?_, ⟨values, mask, value, hvalues, hmask, hrun, hcommit, ?_⟩, ?_⟩
    · intro constants address hne
      show registers.read constants address = _
      rw [htaken, Registers.read_set_of_ne hne]
    · rintro slot rfl
      exact Registers.target_put hcommit
    · intro slot old hslot hmem
      exact h.call_congr fun last => call_set old hvoid hslot hmem

end Machine

/-- The first temporary is the incident ray, and then the second one facing it. -/
def faceIncident : Shader where
  kind := .surface
  name := "main"
  code := #[28, 10, 0x80000000, 3, 0x80000001, 0x80000000, 0]
  constants := #[{ Value.zeros .normal .uniform 1 with floats := #[0, 0, 1] }]
  symbols := ⟨#[]⟩
  temporaries := 2

/-- One argument is moved, one is the result as well, and one is a constant. -/
theorem Machine.Executes.changes_only_result_faceIncident :
    let incident := { Value.zeros .vector .varying 2 with floats := #[1, 2, 3, 4, 5, 6] }
    let normal := { Value.zeros .normal .varying 2 with floats := #[0, 0, 1, 0, 1, 0] }
    let addresses : List Address := [.temporary 1, .temporary 0, .constant 0]
    ∃ next, Builtin.faceforward.isVoid = false ∧
      Executes (.ofScene .still) faceIncident (.call .faceforward (.temporary 0) addresses)
        (twoPointsWith #[incident, normal]) next ∧
      ChangesResult (.ofScene .still) faceIncident .faceforward (.temporary 0) addresses
        (twoPointsWith #[incident, normal]) next := by
  intro incident normal addresses
  have hstep : ((twoPointsWith #[incident, normal]).step (.ofScene .still) faceIncident
      28).toOption.isSome = true := by decide +kernel
  rcases hresult : (twoPointsWith #[incident, normal]).step (.ofScene .still) faceIncident 28 with
    fault | ⟨flow, next⟩
  · rw [hresult] at hstep
    cases hstep
  have hcommand : faceIncident.CommandAt 0 (.call .faceforward (.temporary 0) addresses) :=
    ⟨28, ⟨.call, _⟩, rfl, rfl, by decide +kernel⟩
  exact ⟨next, rfl, ⟨hcommand, 28, flow, rfl, hresult⟩,
    Executes.changes_only_result rfl ⟨hcommand, 28, flow, rfl, hresult⟩⟩

end Shading
