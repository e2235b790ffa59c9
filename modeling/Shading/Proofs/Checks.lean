import Shading.Proofs.Faults
import Shading.Proofs.Footprint
import Shading.Proofs.Upkeep

namespace Shading

/-!
# What can stop a command

A command whose registers exist never reads or writes beyond the end of anything, unless it calls a
builtin or enters a conditional: it is carried out, or the machine says why it refuses it.

* `Checked` — computations that succeed or are stopped by a check of the machine;
* `PointOp.run_within`, `Update.run_within`, `Registers.merge_within` — the loops stay within buffers;
* `Registers.commit_checked` — results are put where they belong;
* `Machine.compute_checked`, `Machine.assign_checked`, `Machine.perform_checked` — commands;
* `Machine.perform_onValues` — no command whatever complains about code.
-/

variable {points : Nat}

/-- What may stop a command over so many points: a check of the machine, or a grid so large that a
    matrix for each of its points could not be held. -/
def Fault.IsCheckOver (points : Nat) (fault : Fault) : Prop :=
  fault.isCheck = true ∨ fault = .tooLarge ∧ 0x8000000000000000 ≤ 64 * points

/-- A computation over so many points that succeeds or is stopped by a check. -/
abbrev Checked {α : Type} (points : Nat) (x : Except Fault α) : Prop :=
  FaultsOnly (Fault.IsCheckOver points) x

theorem Fault.IsCheckOver.isOfValues {fault : Fault} (h : fault.IsCheckOver points) :
    fault.IsOfValues := by
  obtain h | ⟨rfl, -⟩ := h
  · exact isUnreadable_of_isCheck h
  · rfl

/-! ### Values -/

namespace Value

variable {value : Value} {type : ElementType} {storage : Storage}

theorem allocate_checked : Checked points (allocate type storage (storage.size points)) := by
  have hle := components_le type
  unfold allocate requireRoom
  split
  · simp
  next hroom =>
    refine faultsOnly_bind.mpr ⟨faultsOnly_error.mpr (.inr ⟨rfl, ?_⟩), fun _ h => (by cases h)⟩
    cases storage with
    | uniform =>
      simp only [Storage.size] at hroom
      omega
    | varying =>
      have hmul : type.components * points ≤ 16 * points := Nat.mul_le_mul_right _ hle
      simp only [Storage.size] at hroom
      omega

theorem ensure_checked : Checked points (value.ensure type storage (storage.size points)) := by
  unfold ensure
  split
  · exact faultsOnly_ok
  · exact allocate_checked

theorem broadcast_checked (hfloats : value.floats.size = value.components) :
    Checked points (value.broadcast points) := by
  have hle := components_le value.type
  unfold broadcast
  split
  · exact faultsOnly_ok
  · dsimp only
    refine faultsOnly_bind.mpr ⟨?_, fun _ _ => faultsOnly_bind.mpr ⟨?_, fun _ _ => faultsOnly_pure⟩⟩
    · unfold requireRoom
      split
      · exact faultsOnly_ok
      next hroom =>
        have hmul : value.components * points ≤ 16 * points := Nat.mul_le_mul_right _ hle
        exact faultsOnly_error.mpr (.inr ⟨rfl, by omega⟩)
    · refine faultsOnly_tabulate fun k hk => faultsOnly_fetch (.inr ?_)
      rw [hfloats]
      exact Nat.mod_lt _ (Nat.pos_of_mul_pos_right (Nat.lt_of_le_of_lt (Nat.zero_le k) hk))

/-- A value of the shape that was asked for reaches as far as its elements do. -/
theorem HasShape.place_lt {shape : Shape} {e c : Nat} (hshape : value.HasShape points shape)
    (hover : value.Over points) (he : shape.storage.element e < shape.storage.size points)
    (hc : shape.width = .one ∨ c < shape.width.count) : shape.place e c < value.floats.size := by
  have hwidth := (shape?_eq_some.mp hshape.shape_eq).2
  rw [hover.floats, ← hwidth, hshape.size_eq]
  have hblock := block_le (w := shape.width.count) he
  have hinner : (if shape.width = .one then 0 else c) < shape.width.count := by
    split
    next hone => rw [hone]; decide
    next hmore => exact hc.resolve_left hmore
  unfold Shape.place
  omega

end Value

/-- An element of a result that is varying if the operand is. -/
theorem Storage.element_lt_size {storage result : Storage} {e : Nat}
    (h : storage = .varying → result = .varying) (he : e < result.size points) :
    storage.element e < storage.size points := by
  cases storage with
  | uniform => exact Nat.one_pos
  | varying =>
    rw [h rfl] at he
    exact he

/-! ### Loops -/

section Loops

variable {allowed : Fault → Prop} {a b : Value}

theorem Shape.elementOf_within {shape : Shape} {e : Nat} (hshape : a.HasShape points shape)
    (hover : a.Over points) (he : shape.storage.element e < shape.storage.size points) :
    FaultsOnly allowed (shape.elementOf a.floats e) :=
  faultsOnly_mapM fun _ hc => faultsOnly_fetch <|
    .inr (hshape.place_lt hover he (.inr (List.mem_range.mp hc)))

theorem PointOp.component_within {op : PointOp} {e c : Nat} (hfits : op.Fits)
    (hsuits : op.Suits points a b) (ha : a.Over points) (hb : b.Over points)
    (he : e < op.storage.size points) (hc : c < op.width) :
    FaultsOnly allowed (op.component a.floats b.floats e c) := by
  cases op with
  | arithmetic operator lhs rhs =>
    have hlhs : lhs.storage.element e < lhs.storage.size points :=
      Storage.element_lt_size (fun h => Storage.widest_eq_varying.mpr (.inl h)) he
    have hrhs : rhs.storage.element e < rhs.storage.size points :=
      Storage.element_lt_size (fun h => Storage.widest_eq_varying.mpr (.inr h)) he
    have hwidth := Width.reaches hfits hc
    simp [component, faultsOnly_fetch (.inr (hsuits.1.place_lt ha hlhs hwidth.1)),
      faultsOnly_fetch (.inr (hsuits.2.place_lt hb hrhs hwidth.2))]
  | test operator lhs rhs =>
    have hlhs : lhs.storage.element e < lhs.storage.size points :=
      Storage.element_lt_size (fun h => Storage.widest_eq_varying.mpr (.inl h)) he
    have hrhs : rhs.storage.element e < rhs.storage.size points :=
      Storage.element_lt_size (fun h => Storage.widest_eq_varying.mpr (.inr h)) he
    simp [component, Shape.elementOf_within hsuits.1 ha hlhs, Shape.elementOf_within hsuits.2 hb hrhs]
  | negate shape =>
    have he := Storage.element_lt_size id he
    simp [component, faultsOnly_fetch (.inr (hsuits.place_lt ha he (.inr hc)))]
  | transform storage =>
    have he := Storage.element_lt_size id he
    have hplace : ∀ c < 3, FaultsOnly allowed
        (fetch b.floats ((Shape.mk storage .three).place e c)) :=
      fun c hc => faultsOnly_fetch (.inr (hsuits.2.place_lt hb he (.inr hc)))
    simp [component, hplace]
  | copy result source =>
    have he := Storage.element_lt_size hfits.1 he
    refine faultsOnly_fetch (.inr (hsuits.place_lt ha he ?_))
    rcases hfits.2 with h | h
    · exact .inr (h ▸ hc)
    · exact .inl h

/-- **Operations.**  Computing into a buffer of the right size stays within all buffers. -/
theorem PointOp.run_within {op : PointOp} {result : Buffer} (hfits : op.Fits)
    (hsuits : op.Suits points a b) (ha : a.Over points) (hb : b.Over points)
    (hresult : result.size = op.width * op.storage.size points) :
    FaultsOnly allowed (op.run result a.floats b.floats points) := by
  have hfill : FaultsOnly (fun _ => False) (fill (op.storage.size points * op.width)
      (fun k => op.component a.floats b.floats (k / op.width) (k % op.width)) result) := by
    refine faultsOnly_fill (Nat.le_of_eq (by rw [hresult, Nat.mul_comm])) fun k hk => ?_
    have hpos : 0 < op.width := Nat.pos_of_mul_pos_left (Nat.lt_of_le_of_lt (Nat.zero_le k) hk)
    refine component_within hfits hsuits ha hb ?_ (Nat.mod_lt _ hpos)
    exact Nat.div_lt_of_lt_mul (by rwa [Nat.mul_comm])
  obtain ⟨out, hout⟩ := hfill.exists_ok
  refine .of_ok ⟨out, run_eq_ok.mpr ⟨fun htransform => ?_, hout⟩⟩
  -- a matrix that was asked for is there as a whole
  cases op with
  | transform storage =>
    obtain ⟨htype, hstorage⟩ := hsuits.1
    have hsize : a.size = 1 := by
      rcases ha.size with rfl | hsize
      · cases htype
      · rw [hsize, hstorage]
        rfl
    rw [ha.floats, hsize, Value.components, htype]
    decide
  | _ => cases htransform

/-- **Assignments.**  Writing a destination in place stays within all buffers. -/
theorem Update.run_within {update : Update} {destination source : Value} {mask : Option Mask}
    (hfits : update.Fits) (hdestination : destination.HasShape points update.destination)
    (hover : destination.Over points) (hsource : source.HasShape points update.source)
    (hover' : source.Over points) (hmask : ∀ m, mask = some m → m.size = points) :
    FaultsOnly allowed (update.run destination.floats source.floats mask points) := by
  obtain ⟨hstorage, hwidth⟩ := Value.shape?_eq_some.mp hdestination.shape_eq
  -- the loop writes in place, so it has a result as soon as each of its places is there
  refine .of_ok ⟨_, run_eq_ok.mpr ⟨fun e he => ?_, rfl⟩⟩
  have hwrites : ∃ b, update.writes mask e = .ok b := by
    unfold writes
    cases hs : update.destination.storage with
    | uniform => exact ⟨true, rfl⟩
    | varying =>
      cases mask with
      | none => exact ⟨true, rfl⟩
      | some mask =>
        have hlt : e < mask.size := by
          rw [hmask mask rfl]
          rwa [hs] at he
        exact ⟨mask[e], fetch_eq_ok.mpr (Array.getElem?_eq_getElem hlt)⟩
  obtain ⟨b, hb⟩ := hwrites
  refine ⟨b, hb, fun _ c hc => ⟨?_, ?_⟩⟩
  · have hblock := block_le (w := update.destination.width.count) he
    rw [hover.floats, ← hwidth, hdestination.size_eq]
    omega
  · refine hsource.place_lt hover' (Storage.element_lt_size hfits.1 he) ?_
    rcases hfits.2 with hsame | hone
    · exact .inr (hsame ▸ hc)
    · exact .inl hone

/-- **Results.**  Merging a value into a varying symbol stays within both. -/
theorem Registers.merge_within {mask : Option Mask} {width : Nat} {target value : Buffer}
    (htarget : target.size = width * points) (hvalue : value.size = width * points)
    (hmask : ∀ m, mask = some m → m.size = points) :
    FaultsOnly allowed (merge mask width target value) := by
  cases mask with
  | none => exact .of_ok ⟨value, merge_none_eq_ok.mpr ⟨htarget.trans hvalue.symm, rfl⟩⟩
  | some mask =>
    rcases Nat.eq_zero_or_pos width with rfl | hpos
    · exact .of_ok ⟨target, merge_zero_width⟩
    · refine .of_ok ⟨_, (merge_eq_ok hpos).mpr ⟨fun e he _ c hc => ?_, rfl⟩⟩
      rw [hmask mask rfl] at he
      have hblock := block_le (w := width) he
      omega

end Loops

/-! ### Registers -/

theorem MaskStack.top_isCheck {masks : MaskStack} :
    FaultsOnly (fun fault => fault.isCheck = true) masks.top := by
  unfold top
  split
  · exact faultsOnly_ok
  · exact faultsOnly_error.mpr rfl

theorem MaskStack.active_isCheck {masks : MaskStack} :
    FaultsOnly (fun fault => fault.isCheck = true) masks.active := by
  unfold active
  split
  · exact faultsOnly_ok
  · exact faultsOnly_map.mpr top_isCheck

namespace Registers

variable {registers : Registers} {constants : Array Value} {masks : MaskStack} {address : Address}
  {value : Value}

theorem checkAliases_within {allowed : Fault → Prop} {operands : List Address}
    (h : ∀ operand ∈ operands, ∃ value, registers.read constants operand = .ok value) :
    FaultsOnly allowed (registers.checkAliases constants address operands) := by
  refine faultsOnly_forM fun operand hoperand => ?_
  split
  · exact faultsOnly_discard.mpr (.of_ok (h operand hoperand))
  · exact faultsOnly_ok

theorem target_checked (h : ∃ old, registers.read constants address = .ok old) :
    Checked points (registers.target address) := by
  cases address with
  | constant n => exact faultsOnly_error.mpr (.inl rfl)
  | symbol n => exact .of_ok h
  | temporary n => exact .of_ok h

theorem claim_checked (h : ∃ old, registers.read constants address = .ok old) :
    Checked points (registers.claim address) := by
  cases address with
  | constant n => exact faultsOnly_error.mpr (.inl rfl)
  | symbol n => exact faultsOnly_ok
  | temporary n => exact .of_ok h

theorem put_checked (h : ∃ old, registers.read constants address = .ok old) :
    Checked points (registers.put address value) := by
  obtain ⟨old, hold⟩ := h
  cases address with
  | constant n => exact faultsOnly_error.mpr (.inl rfl)
  | symbol n =>
    have hlt := (Array.getElem?_eq_some_iff.mp (fetch_eq_ok.mp hold)).1
    exact .of_ok ⟨_, put_symbol.mpr ⟨hlt, rfl⟩⟩
  | temporary n =>
    have hlt := (Array.getElem?_eq_some_iff.mp (fetch_eq_ok.mp hold)).1
    exact .of_ok ⟨_, put_temporary.mpr ⟨hlt, rfl⟩⟩

/-- A symbol takes a result, if its steps allow it: the value is given to every point if need be, and
    merged with what the symbol holds. -/
theorem commit_faultsOnly {allowed : Fault → Prop} (hcheck : ∀ fault, fault.isCheck = true → allowed fault)
    (htarget : FaultsOnly allowed (registers.target address))
    (hput : ∀ value, FaultsOnly allowed (registers.put address value))
    (hspread : FaultsOnly allowed (spread points value))
    (hmerge : ∀ target full mask, registers.target address = .ok target → target.storage = .varying →
      target.components = value.components → spread points value = .ok full →
      masks.active = .ok mask →
      FaultsOnly allowed (merge mask target.components target.floats full.floats)) :
    FaultsOnly allowed (registers.commit masks points address value) := by
  unfold commit
  split
  next slot =>
    refine faultsOnly_bind.mpr ⟨htarget, fun target htarget => ?_⟩
    split
    · exact hput value
    · split
      · split
        · exact hput value
        · exact faultsOnly_throw.mpr (hcheck _ rfl)
      next hstorage =>
        have hstorage : target.storage = .varying := by
          obtain hs | hs := target.storage.uniform_or_varying
          · simp [Value.isUniform, hs] at hstorage
          · exact hs
        dsimp only
        split
        · exact faultsOnly_bind.mpr ⟨faultsOnly_throw.mpr (hcheck _ rfl), fun _ h => (by cases h)⟩
        next hcomponents =>
          have hcomponents : target.components = value.components := by simpa using hcomponents
          -- the steps after the spreading are the same whether or not there was any to do
          have hrest : ∀ full : Value, spread points value = .ok full → FaultsOnly allowed (do
              let mask ← masks.active
              let floats ← merge mask target.components target.floats full.floats
              registers.put (.symbol slot) { target with floats := floats }) := fun full hfull =>
            faultsOnly_bind.mpr ⟨MaskStack.active_isCheck.mono hcheck, fun mask hmask =>
              faultsOnly_bind.mpr ⟨hmerge target full mask htarget hstorage hcomponents hfull hmask,
                fun floats _ => hput _⟩⟩
          unfold spread at hspread hrest
          split
          next huniform =>
            rw [if_pos huniform] at hspread hrest
            exact faultsOnly_bind.mpr ⟨hspread, hrest⟩
          next huniform =>
            rw [if_neg huniform] at hrest
            exact hrest value rfl
  · exact hput value

/-- **Results.**  A value that was computed over the points can be put where it belongs, unless the
    machine refuses it. -/
theorem commit_checked (h : ∃ old, registers.read constants address = .ok old)
    (hover : registers.Over points) (hmasks : masks.Over points) (hvalue : value.Over points)
    (hsize : value.size = value.storage.size points) :
    Checked points (registers.commit masks points address value) := by
  refine commit_faultsOnly (fun _ => .inl) (target_checked h) (fun _ => put_checked h) ?_ ?_
  · unfold spread
    split
    next huniform =>
      have hstorage : value.storage = .uniform := by simpa [Value.isUniform] using huniform
      refine Value.broadcast_checked ?_
      rw [hvalue.floats, hsize, hstorage]
      exact Nat.mul_one _
    · exact faultsOnly_ok
  · intro target full mask htarget hstorage hcomponents hfull hmask
    obtain ⟨hfullover, hfullstorage, hfullcomponents⟩ := spread_over hvalue hfull
    refine merge_within ((hover.target htarget).floats_of_varying hstorage) ?_ (hmasks.active hmask)
    rw [hfullover.floats_of_varying hfullstorage, hfullcomponents, hcomponents]

end Registers

/-! ### Commands -/

theorem checkShape_checked {instruction : Instruction} {shape : Shape} {value : Value} {n : Nat} :
    Checked points (checkShape instruction n shape value) := by
  unfold checkShape
  split
  · exact faultsOnly_ok
  · exact faultsOnly_error.mpr (.inl rfl)

theorem PointOp.check_checked {op : PointOp} {instruction : Instruction} {a b : Value} {n : Nat} :
    Checked points (op.check instruction n a b) := by
  unfold check
  split
  · exact faultsOnly_bind.mpr ⟨checkShape_checked, fun _ _ => checkShape_checked⟩
  · exact faultsOnly_bind.mpr ⟨checkShape_checked, fun _ _ => checkShape_checked⟩
  · exact checkShape_checked
  · exact checkShape_checked
  · dsimp only
    split
    · exact faultsOnly_bind.mpr ⟨faultsOnly_throw.mpr (.inl rfl), fun _ h => (by cases h)⟩
    · exact checkShape_checked

namespace Machine

variable {σ : Type} {renderer : Renderer σ} {shader : Shader} {constants : Array Value}
  {machine next : Machine σ} {instruction : Instruction} {command : Command}

/-- **Operations.**  An operation on registers that exist is refused or carried out. -/
theorem compute_checked {op : PointOp} {type : Option ElementType} {result first last : Address}
    (hover : machine.Over points) (hconstants : Value.AllOver points constants) (hfits : op.Fits)
    (hyields : op.Yields type)
    (hreads : ∀ address ∈ [result, first, last],
      ∃ value, machine.registers.read constants address = .ok value) :
    Checked points (machine.compute constants instruction op type result first last) := by
  obtain ⟨hresult, hoperands⟩ := List.forall_mem_cons.mp hreads
  have hfirst := hoperands first (by simp)
  have hlast := hoperands last (by simp)
  unfold compute
  dsimp only
  rw [hover.points_eq]
  refine faultsOnly_bind.mpr ⟨Registers.checkAliases_within hoperands, fun _ _ => ?_⟩
  refine faultsOnly_bind.mpr ⟨Registers.claim_checked hresult, fun destination hclaim => ?_⟩
  refine faultsOnly_bind.mpr ⟨.of_ok hfirst, fun a ha => ?_⟩
  refine faultsOnly_bind.mpr ⟨.of_ok hlast, fun b hb => ?_⟩
  refine faultsOnly_bind.mpr ⟨PointOp.check_checked, fun _ hcheck => ?_⟩
  refine faultsOnly_bind.mpr ⟨Value.ensure_checked, fun fitted hfitted => ?_⟩
  -- once the operands suit the operation, the result has a place for all that is computed
  have hsuits := PointOp.check_eq_ok.mp hcheck
  have hfittedover := Value.ensure_over (hover.registers.claim hclaim) hfitted
  obtain ⟨htype, hstorage, hsize⟩ := Value.fits_iff.mp (Value.fits_of_ensure hfitted)
  have hwidth : fitted.components = op.width := by
    rw [Value.components, htype, PointOp.components_resultType hsuits hyields]
  have hroom : fitted.floats.size = op.width * op.storage.size points := by
    rw [hfittedover.floats, hwidth, hsize]
  refine faultsOnly_bind.mpr ⟨PointOp.run_within hfits hsuits
    (hover.registers.read hconstants ha) (hover.registers.read hconstants hb) hroom,
    fun floats hfloats => ?_⟩
  have hvalue : { fitted with floats := floats }.Over points :=
    hfittedover.with_floats (fill_eq_ok.mp (PointOp.run_eq_ok.mp hfloats).2).2.1
  refine faultsOnly_bind.mpr ⟨Registers.commit_checked hresult hover.registers hover.masks hvalue ?_,
    fun _ _ => faultsOnly_pure⟩
  show fitted.size = fitted.storage.size points
  rw [hsize, hstorage]

theorem shaped_checked {update : Update} {target : Address} {destination value : Value} :
    Checked points (shaped points update target destination value) := by
  unfold shaped
  split
  · exact Value.allocate_checked
  · exact faultsOnly_ok

/-- **Assignments.**  An assignment to a register that exists is refused or carried out. -/
theorem assign_checked {update : Update} {target source : Address} (hover : machine.Over points)
    (hconstants : Value.AllOver points constants) (hfits : update.Fits)
    (hreads : ∀ address ∈ [target, source],
      ∃ value, machine.registers.read constants address = .ok value) :
    Checked points (machine.assign constants instruction update target source) := by
  obtain ⟨htarget, hoperands⟩ := List.forall_mem_cons.mp hreads
  have hsource := hoperands source (by simp)
  rw [assign_eq, hover.points_eq]
  refine faultsOnly_bind.mpr ⟨Registers.checkAliases_within hoperands, fun _ _ => ?_⟩
  refine faultsOnly_bind.mpr ⟨Registers.target_checked htarget, fun destination hdestination => ?_⟩
  refine faultsOnly_bind.mpr ⟨.of_ok hsource, fun value hvalue => ?_⟩
  refine faultsOnly_bind.mpr ⟨checkShape_checked, fun _ hshape => ?_⟩
  refine faultsOnly_bind.mpr ⟨shaped_checked, fun written hwritten => ?_⟩
  refine faultsOnly_bind.mpr ⟨checkShape_checked, fun _ hshape' => ?_⟩
  have hwrittenover := shaped_over (hover.registers.target hdestination) hwritten
  refine faultsOnly_bind.mpr ⟨?_, fun mask hmask => ?_⟩
  · unfold assignmentMask
    split
    · exact MaskStack.active_isCheck.mono fun _ => .inl
    · exact faultsOnly_ok
  have hmask : ∀ m, mask = some m → m.size = points := by
    unfold assignmentMask at hmask
    split at hmask
    · exact hover.masks.active hmask
    · obtain rfl := Except.ok.inj hmask
      exact fun m h => (by cases h)
  refine faultsOnly_bind.mpr ⟨Update.run_within hfits (checkShape_eq_ok.mp hshape') hwrittenover
    (checkShape_eq_ok.mp hshape) (hover.registers.read hconstants hvalue) hmask, fun floats _ => ?_⟩
  exact faultsOnly_bind.mpr ⟨Registers.put_checked htarget, fun _ _ => faultsOnly_pure⟩

theorem taken_checked {condition : JumpCondition} : Checked points (machine.taken condition) := by
  have hempty : Checked points machine.masks.isEmpty :=
    faultsOnly_bind.mpr ⟨MaskStack.top_isCheck.mono fun _ => .inl, fun _ _ => faultsOnly_pure⟩
  cases condition with
  | always => exact faultsOnly_ok
  | empty => exact hempty
  | notEmpty => exact faultsOnly_bind.mpr ⟨hempty, fun _ _ => faultsOnly_pure⟩

/-- **Commands.**  A command that calls no builtin and enters no conditional is refused or carried
    out, if the registers that it mentions exist and its jump leads somewhere. -/
theorem perform_checked (hover : machine.Over points)
    (hconstants : Value.AllOver points shader.constants) (hfits : command.Fits)
    (hroom : 48 * machine.registers.temporaries.size < 0x8000000000000000)
    (hreads : ∀ address ∈ command.mentions,
      ∃ value, machine.registers.read shader.constants address = .ok value)
    (hjump : ∀ condition, command ≠ .jump condition none)
    (hcall : ∀ function result arguments, command ≠ .call function result arguments)
    (hgenerate : ∀ predicate, command ≠ .generateMask predicate) :
    Checked points (machine.perform renderer shader instruction command) := by
  cases command with
  | nothing | halt => exact faultsOnly_pure
  | discard =>
    have hclear : ∃ registers, machine.registers.clearTemporaries 0 = .ok registers :=
      ⟨_, Registers.clearTemporaries_eq_ok.mpr ⟨by simpa using hroom, rfl⟩⟩
    exact faultsOnly_bind.mpr ⟨.of_ok hclear, fun _ _ => faultsOnly_pure⟩
  | clearMask =>
    refine faultsOnly_bind.mpr ⟨?_, fun _ _ => faultsOnly_pure⟩
    unfold MaskStack.clear
    split
    · exact faultsOnly_ok
    · exact faultsOnly_error.mpr (.inl rfl)
  | generateMask predicate => exact absurd rfl (hgenerate predicate)
  | invertMask =>
    refine faultsOnly_bind.mpr ⟨?_, fun _ _ => faultsOnly_pure⟩
    unfold MaskStack.invert
    split
    · exact faultsOnly_ok
    · exact faultsOnly_error.mpr (.inl rfl)
  | jump condition target =>
    refine faultsOnly_bind.mpr ⟨taken_checked, fun taken _ => ?_⟩
    cases target with
    | none => exact absurd rfl (hjump condition)
    | some target => cases taken <;> exact faultsOnly_pure
  | compute op type result first last =>
    exact faultsOnly_bind.mpr ⟨compute_checked hover hconstants hfits.1 hfits.2 hreads,
      fun _ _ => faultsOnly_pure⟩
  | assign update target source =>
    exact faultsOnly_bind.mpr ⟨assign_checked hover hconstants hfits hreads,
      fun _ _ => faultsOnly_pure⟩
  | call function result arguments => exact absurd rfl (hcall function result arguments)
  | evaluate name =>
    refine faultsOnly_bind.mpr ⟨?_, fun _ _ => faultsOnly_pure⟩
    refine faultsOnly_bind.mpr ⟨.of_ok (hreads name (by simp [Command.mentions])), fun value _ => ?_⟩
    refine faultsOnly_bind.mpr ⟨?_, fun _ _ => faultsOnly_pure⟩
    unfold Value.string
    split
    · exact faultsOnly_ok
    · exact faultsOnly_error.mpr (.inl rfl)

end Machine

/-! ### Calls and conditionals -/

theorem MaskStack.generate_onValues {masks : MaskStack} {predicate : Value} :
    OnValues (masks.generate predicate) := by
  unfold generate
  dsimp only
  split
  · exact faultsOnly_bind.mpr ⟨faultsOnly_throw.mpr rfl, fun _ h => (by cases h)⟩
  · split
    · exact faultsOnly_bind.mpr ⟨faultsOnly_throw.mpr rfl, fun _ h => (by cases h)⟩
    · refine faultsOnly_bind.mpr ⟨top_isCheck.mono fun _ => Fault.isUnreadable_of_isCheck,
        fun top _ => faultsOnly_bind.mpr ⟨?_, fun _ _ => faultsOnly_pure⟩⟩
      refine OnValues.tabulate fun i => faultsOnly_bind.mpr ⟨OnValues.fetch, fun active _ => ?_⟩
      cases active <;> simp

namespace Registers

variable {registers : Registers} {constants : Array Value} {masks : MaskStack} {address : Address}
  {value : Value}

theorem read_onValues : OnValues (registers.read constants address) := by
  cases address <;> exact OnValues.fetch

theorem target_onValues : OnValues (registers.target address) := by
  cases address with
  | constant => exact faultsOnly_error.mpr rfl
  | symbol => exact OnValues.fetch
  | temporary => exact OnValues.fetch

theorem claim_onValues : OnValues (registers.claim address) := by
  unfold claim
  split
  · exact faultsOnly_ok
  · exact target_onValues

theorem put_onValues : OnValues (registers.put address value) := by
  cases address with
  | constant => exact faultsOnly_error.mpr rfl
  | symbol => exact faultsOnly_bind.mpr ⟨OnValues.store, fun _ _ => faultsOnly_pure⟩
  | temporary => exact faultsOnly_bind.mpr ⟨OnValues.store, fun _ _ => faultsOnly_pure⟩

theorem merge_onValues {mask : Option Mask} {width : Nat} {target value : Buffer} :
    OnValues (merge mask width target value) := by
  unfold merge
  split
  · split
    · exact faultsOnly_ok
    · exact faultsOnly_error.mpr rfl
  · refine faultsOnly_forPlaces (fun _ _ => True) trivial fun i _ floats _ => ⟨?_, fun _ _ => trivial⟩
    refine faultsOnly_bind.mpr ⟨OnValues.fetch, fun active _ => ?_⟩
    split
    · exact faultsOnly_forPlaces (fun _ _ => True) trivial fun c _ floats _ =>
        ⟨by simp, fun _ _ => trivial⟩
    · exact faultsOnly_pure

theorem commit_onValues : OnValues (registers.commit masks points address value) := by
  refine commit_faultsOnly (fun _ => Fault.isUnreadable_of_isCheck) target_onValues
    (fun _ => put_onValues) ?_ fun _ _ _ _ _ _ _ _ => merge_onValues
  unfold spread
  split
  · exact OnValues.broadcast
  · exact faultsOnly_ok

end Registers

namespace Machine

variable {σ : Type} {renderer : Renderer σ} {shader : Shader} {constants : Array Value}
  {machine next : Machine σ} {instruction : Instruction} {command : Command}

theorem argument_onValues {function : Builtin} {result address : Address} {addresses : List Address}
    {n : Nat} : OnValues (machine.argument constants function result addresses n address) := by
  unfold argument
  split
  · exact Registers.read_onValues
  · split
    · exact faultsOnly_ok
    · exact Registers.read_onValues

theorem replied_onValues {function : Builtin} {result : Address} {addresses : List Address}
    {reply : Reply} : OnValues (machine.replied function result addresses reply) := by
  cases reply with
  | result value => exact Registers.commit_onValues
  | arguments values =>
    refine faultsOnly_foldlM fun registers entry _ => ?_
    dsimp only
    split
    · exact faultsOnly_pure
    · exact faultsOnly_bind.mpr ⟨OnValues.fetch, fun _ _ => Registers.put_onValues⟩

/-- **Calls.**  A call does not complain about code. -/
theorem call_onValues {scene : Scene} {function : Builtin} {result : Address}
    {addresses : List Address} :
    OnValues (machine.call constants scene function result addresses) := by
  rw [call_eq]
  refine faultsOnly_bind.mpr ⟨faultsOnly_mapM fun _ _ => argument_onValues, fun arguments _ => ?_⟩
  refine faultsOnly_bind.mpr ⟨faultsOnly_discard.mpr ?_, fun _ _ => ?_⟩
  · split
    · exact faultsOnly_ok
    · exact Registers.claim_onValues
  refine faultsOnly_bind.mpr ⟨MaskStack.active_isCheck.mono fun _ => Fault.isUnreadable_of_isCheck,
    fun mask _ => ?_⟩
  refine faultsOnly_bind.mpr ⟨Builtin.run_onValues, fun reply _ => ?_⟩
  exact faultsOnly_bind.mpr ⟨replied_onValues, fun _ _ => faultsOnly_pure⟩

/-- **Code.**  No command complains about code, if the registers that it mentions exist and its jump
    leads somewhere. -/
theorem perform_onValues (hover : machine.Over points)
    (hconstants : Value.AllOver points shader.constants) (hfits : command.Fits)
    (hroom : 48 * machine.registers.temporaries.size < 0x8000000000000000)
    (hreads : ∀ address ∈ command.mentions,
      ∃ value, machine.registers.read shader.constants address = .ok value)
    (hjump : ∀ condition, command ≠ .jump condition none) :
    OnValues (machine.perform renderer shader instruction command) := by
  cases command with
  | generateMask predicate =>
    exact faultsOnly_bind.mpr ⟨Registers.read_onValues, fun _ _ =>
      faultsOnly_bind.mpr ⟨MaskStack.generate_onValues, fun _ _ => faultsOnly_pure⟩⟩
  | call function result arguments =>
    exact faultsOnly_bind.mpr ⟨call_onValues, fun _ _ => faultsOnly_pure⟩
  | _ =>
    exact (perform_checked hover hconstants hfits hroom hreads hjump (by simp) (by simp)).mono
      fun _ => Fault.IsCheckOver.isOfValues

end Machine

end Shading
