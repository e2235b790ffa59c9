import Shading.Proofs.Blocks

namespace Shading

/-!
# Conditionals choose at each point

A conditional with two branches enters a mask, executes the first branch unless no point is active,
turns the mask over, executes the second branch unless no point is active, and leaves the mask.  At
each point a varying symbol is left with what the branch for that point, executed alone, gives it.

* `Conditional`, `Conditional.LiesIn` — the code of a conditional;
* `Machine.IsBranch` — the commands that may stand in a branch;
* `Machine.Guarded` — a branch that is skipped if no point is active;
* `Machine.Arrives.selects` — the whole conditional.
-/

/-- The parts of a conditional: what it tests, the commands of its branches, and where it and they
    begin and end. -/
structure Conditional where
  predicate : Address
  thenCommands : List Command
  elseCommands : List Command
  start : Nat
  thenStart : Nat
  middle : Nat
  elseStart : Nat
  join : Nat
  finish : Nat

/-- The conditional stands in the code of the shader. -/
structure Conditional.LiesIn (code : Conditional) (shader : Shader) : Prop where
  enter : shader.Block code.start
    [.generateMask code.predicate, .jump .empty (some code.middle)] code.thenStart
  thenBlock : shader.Block code.thenStart code.thenCommands code.middle
  turn : shader.Block code.middle [.invertMask, .jump .empty (some code.join)] code.elseStart
  elseBlock : shader.Block code.elseStart code.elseCommands code.join
  leave : shader.Block code.join [.clearMask] code.finish

namespace MaskStack

variable {masks : MaskStack} {mask : Mask} {i : Nat}

theorem eq_of_entries {masks' : MaskStack} (hpoints : masks.points = masks'.points)
    (hentries : masks.entries = masks'.entries) : masks = masks' := by
  cases masks
  cases masks'
  simp_all

theorem isEmpty_eq (htop : masks.top = .ok mask) : masks.isEmpty = .ok (!mask.any id) := by
  rw [isEmpty, htop]
  rfl

theorem isEmpty_of_getElem? (htop : masks.top = .ok mask) (hi : mask[i]? = some true) :
    masks.isEmpty = .ok false := by
  rw [isEmpty_eq htop, Except.ok.injEq, Bool.not_eq_false', Array.any_eq_true']
  exact ⟨true, Array.mem_of_getElem? hi, rfl⟩

/-- Turning over a mask just entered. -/
theorem invert_entered {inner : Mask} {turned : MaskStack} (htop : masks.top = .ok mask)
    (h : invert { masks with entries := inner :: masks.entries } = .ok turned) :
    turned = { masks with entries := otherBranch inner mask :: masks.entries } := by
  obtain ⟨top, enclosing, rest, hentries, rfl⟩ := invert_eq_ok.mp h
  obtain ⟨rfl, hrest⟩ := List.cons.inj hentries
  rw [top_eq_ok, hrest] at htop
  obtain rfl := Option.some.inj htop
  rw [hrest]

/-- Leaving a mask just entered. -/
theorem clear_entered {inner : Mask} {outer : MaskStack}
    (h : clear { masks with entries := inner :: masks.entries } = .ok outer) : outer = masks := by
  obtain ⟨top, enclosing, rest, hentries, rfl⟩ := clear_eq_ok.mp h
  exact eq_of_entries rfl (List.cons.inj hentries).2.symm

theorem depth_pos (htop : masks.top = .ok mask) : 1 ≤ masks.depth :=
  (List.getElem?_eq_some_iff.mp (top_eq_ok.mp htop)).1

/-- Stacks whose tops have a point active agree at that point. -/
theorem agrees_of_top {masks' : MaskStack} {mask' : Mask} (htop : masks.top = .ok mask)
    (htop' : masks'.top = .ok mask') (hi : mask[i]? = some true) (hi' : mask'[i]? = some true) :
    (masks.cut i).Agrees 0 (masks'.cut i) := by
  obtain ⟨points, entries⟩ := masks
  obtain ⟨points', entries'⟩ := masks'
  cases entries with
  | nil => cases htop
  | cons first rest =>
    cases entries' with
    | nil => cases htop'
    | cons first' rest' =>
      obtain rfl := Except.ok.inj htop
      obtain rfl := Except.ok.inj htop'
      refine ⟨[], rest.map (cutMask i), rest'.map (cutMask i), rfl, ?_, ?_⟩
      · simp [cut, cutMask, getD_of_getElem? hi]
      · simp [cut, cutMask, getD_of_getElem? hi']

/-- Where a point goes when a conditional is entered: into neither branch if it is inactive, else
    into the one that the predicate sends it to. -/
theorem branch_cases {predicate : Value} {inner : Mask} {points : Nat} (hi : i < points)
    (hinner : tabulate points (selected predicate mask) = .ok inner) :
    mask[i]? = some false ∧ inner[i]? = some false ∧ (otherBranch inner mask)[i]? = some false ∨
      mask[i]? = some true ∧ ∃ x, predicate.float i = .ok x ∧ inner[i]? = some (x != 0) ∧
        (otherBranch inner mask)[i]? = some (!(x != 0)) := by
  obtain ⟨hsize, hselected⟩ := tabulate_eq_ok.mp hinner
  have hbranch : inner[i]? = some inner[i] := Array.getElem?_eq_getElem (hsize ▸ hi)
  obtain ⟨hmask, hfalse⟩ | ⟨hmask, x, hx, htrue⟩ := selected_eq_ok.mp (hselected i _ hbranch)
  · rw [hfalse] at hbranch
    exact .inl ⟨hmask, hbranch, by simp [otherBranch, Array.getElem?_zipWith, hbranch, hmask]⟩
  · rw [htrue] at hbranch
    exact .inr ⟨hmask, x, hx, hbranch,
      by simp [otherBranch, Array.getElem?_zipWith, hbranch, hmask]⟩

end MaskStack

/-- Registers that keep the elements of a point agree with those before, but for the temporaries that
    were written. -/
theorem Registers.Rewritten.agrees {written : Address → Prop} {before after : Registers} {i : Nat}
    (h : Registers.Rewritten written before after) (hkeeps : before.Keeps i after)
    (hvarying : ∀ slot, written (.symbol slot) → ∃ value, before.symbols[slot]? = some value ∧
      value.storage = .varying ∧ i < value.size) :
    (after.cut i).Agrees (fun address => ∀ slot, address = .temporary slot → ¬ written address)
      (before.cut i) := by
  intro constants address hseen
  by_cases hwritten : written address
  · cases address with
    | constant n => rfl
    | temporary n => exact absurd hwritten (hseen n rfl)
    | symbol n =>
      obtain ⟨value, hvalue, hstorage, hsize⟩ := hvarying n hwritten
      obtain ⟨value', hvalue', hkept⟩ := hkeeps n value hvalue
      refine fetch_congr ?_
      simp [Registers.cut, hvalue, hvalue', (hkept hstorage hsize).1]
  · have hframe := h.frame #[] address hwritten
    cases address with
    | constant n => rfl
    | symbol n | temporary n =>
      change fetch _ n = fetch _ n at hframe
      change fetch (Array.map _ _) n = fetch (Array.map _ _) n
      rw [fetch_map, fetch_map, hframe]

namespace Machine

variable {σ : Type} {renderer : Renderer σ} {shader : Shader} {commands : List Command}
  {machine next last : Machine σ} {points i : Nat}

/-! ### Branches -/

/-- Commands that may stand in a branch: they do not jump, do not look at neighbours, leave and turn
    over only levels that they entered, and write only varying symbols and temporaries. -/
structure IsBranch (machine : Machine σ) (commands : List Command) : Prop where
  isStraight : ∀ command ∈ commands, command.isStraight = true
  isPointwise : ∀ command ∈ commands, command.isPointwise = true
  balanced : levelAfter? commands 0 = some 0
  isVarying : ∀ command ∈ commands, ∀ slot, .symbol slot ∈ command.writes →
    ∃ value, machine.registers.symbols[slot]? = some value ∧ value.storage = .varying ∧
      ∀ result arguments, command = .call .fresnel result arguments → value.type = .float

theorem IsBranch.admits (h : machine.IsBranch commands) (hover : machine.Over points) :
    ∀ command ∈ commands, machine.Admits command := by
  intro command hcommand slot hslot
  obtain ⟨value, hvalue, hstorage, htype⟩ := h.isVarying command hcommand slot hslot
  refine ⟨value, hvalue, hstorage, ?_, htype⟩
  rw [(hover.registers.symbols slot value hvalue).size_of_varying hstorage, hover.points_eq]

theorem IsBranch.of_registers (h : machine.IsBranch commands)
    (heq : next.registers = machine.registers) : next.IsBranch commands :=
  { h with isVarying := by rw [heq]; exact h.isVarying }

/-- Only floats change, so a branch stays one. -/
theorem IsBranch.of_rewritten {written : Address → Prop} (h : machine.IsBranch commands)
    (hrewritten : Registers.Rewritten written machine.registers next.registers) :
    next.IsBranch commands := by
  refine { h with isVarying := fun command hcommand slot hslot => ?_ }
  obtain ⟨value, hvalue, hstorage, htype⟩ := h.isVarying command hcommand slot hslot
  obtain ⟨floats, hfloats⟩ := hrewritten.symbols slot value hvalue
  exact ⟨_, hfloats, hstorage, htype⟩

/-- What becomes of a machine at a block that is skipped if no point is active. -/
inductive Guarded (renderer : Renderer σ) (shader : Shader) (commands : List Command)
    (machine : Machine σ) : Machine σ → Prop
  | skipped (ip executed : Nat) (hempty : machine.masks.isEmpty = .ok true) :
      Guarded renderer shader commands machine { machine with ip := ip, executed := executed }
  | entered {last : Machine σ} (ip executed : Nat) (hactive : machine.masks.isEmpty = .ok false)
      (hruns : Runs renderer shader commands { machine with ip := ip, executed := executed } last) :
      Guarded renderer shader commands machine last

/-- A jump over a block, if no point is active, and the block. -/
theorem Arrives.guarded {ip start after stop : Nat}
    (hjump : shader.Block ip [.jump .empty (some after)] start)
    (hblock : shader.Block start commands after)
    (hstraight : ∀ command ∈ commands, command.isStraight = true) (hip : machine.ip = ip)
    (hle : after ≤ stop) (h : Arrives renderer shader stop machine last) :
    ∃ next, Guarded renderer shader commands machine next ∧ next.ip = after ∧
      Arrives renderer shader stop next last := by
  have hne : ip ≠ stop := by
    cases hjump with
    | cons _ _ _ hsize hrest =>
      have hpos := instructionSize_pos hsize
      have hle := hrest.le
      have hle' := hblock.le
      omega
  obtain ⟨instruction, size, flow, performed, next, hperformed, -, hmoved, hsize, hrest, -,
    harrives⟩ := h.instruction hjump hip hne
  cases hperformed with
  | pass _ _ htaken =>
    obtain ⟨size', hsize', hnext⟩ := bind_eq_ok.mp hmoved
    obtain rfl := pure_eq_ok.mp hnext
    obtain rfl := Except.ok.inj (hsize.symm.trans hsize')
    cases hrest
    obtain ⟨between, hruns, hbetween, harrives⟩ := harrives.block hblock hstraight rfl hle
    exact ⟨between, .entered _ _ htaken hruns, hbetween, harrives⟩
  | jump _ _ htaken =>
    obtain rfl := Except.ok.inj hmoved
    exact ⟨_, .skipped _ _ htaken, rfl, harrives⟩

namespace Guarded

/-- A branch leaves the masks as they are. -/
theorem masks_eq (h : Guarded renderer shader commands machine last)
    (hbranch : machine.IsBranch commands) : last.masks = machine.masks := by
  cases h with
  | skipped => rfl
  | entered ip executed _ hruns =>
    obtain ⟨⟨inner, hlength, hentries⟩, hpoints⟩ :=
      hruns.above hbranch.isStraight hbranch.balanced ⟨[], rfl, rfl⟩
    obtain rfl := List.length_eq_zero_iff.mp hlength
    exact MaskStack.eq_of_entries hpoints hentries

/-- A branch leaves alone what its commands do not write. -/
theorem rewritten (h : Guarded renderer shader commands machine last)
    (hbranch : machine.IsBranch commands) (hover : machine.Over points) (hpoints : 0 < points) :
    Registers.Rewritten (fun address => ∃ command ∈ commands, address ∈ command.writes)
      machine.registers last.registers ∧ last.points = points := by
  cases h with
  | skipped => exact ⟨.refl _, hover.points_eq⟩
  | entered ip executed _ hruns =>
    obtain ⟨hrewritten, hlast⟩ := hruns.rewritten hbranch.isStraight
      (show 0 < machine.points by rw [hover.points_eq]; exact hpoints) (hbranch.admits hover)
    exact ⟨hrewritten, hlast.trans hover.points_eq⟩

/-- A branch leaves the elements of an inactive point alone. -/
theorem keeps {mask : Mask} (h : Guarded renderer shader commands machine last)
    (hbranch : machine.IsBranch commands) (hover : machine.Over points) (hpoints : 0 < points)
    (htop : machine.masks.top = .ok mask) (hdepth : 2 ≤ machine.masks.depth)
    (hi : mask[i]? = some false) : machine.registers.Keeps i last.registers := by
  cases h with
  | skipped => exact .refl _
  | entered ip executed _ hruns =>
    have hshielded := hruns.shielded hbranch.isStraight hbranch.balanced ⟨[], rfl, rfl⟩
      (show 0 < machine.points by rw [hover.points_eq]; exact hpoints) (hbranch.admits hover)
    exact (hshielded.keeps hdepth (Nat.le_refl _)
      (MaskStack.hides_of_top rfl htop (getD_of_getElem? hi false))).1

theorem isOver (h : Guarded renderer shader commands machine last)
    (hbranch : machine.IsBranch commands) (hover : machine.Over points)
    (hconstants : Value.AllOver points shader.constants) : last.Over points := by
  cases h with
  | skipped => exact ⟨hover.points_eq, hover.masks, hover.registers⟩
  | entered ip executed _ hruns =>
    exact hruns.over hbranch.isStraight hconstants ⟨hover.points_eq, hover.masks, hover.registers⟩

/-- At an active point a branch does what its commands do alone. -/
theorem agrees {mask : Mask} {alone done : Machine σ} {seen : Address → Prop}
    (h : Guarded renderer shader commands machine last) (hbranch : machine.IsBranch commands)
    (hover : machine.Over points) (hconstants : Value.AllOver points shader.constants)
    (htop : machine.masks.top = .ok mask) (halone : Runs renderer shader commands alone done)
    (hover' : alone.Over points) (hfloats : FloatsAlong renderer shader commands alone)
    (hseen : ∀ command ∈ commands, ∀ address ∈ command.mentions, seen address) (hi : i < points)
    (hmask : mask[i]? = some true) (hagrees : (machine.cut i).Agrees seen 0 (alone.cut i)) :
    (last.cut i).Agrees seen 0 (done.cut i) := by
  cases h with
  | skipped ip executed hempty =>
    rw [MaskStack.isEmpty_of_getElem? htop hmask] at hempty
    cases hempty
  | entered ip executed _ hruns =>
    exact hruns.agrees halone hi hconstants ⟨hover.points_eq, hover.masks, hover.registers⟩ hover'
      hbranch.isStraight hbranch.isPointwise hseen hbranch.balanced hfloats
      ⟨hagrees.width_eq, hagrees.height_eq, hagrees.masks, hagrees.registers⟩

end Guarded

/-- What a branch leaves that is executed under a mask, given what it leaves alone. -/
structure Branched (seen : Address → Prop) (commands : List Command) (mask : Mask) (points : Nat)
    (machine last done : Machine σ) : Prop where
  masks_eq : last.masks = machine.masks
  isOver : last.Over points
  rewritten : Registers.Rewritten (fun address => ∃ command ∈ commands, address ∈ command.writes)
    machine.registers last.registers
  agrees : ∀ i < points, mask[i]? = some true → (last.cut i).Agrees seen 0 (done.cut i)
  keeps : ∀ i, mask[i]? = some false → machine.registers.Keeps i last.registers

/-- **Branches.**  Where the machine agrees with one that executes the branch alone at the points that
    are active, the branch leaves it so, and leaves the other points alone. -/
theorem Guarded.branched {mask : Mask} {alone done : Machine σ} {seen : Address → Prop}
    (h : Guarded renderer shader commands machine last) (hbranch : machine.IsBranch commands)
    (hover : machine.Over points) (hpoints : 0 < points)
    (hconstants : Value.AllOver points shader.constants) (htop : machine.masks.top = .ok mask)
    (hdepth : 2 ≤ machine.masks.depth) (halone : Runs renderer shader commands alone done)
    (hover' : alone.Over points) (hfloats : FloatsAlong renderer shader commands alone)
    (hseen : ∀ command ∈ commands, ∀ address ∈ command.mentions, seen address)
    (hagrees : ∀ i < points, mask[i]? = some true → (machine.cut i).Agrees seen 0 (alone.cut i)) :
    Branched seen commands mask points machine last done := by
  refine ⟨h.masks_eq hbranch, h.isOver hbranch hover hconstants, (h.rewritten hbranch hover hpoints).1,
    fun i hi hmask => ?_, fun i hi => h.keeps hbranch hover hpoints htop hdepth hi⟩
  exact h.agrees hbranch hover hconstants htop halone hover' hfloats hseen hi hmask
    (hagrees i hi hmask)

/-- At an inactive point a branch changes only temporaries. -/
theorem Branched.registers_agree {mask : Mask} {done : Machine σ} {seen : Address → Prop}
    (h : Branched seen commands mask points machine last done) (hbranch : machine.IsBranch commands)
    (hover : machine.Over points) (hi : i < points) (hmask : mask[i]? = some false) :
    (last.registers.cut i).Agrees (fun address => ∀ slot, address = .temporary slot →
      ¬ ∃ command ∈ commands, address ∈ command.writes) (machine.registers.cut i) := by
  refine h.rewritten.agrees (h.keeps i hmask) fun slot ⟨command, hcommand, hslot⟩ => ?_
  obtain ⟨value, hvalue, hstorage, -⟩ := hbranch.isVarying command hcommand slot hslot
  refine ⟨value, hvalue, hstorage, ?_⟩
  rwa [(hover.registers.symbols slot value hvalue).size_of_varying hstorage]

/-- A block executed alone keeps its symbols. -/
theorem Runs.exists_symbol {slot : Nat} {value : Value}
    (h : Runs renderer shader commands machine last) (hbranch : machine.IsBranch commands)
    (hover : machine.Over points) (hpoints : 0 < points)
    (hvalue : machine.registers.symbols[slot]? = some value) :
    ∃ value', last.registers.symbols[slot]? = some value' := by
  obtain ⟨hrewritten, -⟩ := h.rewritten hbranch.isStraight (by rwa [hover.points_eq])
    (hbranch.admits hover)
  obtain ⟨floats, hfloats⟩ := hrewritten.symbols slot value hvalue
  exact ⟨_, hfloats⟩

/-! ### Conditionals -/

theorem Runs.generateMask {predicate : Address}
    (h : Runs renderer shader [.generateMask predicate] machine last) :
    ∃ value masks ip executed, machine.registers.read shader.constants predicate = .ok value ∧
      machine.masks.generate value = .ok masks ∧
      last = { machine with masks := masks, ip := ip, executed := executed } := by
  cases h with
  | cons executes rest =>
    cases rest
    obtain ⟨instruction, performed, offset, hperformed, rfl⟩ := executes.straight rfl
    cases hperformed with
    | generateMask _ value masks hvalue h => exact ⟨value, masks, offset, _, hvalue, h, rfl⟩

theorem Runs.invertMask (h : Runs renderer shader [.invertMask] machine last) :
    ∃ masks ip executed, machine.masks.invert = .ok masks ∧
      last = { machine with masks := masks, ip := ip, executed := executed } := by
  cases h with
  | cons executes rest =>
    cases rest
    obtain ⟨instruction, performed, offset, hperformed, rfl⟩ := executes.straight rfl
    cases hperformed with
    | invertMask masks h => exact ⟨masks, offset, _, h, rfl⟩

theorem Runs.clearMask (h : Runs renderer shader [.clearMask] machine last) :
    ∃ masks ip executed, machine.masks.clear = .ok masks ∧
      last = { machine with masks := masks, ip := ip, executed := executed } := by
  cases h with
  | cons executes rest =>
    cases rest
    obtain ⟨instruction, performed, offset, hperformed, rfl⟩ := executes.straight rfl
    cases hperformed with
    | clearMask masks h => exact ⟨masks, offset, _, h, rfl⟩

/-- **The course of a conditional.**  The mask is entered, the first branch is executed under it, it
    is turned over, the second branch is executed under it, and it is left. -/
theorem Arrives.course {code : Conditional}
    (h : Arrives renderer shader code.finish machine last) (hstart : machine.ip = code.start)
    (hcode : code.LiesIn shader)
    (hthen : ∀ command ∈ code.thenCommands, command.isStraight = true)
    (helse : ∀ command ∈ code.elseCommands, command.isStraight = true) :
    ∃ value inner turned outer entered afterThen between afterElse,
      machine.registers.read shader.constants code.predicate = .ok value ∧
      machine.masks.generate value = .ok inner ∧
      (∃ ip executed, entered = { machine with masks := inner, ip := ip, executed := executed }) ∧
      Guarded renderer shader code.thenCommands entered afterThen ∧
      afterThen.masks.invert = .ok turned ∧
      (∃ ip executed, between = { afterThen with masks := turned, ip := ip, executed := executed }) ∧
      Guarded renderer shader code.elseCommands between afterElse ∧
      afterElse.masks.clear = .ok outer ∧
      ∃ ip executed, last = { afterElse with masks := outer, ip := ip, executed := executed } := by
  obtain ⟨guard, henter, hguard⟩ := hcode.enter.split
  obtain ⟨guard', hturn, hguard'⟩ := hcode.turn.split
  have hthenBlock := hcode.thenBlock
  have helseBlock := hcode.elseBlock
  have hleave := hcode.leave
  have hle := hguard.le
  have hle' := hguard'.le
  have hthenLe := hthenBlock.le
  have helseLe := helseBlock.le
  have hturnLe := hturn.le
  have hleaveLe := hleave.le
  obtain ⟨entered, hentered, hip, h⟩ := h.block henter (by simp [Command.isStraight]) hstart (by omega)
  obtain ⟨afterThen, hafterThen, hip, h⟩ := h.guarded hguard hthenBlock hthen hip (by omega)
  obtain ⟨between, hbetween, hip, h⟩ := h.block hturn (by simp [Command.isStraight]) hip (by omega)
  obtain ⟨afterElse, hafterElse, hip, h⟩ := h.guarded hguard' helseBlock helse hip (by omega)
  obtain ⟨left, hleft, hip, h⟩ := h.block hleave (by simp [Command.isStraight]) hip (Nat.le_refl _)
  obtain rfl := h.eq_of_ip hip
  obtain ⟨value, inner, ip, executed, hvalue, hinner, hentered⟩ := hentered.generateMask
  obtain ⟨turned, ip', executed', hturned, hbetween⟩ := hbetween.invertMask
  obtain ⟨outer, ip'', executed'', houter, hleft⟩ := hleft.clearMask
  exact ⟨value, inner, turned, outer, entered, afterThen, between, afterElse, hvalue, hinner,
    ⟨ip, executed, hentered⟩, hafterThen, hturned, ⟨ip', executed', hbetween⟩, hafterElse, houter,
    ip'', executed'', hleft⟩

/-- A block executed alone. -/
theorem Arrives.alone {ip stop : Nat} (hblock : shader.Block ip commands stop)
    (hstraight : ∀ command ∈ commands, command.isStraight = true)
    (h : Arrives renderer shader stop { machine with ip := ip } last) :
    Runs renderer shader commands { machine with ip := ip } last := by
  obtain ⟨next, hruns, hip, h⟩ := h.block hblock hstraight rfl (Nat.le_refl _)
  obtain rfl := h.eq_of_ip hip
  exact hruns

/-- Where machines agree, they have the same element of a symbol. -/
theorem Agrees.symbol {machine' : Machine σ} {seen : Address → Prop} {level slot : Nat} {a b : Value}
    (h : (machine.cut i).Agrees seen level (machine'.cut i)) (hseen : seen (.symbol slot))
    (ha : machine.registers.symbols[slot]? = some a)
    (hb : machine'.registers.symbols[slot]? = some b) : a.cut i = b.cut i := by
  have hread := h.registers #[] (.symbol slot) hseen
  change fetch (machine.registers.symbols.map _) slot
    = fetch (machine'.registers.symbols.map _) slot at hread
  rw [fetch_map, fetch_map, fetch_eq_ok.mpr ha, fetch_eq_ok.mpr hb] at hread
  exact Except.ok.inj hread

/-- The element of a varying symbol that is kept. -/
theorem cut_eq_of_keeps {slot : Nat} {before after : Value}
    (h : machine.registers.Keeps i next.registers) (hbefore : machine.registers.symbols[slot]? = some before)
    (hafter : next.registers.symbols[slot]? = some after) (hstorage : before.storage = .varying)
    (hi : i < before.size) : after.cut i = before.cut i := by
  obtain ⟨after', hafter', hkeeps⟩ := h slot before hbefore
  obtain rfl := Option.some.inj (hafter.symm.trans hafter')
  exact (hkeeps hstorage hi).1

/-- **Conditionals choose at each point.**  Executing a conditional leaves the masks as they were.  A
    varying symbol keeps its element at an inactive point.  At an active point it is left with the
    element that one of the branches, executed alone, gives it there: the first branch if the
    predicate is not zero at the point, the second if it is. -/
theorem Arrives.selects {code : Conditional} {mask : Mask} {predicate : Value}
    {thenLast elseLast : Machine σ} (h : Arrives renderer shader code.finish machine last)
    (hthen : Arrives renderer shader code.middle { machine with ip := code.thenStart } thenLast)
    (helse : Arrives renderer shader code.join { machine with ip := code.elseStart } elseLast)
    (hstart : machine.ip = code.start) (hcode : code.LiesIn shader) (hover : machine.Over points)
    (hconstants : Value.AllOver points shader.constants)
    (hthenBranch : machine.IsBranch code.thenCommands)
    (helseBranch : machine.IsBranch code.elseCommands)
    (hthenFloats : FloatsAlong renderer shader code.thenCommands
      { machine with ip := code.thenStart })
    (helseFloats : FloatsAlong renderer shader code.elseCommands
      { machine with ip := code.elseStart })
    (hapart : ∀ first ∈ code.thenCommands, ∀ second ∈ code.elseCommands, ∀ slot,
      .temporary slot ∈ first.writes → .temporary slot ∉ second.mentions)
    (hmask : machine.masks.top = .ok mask)
    (hpredicate : machine.registers.read shader.constants code.predicate = .ok predicate)
    (hpoints : 0 < points) :
    last.masks = machine.masks ∧ ∀ (slot : Nat) (old : Value),
      machine.registers.symbols[slot]? = some old → old.storage = .varying →
      ∃ new thenValue elseValue : Value,
        last.registers.symbols[slot]? = some new ∧
        thenLast.registers.symbols[slot]? = some thenValue ∧
        elseLast.registers.symbols[slot]? = some elseValue ∧
        ∀ i < points, mask[i]? = some false ∧ new.cut i = old.cut i ∨
          mask[i]? = some true ∧ ∃ x, predicate.float i = .ok x ∧
            new.cut i = (if x != 0 then thenValue else elseValue).cut i := by
  have hthenAlone := hthen.alone hcode.thenBlock hthenBranch.isStraight
  have helseAlone := helse.alone hcode.elseBlock helseBranch.isStraight
  obtain ⟨predicate', inner, turned, outer, entered, afterThen, between, afterElse, hpredicate', hinner,
    ⟨ip, executed, hentered⟩, hafterThen, hturned, ⟨ip', executed', hbetween⟩, hafterElse, houter, ip'',
    executed'', rfl⟩ := h.course hstart hcode hthenBranch.isStraight helseBranch.isStraight
  obtain rfl := Except.ok.inj (hpredicate.symm.trans hpredicate')
  obtain ⟨-, -, top, selected, htop, hselected, rfl⟩ := MaskStack.generate_eq_ok.mp hinner
  obtain rfl := Except.ok.inj (hmask.symm.trans htop)
  rw [hover.masks.points_eq] at hselected
  have hdepth : 2 ≤ machine.masks.depth + 1 := Nat.succ_le_succ (MaskStack.depth_pos hmask)
  have henteredOver : entered.Over points := by
    rw [hentered]
    exact ⟨hover.points_eq, hover.masks.generate hinner, hover.registers⟩
  have hsame : entered.registers = machine.registers := by rw [hentered]
  -- the first branch agrees with itself alone on all registers
  have hfirst : Branched (fun _ => True) code.thenCommands selected points entered afterThen
      thenLast := by
    subst hentered
    refine hafterThen.branched (hthenBranch.of_registers rfl) henteredOver hpoints hconstants rfl
      hdepth hthenAlone ⟨hover.points_eq, hover.masks, hover.registers⟩ hthenFloats
      (fun _ _ _ _ => trivial) fun i hi hactive => ?_
    obtain ⟨-, hfalse, -⟩ | ⟨htrue, -⟩ := MaskStack.branch_cases hi hselected
    · cases hfalse.symm.trans hactive
    · exact ⟨⟨rfl, rfl⟩, ⟨rfl, rfl⟩, MaskStack.agrees_of_top rfl hmask hactive htrue,
        fun _ _ _ => rfl⟩
  have hturnedOver := hfirst.isOver.masks.invert hturned
  rw [hfirst.masks_eq, hentered] at hturned
  obtain rfl := MaskStack.invert_entered hmask hturned
  -- the second branch agrees with itself alone but for the temporaries of the first
  have hsecond : Branched (fun address => ∀ slot, address = .temporary slot →
        ¬ ∃ command ∈ code.thenCommands, address ∈ command.writes)
      code.elseCommands (MaskStack.otherBranch selected mask) points between afterElse elseLast := by
    subst hbetween
    refine hafterElse.branched ((helseBranch.of_registers hsame).of_rewritten hfirst.rewritten)
      ⟨hfirst.isOver.points_eq, hturnedOver, hfirst.isOver.registers⟩ hpoints hconstants rfl
      hdepth helseAlone ⟨hover.points_eq, hover.masks, hover.registers⟩ helseFloats ?_
      fun i hi hactive => ?_
    · rintro second hsecond _ hmentions slot rfl ⟨first, hfirst, hwrites⟩
      exact hapart first hfirst second hsecond slot hwrites hmentions
    · obtain ⟨-, -, hfalse⟩ | ⟨htrue, x, -, hleft, hright⟩ := MaskStack.branch_cases hi hselected
      · cases hfalse.symm.trans hactive
      have hx : (x != 0) = false := by simpa [hright] using hactive
      rw [hx] at hleft
      refine ⟨⟨rfl, rfl⟩, ⟨rfl, rfl⟩, MaskStack.agrees_of_top rfl hmask hactive htrue, ?_⟩
      rw [← hsame]
      exact hfirst.registers_agree (hthenBranch.of_registers hsame) henteredOver hi hleft
  rw [hsecond.masks_eq, hbetween] at houter
  refine ⟨MaskStack.clear_entered houter, fun slot old hold hstorage => ?_⟩
  have hsize : old.size = points :=
    (hover.registers.symbols slot old hold).size_of_varying hstorage
  obtain ⟨thenValue, hthenValue⟩ := hthenAlone.exists_symbol (hthenBranch.of_registers rfl)
    ⟨hover.points_eq, hover.masks, hover.registers⟩ hpoints hold
  obtain ⟨elseValue, helseValue⟩ := helseAlone.exists_symbol (helseBranch.of_registers rfl)
    ⟨hover.points_eq, hover.masks, hover.registers⟩ hpoints hold
  rw [← hsame] at hold
  obtain ⟨floats, hmiddle⟩ := hfirst.rewritten.symbols slot old hold
  have hmiddle' : between.registers.symbols[slot]? = some { old with floats := floats } := by
    rw [hbetween]
    exact hmiddle
  obtain ⟨floats', hnew⟩ := hsecond.rewritten.symbols slot _ hmiddle'
  refine ⟨_, thenValue, elseValue, hnew, hthenValue, helseValue, fun i hi => ?_⟩
  have hlt : i < old.size := hsize ▸ hi
  obtain ⟨hfalse, hleft, hright⟩ | ⟨htrue, x, hx, hleft, hright⟩ :=
    MaskStack.branch_cases hi hselected
  · refine .inl ⟨hfalse, ?_⟩
    rw [cut_eq_of_keeps (hsecond.keeps i hright) hmiddle' hnew hstorage hlt]
    exact cut_eq_of_keeps (hfirst.keeps i hleft) hold hmiddle hstorage hlt
  · refine .inr ⟨htrue, x, hx, ?_⟩
    cases hbranch : x != 0 <;> rw [hbranch] at hleft hright
    · exact (hsecond.agrees i hi hright).symbol (fun _ h => nomatch h) hnew helseValue
    · rw [cut_eq_of_keeps (hsecond.keeps i hright) hmiddle' hnew hstorage hlt]
      exact (hfirst.agrees i hi hleft).symbol trivial hmiddle hthenValue

/-- A shader that assigns one to its second symbol where the first is not zero, and two elsewhere. -/
def oneOrTwo : Shader where
  kind := .surface
  name := "main"
  code := #[4, 0x40000000, 6, 7, 0x00211117, 0x40000001, 0, 5, 6, 13, 0x00211117, 0x40000001, 1, 3]
  constants := #[.uniformFloat 1, .uniformFloat 2]
  symbols := ⟨#[⟨"p", .global, .float, .varying, none⟩, ⟨"x", .global, .float, .varying, none⟩]⟩
  temporaries := 0

/-- Its conditional. -/
def oneOrTwoCode : Conditional where
  predicate := .symbol 0
  thenCommands :=
    [.assign ⟨.replace, ⟨.varying, .one⟩, ⟨.uniform, .one⟩⟩ (.symbol 1) (.constant 0)]
  elseCommands :=
    [.assign ⟨.replace, ⟨.varying, .one⟩, ⟨.uniform, .one⟩⟩ (.symbol 1) (.constant 1)]
  start := 0
  thenStart := 4
  middle := 7
  elseStart := 10
  join := 13
  finish := 14

/-- A machine over three points that runs it, inside a conditional that leaves the last point out. -/
def threePoints (floats : Buffer) (inner : List Mask) (ip executed : Nat) : Machine Unit where
  config := {}
  ip := ip
  width := 3
  height := 1
  masks := ⟨3, inner ++ [#[true, true, false], #[true, true, true]]⟩
  registers := ⟨#[.varyingFloat #[1, 0, 1], .varyingFloat floats], #[]⟩
  bound := #[true, true]
  executed := executed
  world := ()

theorem oneOrTwoCode_liesIn : oneOrTwoCode.LiesIn oneOrTwo where
  enter := .cons rfl rfl rfl rfl (.cons rfl rfl rfl rfl (.nil 4))
  thenBlock := .cons rfl rfl rfl rfl (.nil 7)
  turn := .cons rfl rfl rfl rfl (.cons rfl rfl rfl rfl (.nil 10))
  elseBlock := .cons rfl rfl rfl rfl (.nil 13)
  leave := .cons rfl rfl rfl rfl (.nil 14)

theorem threePoints_arrives : Arrives (.ofScene .still) oneOrTwo 14 (threePoints #[5, 6, 7] [] 0 0)
    (threePoints #[1, 2, 7] [] 14 7) := by
  refine .turn (threePoints #[5, 6, 7] [#[true, false, false]] 2 1) (by decide) rfl ?_
  refine .turn (threePoints #[5, 6, 7] [#[true, false, false]] 4 2) (by decide) (by cbv) ?_
  refine .turn (threePoints #[1, 6, 7] [#[true, false, false]] 7 3) (by decide) (by cbv) ?_
  refine .turn (threePoints #[1, 6, 7] [#[false, true, false]] 8 4) (by decide) (by cbv) ?_
  refine .turn (threePoints #[1, 6, 7] [#[false, true, false]] 10 5) (by decide) (by cbv) ?_
  refine .turn (threePoints #[1, 2, 7] [#[false, true, false]] 13 6) (by decide) (by cbv) ?_
  refine .turn (threePoints #[1, 2, 7] [] 14 7) (by decide) (by cbv) ?_
  exact .here rfl

theorem threePoints_over : (threePoints #[5, 6, 7] [] 0 0).Over 3 where
  points_eq := rfl
  masks := ⟨rfl, by decide⟩
  registers := by
    refine ⟨fun slot value hvalue => ?_, fun slot value hvalue => by cases hvalue⟩
    match slot, hvalue with
    | 0, hvalue | 1, hvalue =>
      obtain rfl := Option.some.inj hvalue
      exact ⟨.inr rfl, rfl⟩

theorem oneOrTwo_constants : Value.AllOver 3 oneOrTwo.constants := by
  intro n value hvalue
  match n, hvalue with
  | 0, hvalue | 1, hvalue =>
    obtain rfl := Option.some.inj hvalue
    exact ⟨.inr rfl, rfl⟩

theorem threePoints_isBranch {n : Nat} : (threePoints #[5, 6, 7] [] 0 0).IsBranch
    [.assign ⟨.replace, ⟨.varying, .one⟩, ⟨.uniform, .one⟩⟩ (.symbol 1) (.constant n)] where
  isStraight := by simp [Command.isStraight]
  isPointwise := by simp [Command.isPointwise]
  balanced := rfl
  isVarying := by
    intro command hcommand slot hslot
    obtain rfl := List.mem_singleton.mp hcommand
    obtain rfl : slot = 1 := by simpa [Command.writes] using hslot
    exact ⟨_, rfl, rfl, fun _ _ h => by cases h⟩

theorem Arrives.selects_oneOrTwo :
    (threePoints #[1, 2, 7] [] 14 7).masks = (threePoints #[5, 6, 7] [] 0 0).masks ∧
      ∀ i < 3, #[true, true, false][i]? = some false ∧
          (Value.varyingFloat #[1, 2, 7]).cut i = (Value.varyingFloat #[5, 6, 7]).cut i ∨
        #[true, true, false][i]? = some true ∧ ∃ x,
          (Value.varyingFloat #[1, 0, 1]).float i = .ok x ∧
          (Value.varyingFloat #[1, 2, 7]).cut i
            = (if x != 0 then Value.varyingFloat #[1, 1, 7] else .varyingFloat #[2, 2, 7]).cut i := by
  have hthen : Arrives (.ofScene .still) oneOrTwo 7 (threePoints #[5, 6, 7] [] 4 0)
      (threePoints #[1, 1, 7] [] 7 1) :=
    .turn _ (by decide) (by cbv) (.here rfl)
  have helse : Arrives (.ofScene .still) oneOrTwo 13 (threePoints #[5, 6, 7] [] 10 0)
      (threePoints #[2, 2, 7] [] 13 1) :=
    .turn _ (by decide) (by cbv) (.here rfl)
  obtain ⟨hmasks, hselects⟩ := Arrives.selects threePoints_arrives hthen helse rfl
    oneOrTwoCode_liesIn threePoints_over oneOrTwo_constants threePoints_isBranch
    threePoints_isBranch ⟨trivial, fun _ _ => trivial⟩ ⟨trivial, fun _ _ => trivial⟩
    (by simp [oneOrTwoCode, Command.writes]) rfl rfl (by decide)
  obtain ⟨new, thenValue, elseValue, hnew, hthenValue, helseValue, h⟩ := hselects 1 _ rfl rfl
  obtain rfl := Option.some.inj hnew
  obtain rfl := Option.some.inj hthenValue
  obtain rfl := Option.some.inj helseValue
  exact ⟨hmasks, h⟩

end Machine

end Shading
