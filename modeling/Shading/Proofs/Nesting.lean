import Shading.Proofs.Steps

namespace Shading

/-!
# Masks of nested conditionals

A stack of masks keeps, for every conditional that has been entered, the points that the branch in
hand is for, already restricted to the branches around it.  Here the stack is compared with a plain
record of the conditionals themselves: their predicates, and how often each was turned over.

* `Nesting` — the conditionals that are open, as a list of operations leaves them;
* `Condition.holds` — whether a point belongs to the branch in hand of one conditional;
* `MaskStack.Implements` — every mask is the conjunction of the conditionals around it, and what
  follows for leaving, turning over and looking at the stack;
* `MaskStack.implements_nesting` — this is so after any operations that do not fault.
-/

/-! ### The conditionals that are open -/

/-- What can be done to a stack of masks. -/
inductive MaskOp
  | generate (predicate : Value)
  | invert
  | clear
  | reset (points : Nat)

/-- A conditional that was entered and not left yet. -/
structure Condition where
  predicate : Value
  /-- How often it was turned over. -/
  turns : Nat

namespace Condition

/-- The point belongs to the branch in hand: the predicate is not zero there if the conditional was
    turned over an even number of times, and zero if an odd number of times. -/
def holds (condition : Condition) (i : Nat) : Bool :=
  match condition.predicate.float i with
  | .ok x => if condition.turns % 2 = 0 then x != 0 else x == 0
  | .error _ => false

/-- The conditional with its branches exchanged. -/
def turned (condition : Condition) : Condition :=
  { condition with turns := condition.turns + 1 }

theorem holds_entered {predicate : Value} {i : Nat} {x : Float32}
    (hx : predicate.float i = .ok x) : holds ⟨predicate, 0⟩ i = (x != 0) := by
  simp [holds, hx]

/-- The two branches exclude each other wherever the predicate can be read. -/
theorem holds_turned {condition : Condition} {i : Nat} {x : Float32}
    (hx : condition.predicate.float i = .ok x) :
    condition.turned.holds i = !condition.holds i := by
  show (match condition.predicate.float i with
    | .ok x => if (condition.turns + 1) % 2 = 0 then x != 0 else x == 0
    | .error _ => false) = _
  rw [holds, hx]
  by_cases heven : condition.turns % 2 = 0
  · have hodd : ¬ (condition.turns + 1) % 2 = 0 := by omega
    simp [heven, hodd, bne]
  · have heven' : (condition.turns + 1) % 2 = 0 := by omega
    simp [heven, heven', bne]

theorem holds_turned_turned (condition : Condition) (i : Nat) :
    condition.turned.turned.holds i = condition.holds i := by
  have hparity : (condition.turns + 1 + 1) % 2 = condition.turns % 2 := by omega
  simp [holds, turned, hparity]

end Condition

/-- The points of a grid and the conditionals that are open over them, the innermost first. -/
structure Nesting where
  points : Nat
  conditions : List Condition

namespace Nesting

/-- What an operation does to the open conditionals. -/
def after (nesting : Nesting) : MaskOp → Nesting
  | .generate predicate => { nesting with conditions := ⟨predicate, 0⟩ :: nesting.conditions }
  | .invert =>
    match nesting.conditions with
    | condition :: outer => { nesting with conditions := condition.turned :: outer }
    | [] => nesting
  | .clear => { nesting with conditions := nesting.conditions.tail }
  | .reset points => ⟨points, []⟩

/-- The points for which all of the conditionals hold. -/
def maskOf (points : Nat) (conditions : List Condition) : Mask :=
  Array.ofFn fun i : Fin points => conditions.all (·.holds i)

/-- The masks of the open conditionals, each one that of a conditional and all those around it. -/
def masks (nesting : Nesting) : MaskStack :=
  ⟨nesting.points, nesting.conditions.tails.map (maskOf nesting.points)⟩

/-- The point belongs to the branch in hand of every open conditional. -/
def isActive (nesting : Nesting) (i : Nat) : Bool :=
  nesting.conditions.all (·.holds i)

/-- Every predicate can be read where the conditionals around it hold. -/
def IsReadable (points : Nat) : List Condition → Prop
  | [] => True
  | condition :: outer =>
    (∀ i < points, outer.all (·.holds i) = true → ∃ x, condition.predicate.float i = .ok x) ∧
      IsReadable points outer

variable {points : Nat} {conditions outer : List Condition} {condition : Condition}

@[simp] theorem size_maskOf : (maskOf points conditions).size = points := Array.size_ofFn

theorem getElem?_maskOf {i : Nat} (hi : i < points) :
    (maskOf points conditions)[i]? = some (conditions.all (·.holds i)) := by
  simp [maskOf, hi]

/-- A mask with the right entry at every point. -/
theorem eq_maskOf {mask : Mask} (hsize : mask.size = points)
    (hmask : ∀ i < points, mask[i]? = some (conditions.all (·.holds i))) :
    mask = maskOf points conditions := by
  apply Array.ext_getElem?
  intro i
  by_cases hi : i < points
  · rw [hmask i hi, getElem?_maskOf hi]
  · rw [Array.getElem?_eq_none (by omega), Array.getElem?_eq_none (by simpa using hi)]

theorem maskOf_nil : maskOf points [] = Array.replicate points true := by
  symm
  apply eq_maskOf Array.size_replicate
  intro i hi
  simp [hi]

theorem toList_maskOf : (maskOf points conditions).toList =
    (List.range points).map fun i => conditions.all (·.holds i) := by
  apply List.ext_getElem?
  intro i
  by_cases hi : i < points
  · rw [Array.getElem?_toList, getElem?_maskOf hi]
    simp [hi]
  · rw [Array.getElem?_toList, Array.getElem?_eq_none (by simpa using hi)]
    simp [hi]

/-- **Entering.**  The mask made from the enclosing one and the predicate is that of one more
    conditional. -/
theorem maskOf_entered {predicate : Value} {mask : Mask}
    (h : tabulate points (MaskStack.selected predicate (maskOf points conditions)) = .ok mask) :
    mask = maskOf points (⟨predicate, 0⟩ :: conditions) := by
  obtain ⟨hsize, hselected⟩ := tabulate_eq_ok.mp h
  apply eq_maskOf hsize
  intro i hi
  have hentry : mask[i]? = some mask[i] := Array.getElem?_eq_getElem (hsize ▸ hi)
  obtain ⟨houter, hfalse⟩ | ⟨houter, x, hx, htrue⟩ :=
    MaskStack.selected_eq_ok.mp (hselected i _ hentry)
  · -- The point is out already, and the predicate is not even read.
    rw [getElem?_maskOf hi, Option.some.injEq] at houter
    rw [hentry, hfalse, List.all_cons, houter, Bool.and_false]
  · rw [getElem?_maskOf hi, Option.some.injEq] at houter
    rw [hentry, htrue, List.all_cons, houter, Bool.and_true, Condition.holds_entered hx]

theorem isReadable_entered {predicate : Value} {mask : Mask}
    (h : tabulate points (MaskStack.selected predicate (maskOf points conditions)) = .ok mask)
    (hreadable : IsReadable points conditions) :
    IsReadable points (⟨predicate, 0⟩ :: conditions) := by
  obtain ⟨hsize, hselected⟩ := tabulate_eq_ok.mp h
  refine ⟨?_, hreadable⟩
  intro i hi houter
  have hentry : mask[i]? = some mask[i] := Array.getElem?_eq_getElem (hsize ▸ hi)
  obtain ⟨hout, -⟩ | ⟨-, x, hx, -⟩ := MaskStack.selected_eq_ok.mp (hselected i _ hentry)
  · rw [getElem?_maskOf hi, houter] at hout
    cases hout
  · exact ⟨x, hx⟩

/-- **Turning over.**  The rest of the enclosing mask is the mask of the other branch.  Outside of
    the enclosing mask, where the predicate may not be readable, neither branch has a point. -/
theorem otherBranch_maskOf (hreadable : IsReadable points (condition :: outer)) :
    MaskStack.otherBranch (maskOf points (condition :: outer)) (maskOf points outer) =
      maskOf points (condition.turned :: outer) := by
  apply eq_maskOf (by simp [MaskStack.otherBranch])
  intro i hi
  rw [MaskStack.otherBranch, Array.getElem?_zipWith, getElem?_maskOf hi, getElem?_maskOf hi]
  show some (!(condition.holds i && outer.all (·.holds i)) && outer.all (·.holds i)) =
    some (condition.turned.holds i && outer.all (·.holds i))
  by_cases houter : outer.all (·.holds i) = true
  · obtain ⟨x, hx⟩ := hreadable.1 i hi houter
    rw [houter, Bool.and_true, Bool.and_true, Bool.and_true, Condition.holds_turned hx]
  · rw [Bool.not_eq_true] at houter
    rw [houter, Bool.and_false, Bool.and_false]

/-- The mask of all the conditionals is on top. -/
theorem exists_masks (points : Nat) (conditions : List Condition) :
    ∃ rest, masks ⟨points, conditions⟩ = ⟨points, maskOf points conditions :: rest⟩ := by
  cases conditions <;> exact ⟨_, rfl⟩

theorem masks_cons : masks ⟨points, condition :: outer⟩ =
    ⟨points, maskOf points (condition :: outer) :: (masks ⟨points, outer⟩).entries⟩ := by
  simp [masks]

theorem length_entries : (masks ⟨points, conditions⟩).entries.length = 1 + conditions.length := by
  simp [masks, Nat.add_comm]

/-- The mask of the `k`-th conditional is that of the `k` outermost ones. -/
theorem getElem?_reverse_entries {k : Nat} (hk : k ≤ conditions.length) :
    (masks ⟨points, conditions⟩).entries.reverse[k]? =
      some (maskOf points (conditions.drop (conditions.length - k))) := by
  rw [List.getElem?_reverse (by rw [length_entries]; omega), length_entries]
  simp [masks]

/-- Conditions that all hold, counted from the outermost. -/
theorem all_drop_iff {k i : Nat} : (conditions.drop (conditions.length - k)).all (·.holds i) = true ↔
    ∀ j < k, ∀ condition, conditions.reverse[j]? = some condition → condition.holds i = true := by
  rw [← List.all_reverse, ← List.take_reverse, List.all_eq_true]
  constructor
  · intro h j hj condition hcondition
    apply h
    exact List.mem_of_getElem? (i := j) (by rw [List.getElem?_take, if_pos hj, hcondition])
  · intro h condition hcondition
    obtain ⟨j, hj⟩ := List.getElem?_of_mem hcondition
    rw [List.getElem?_take] at hj
    by_cases hlt : j < k
    · rw [if_pos hlt] at hj
      exact h j hlt condition hj
    · rw [if_neg hlt] at hj
      cases hj

end Nesting

/-! ### The stack follows the conditionals -/

namespace MaskStack

/-- Does one operation. -/
def apply (masks : MaskStack) : MaskOp → Except Fault MaskStack
  | .generate predicate => masks.generate predicate
  | .invert => masks.invert
  | .clear => masks.clear
  | .reset points => masks.reset points

/-- The stack is the one that belongs to the open conditionals. -/
structure Follows (nesting : Nesting) (masks : MaskStack) : Prop where
  masks_eq : masks = nesting.masks
  isReadable : Nesting.IsReadable nesting.points nesting.conditions

variable {nesting : Nesting} {masks next : MaskStack}

theorem new_follows {n : Nat} (h : new n = .ok masks) : masks.Follows ⟨n, []⟩ := by
  simp only [new, bind_eq_ok, pure_eq_ok] at h
  obtain ⟨_, -, rfl⟩ := h
  refine ⟨?_, trivial⟩
  show base n = ⟨n, [Nesting.maskOf n []]⟩
  rw [Nesting.maskOf_nil, base]

section Operations

variable {points : Nat} {condition : Condition} {conditions outer : List Condition}

theorem top_masks :
    (Nesting.masks ⟨points, conditions⟩).top = .ok (Nesting.maskOf points conditions) := by
  obtain ⟨rest, hmasks⟩ := Nesting.exists_masks points conditions
  rw [hmasks]
  rfl

theorem invert_masks (hreadable : Nesting.IsReadable points (condition :: outer)) :
    (Nesting.masks ⟨points, condition :: outer⟩).invert =
      .ok (Nesting.masks ⟨points, condition.turned :: outer⟩) := by
  obtain ⟨rest, houter⟩ := Nesting.exists_masks points outer
  rw [Nesting.masks_cons, Nesting.masks_cons, houter, ← Nesting.otherBranch_maskOf hreadable]
  rfl

/-- Turning over once more goes back. -/
theorem invert_turned (hreadable : Nesting.IsReadable points (condition :: outer)) :
    (Nesting.masks ⟨points, condition.turned :: outer⟩).invert =
      .ok (Nesting.masks ⟨points, condition :: outer⟩) := by
  have hback : Nesting.maskOf points (condition.turned.turned :: outer) =
      Nesting.maskOf points (condition :: outer) := by
    simp [Nesting.maskOf, Condition.holds_turned_turned]
  have hreadable' : Nesting.IsReadable points (condition.turned :: outer) := hreadable
  rw [invert_masks hreadable', Nesting.masks_cons, Nesting.masks_cons, hback]

theorem clear_masks :
    (Nesting.masks ⟨points, condition :: outer⟩).clear = .ok (Nesting.masks ⟨points, outer⟩) := by
  obtain ⟨rest, houter⟩ := Nesting.exists_masks points outer
  rw [Nesting.masks_cons, houter]
  rfl

theorem isEmpty_masks : (Nesting.masks ⟨points, conditions⟩).isEmpty =
    .ok ((List.range points).all (!Nesting.isActive ⟨points, conditions⟩ ·)) := by
  rw [isEmpty, top_masks]
  show Except.ok (!(Nesting.maskOf points conditions).any id) = _
  rw [← Array.any_toList, Nesting.toList_maskOf, List.any_map, List.not_any_eq_all_not]
  rfl

theorem activePoints_masks : (Nesting.masks ⟨points, conditions⟩).activePoints =
    .ok ((List.range points).countP (Nesting.isActive ⟨points, conditions⟩)) := by
  rw [activePoints, top_masks]
  show Except.ok ((Nesting.maskOf points conditions).count true) = _
  rw [← Array.count_toList, Nesting.toList_maskOf, List.count, List.countP_map]
  congr 2
  funext i
  simp [Nesting.isActive]

theorem active_masks : (Nesting.masks ⟨points, condition :: outer⟩).active =
    .ok (some (Nesting.maskOf points (condition :: outer))) := by
  obtain ⟨rest, houter⟩ := Nesting.exists_masks points outer
  rw [Nesting.masks_cons, houter]
  rfl

/-- The branch in hand and the other one divide the enclosing mask between them. -/
theorem branches_partition {i : Nat} (hreadable : Nesting.IsReadable points (condition :: outer))
    (hi : i < points) : ∃ a b, (Nesting.maskOf points (condition :: outer))[i]? = some a ∧
      (Nesting.maskOf points (condition.turned :: outer))[i]? = some b ∧
      (Nesting.maskOf points outer)[i]? = some (a || b) ∧ (a && b) = false := by
  rw [Nesting.getElem?_maskOf hi, Nesting.getElem?_maskOf hi, Nesting.getElem?_maskOf hi]
  by_cases houter : outer.all (·.holds i) = true
  · obtain ⟨x, hx⟩ := hreadable.1 i hi houter
    refine ⟨condition.holds i, !condition.holds i, ?_, ?_, ?_, ?_⟩
    · rw [List.all_cons, houter, Bool.and_true]
    · rw [List.all_cons, houter, Bool.and_true, Condition.holds_turned hx]
    · rw [houter, Bool.or_not_self]
    · exact Bool.and_not_self _
  · rw [Bool.not_eq_true] at houter
    exact ⟨false, false, by simp [houter], by simp [houter], by simp [houter], rfl⟩

end Operations

/-- **One operation** does to the stack what it does to the open conditionals. -/
theorem Follows.apply {op : MaskOp} (h : masks.Follows nesting) (hop : masks.apply op = .ok next) :
    next.Follows (nesting.after op) := by
  obtain ⟨rfl, hreadable⟩ := h
  obtain ⟨points, conditions⟩ := nesting
  cases op with
  | generate predicate =>
    obtain ⟨-, -, top, mask, htop, hmask, rfl⟩ := generate_eq_ok.mp hop
    obtain rfl := Except.ok.inj (top_masks.symm.trans htop)
    refine ⟨?_, Nesting.isReadable_entered hmask hreadable⟩
    show MaskStack.mk points _ = Nesting.masks ⟨points, ⟨predicate, 0⟩ :: conditions⟩
    rw [Nesting.masks_cons, Nesting.maskOf_entered hmask]
    rfl
  | invert =>
    cases conditions with
    | nil => cases hop
    | cons condition outer =>
      obtain rfl := Except.ok.inj ((invert_masks hreadable).symm.trans hop)
      -- whether a predicate can be read does not hang on the branch
      exact ⟨rfl, hreadable⟩
  | clear =>
    cases conditions with
    | nil => cases hop
    | cons condition outer =>
      obtain rfl := Except.ok.inj (clear_masks.symm.trans hop)
      exact ⟨rfl, hreadable.2⟩
  | reset n => exact new_follows hop

/-- **Any number of operations** do to the stack what they do to the open conditionals. -/
theorem Follows.applyAll {ops : List MaskOp} (h : masks.Follows nesting)
    (hops : ops.foldlM MaskStack.apply masks = .ok next) :
    next.Follows (ops.foldl Nesting.after nesting) := by
  induction ops generalizing masks nesting with
  | nil =>
    obtain rfl := pure_eq_ok.mp hops
    exact h
  | cons op ops ih =>
    rw [List.foldlM_cons, bind_eq_ok] at hops
    obtain ⟨middle, hop, hops⟩ := hops
    exact ih (h.apply hop) hops

/-! ### What the masks say -/

/-- The stack holds what the open conditionals ask for. -/
structure Implements (nesting : Nesting) (masks : MaskStack) : Prop where
  points_eq : masks.points = nesting.points
  /-- There is a mask for every open conditional, and the base. -/
  depth_eq : masks.depth = 1 + nesting.conditions.length
  base_eq : masks.entries.getLast? = some (Array.replicate nesting.points true)
  /-- The mask of the `k`-th open conditional, counted from the outermost, marks the points for which
      it and all those around it hold. -/
  level : ∀ k ≤ nesting.conditions.length, ∃ mask, masks.entries.reverse[k]? = some mask ∧
    mask.size = nesting.points ∧ ∀ i < nesting.points, (mask[i]? = some true ↔
      ∀ j < k, ∀ condition, nesting.conditions.reverse[j]? = some condition →
        condition.holds i = true)
  /-- Leaving a conditional leaves the masks around it as they are. -/
  clear_eq : nesting.conditions ≠ [] →
    masks.clear = .ok { masks with entries := masks.entries.tail }
  /-- Once all conditionals entered in between are left, the stack is the same as before. -/
  restores : ∀ (ops : List MaskOp) next, ops.foldlM MaskStack.apply masks = .ok next →
    ops.foldl Nesting.after nesting = nesting → next = masks
  /-- Turning over twice changes nothing. -/
  invert_invert : ∀ next, masks.invert = .ok next → next.invert = .ok masks
  /-- The two branches divide the enclosing mask between them. -/
  partition : ∀ next, masks.invert = .ok next → ∃ top other enclosing,
    masks.top = .ok top ∧ next.top = .ok other ∧ masks.entries[1]? = some enclosing ∧
      ∀ i < nesting.points, ∃ a b, top[i]? = some a ∧ other[i]? = some b ∧
        enclosing[i]? = some (a || b) ∧ (a && b) = false
  isEmpty_eq : masks.isEmpty = .ok ((List.range nesting.points).all (!nesting.isActive ·))
  activePoints_eq : masks.activePoints = .ok ((List.range nesting.points).countP nesting.isActive)
  /-- Outside of every conditional no mask is in force. -/
  active_none : nesting.conditions = [] → masks.active = .ok none
  active_some : nesting.conditions ≠ [] → ∃ mask, masks.active = .ok (some mask) ∧
    mask.size = nesting.points ∧ ∀ i < nesting.points, mask[i]? = some (nesting.isActive i)
  /-- The base can neither be left nor turned over, every other mask can. -/
  clear_fails : (∃ fault, masks.clear = .error fault) ↔ masks.depth = 1
  invert_fails : (∃ fault, masks.invert = .error fault) ↔ masks.depth = 1

theorem Follows.implements (h : masks.Follows nesting) : masks.Implements nesting := by
  have hfollows := h
  obtain ⟨rfl, hreadable⟩ := h
  obtain ⟨points, conditions⟩ := nesting
  have hdepth : (Nesting.masks ⟨points, conditions⟩).depth = 1 + conditions.length :=
    Nesting.length_entries
  refine ⟨rfl, hdepth, ?base, ?level, ?clear, ?restores, ?turn, ?partition, isEmpty_masks,
    activePoints_masks, ?none, ?some, ?clearFails, ?invertFails⟩
  case base =>
    rw [← List.head?_reverse, List.head?_eq_getElem?, Nesting.getElem?_reverse_entries (Nat.zero_le _),
      Nat.sub_zero, List.drop_length, Nesting.maskOf_nil]
  case level =>
    intro k hk
    refine ⟨_, Nesting.getElem?_reverse_entries hk, Nesting.size_maskOf, ?_⟩
    intro i hi
    rw [Nesting.getElem?_maskOf hi, Option.some.injEq, Nesting.all_drop_iff]
  case restores =>
    intro ops next hops hsame
    rw [(hfollows.applyAll hops).masks_eq, hsame]
  case none =>
    rintro rfl
    rfl
  -- the rest is about the innermost conditional, if there is one
  all_goals cases conditions
  case clear.nil | some.nil => exact fun hne => absurd rfl hne
  case turn.nil | partition.nil => exact fun next hnext => by cases hnext
  case clearFails.nil | invertFails.nil => exact iff_of_true ⟨_, rfl⟩ rfl
  case clear.cons condition outer =>
    intro _
    rw [clear_masks, Nesting.masks_cons]
    rfl
  case turn.cons condition outer =>
    intro next hnext
    obtain rfl := Except.ok.inj ((invert_masks hreadable).symm.trans hnext)
    exact invert_turned hreadable
  case partition.cons condition outer =>
    intro next hnext
    obtain rfl := Except.ok.inj ((invert_masks hreadable).symm.trans hnext)
    obtain ⟨rest, houter⟩ := Nesting.exists_masks points outer
    refine ⟨_, _, Nesting.maskOf points outer, top_masks, top_masks, ?_, ?_⟩
    · rw [Nesting.masks_cons, houter]
      rfl
    · exact fun i hi => branches_partition hreadable hi
  case some.cons condition outer =>
    intro _
    exact ⟨_, active_masks, Nesting.size_maskOf, fun i hi => Nesting.getElem?_maskOf hi⟩
  case clearFails.cons condition outer =>
    rw [clear_masks, hdepth]
    simp
  case invertFails.cons condition outer =>
    rw [invert_masks hreadable, hdepth]
    simp

/-- **Masks implement nested conditionals.**  Whatever is done to a stack of masks that starts with
    its base, as long as it does not fault, the stack holds what the open conditionals ask for. -/
theorem implements_nesting {n : Nat} {ops : List MaskOp} {first : MaskStack}
    (hfirst : new n = .ok first ∨ ∃ old : MaskStack, old.reset n = .ok first)
    (hops : ops.foldlM MaskStack.apply first = .ok masks) :
    masks.Implements (ops.foldl Nesting.after ⟨n, []⟩) := by
  have hstart : first.Follows ⟨n, []⟩ := by
    rcases hfirst with hnew | ⟨old, hreset⟩
    · exact new_follows hnew
    · exact new_follows hreset
  exact (hstart.applyAll hops).implements

/-- Two points, of which the first enters a conditional and then the second branch of another. -/
theorem implements_nesting_twoPoints :
    MaskStack.Implements ⟨2, [⟨.uniformFloat 0, 1⟩, ⟨.varyingFloat #[1, 0], 0⟩]⟩
      ⟨2, [#[true, false], #[true, false], #[true, true]]⟩ := by
  have hops : [.generate (.varyingFloat #[1, 0]), .generate (.uniformFloat 0), .invert].foldlM
      MaskStack.apply (base 2) = .ok ⟨2, [#[true, false], #[true, false], #[true, true]]⟩ := by
    decide +kernel
  exact implements_nesting (.inl rfl) hops

end MaskStack

end Shading
