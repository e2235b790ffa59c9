import Shading.Proofs.Upkeep

namespace Shading

/-!
# The results of builtins

A builtin with a result computes it at every point.  So the type of the result follows from the types
of the arguments, and the result is varying exactly if an argument is.  It has all the elements that
its storage asks for, with one exception: the derivative of a register that holds nothing is a uniform
float without an element.

* `Builtin.Returns` — all that is known of a result without looking at floats;
* `Builtin.run_returns` — every result is such.
-/

/-! ### Arguments -/

/-- Decoded calls pass as many arguments as their builtin takes. -/
theorem Command.count_of_decode {code : Array Word} {ip : Nat} {instruction : Instruction}
    {function : Builtin} {result : Address} {arguments : List Address}
    (h : decode code ip instruction = .ok (.call function result arguments)) :
    function.arity.1 ≤ arguments.length ∧ arguments.length ≤ function.arity.2 := by
  cases decode_eq_ok.mp h with
  | call _ _ _ _ _ hleast hmost harguments =>
    have hlength := (mapM_eq_ok.mp harguments).1
    rw [List.length_range] at hlength
    omega

/-- A call passes no more arguments than its builtin takes. -/
def Command.PassesNoMore : Command → Prop
  | .call function _ arguments => arguments.length ≤ function.arity.2
  | _ => True

theorem Command.passesNoMore_of_decode {code : Array Word} {ip : Nat} {instruction : Instruction}
    {command : Command} (h : decode code ip instruction = .ok command) : command.PassesNoMore := by
  cases command with
  | call => exact (count_of_decode h).2
  | _ => trivial

/-! ### Results -/

namespace Builtin

/-- What the result of a builtin is like, whatever its floats. -/
structure Returns (function : Builtin) (points : Nat) (arguments : Array Value) (value : Value) :
    Prop where
  type_eq : function.resultType (arguments.toList.map Value.type) = some value.type
  storage_eq : value.storage = widestOf arguments.toList
  /-- Nothing has a derivative of no elements. -/
  size_eq : value.size = value.storage.size points ∨
    ∃ direction, function = .derivative direction ∧ arguments[0]? = some Value.empty

variable {function : Builtin} {setting : Setting} {arguments : Array Value} {value : Value}

/-- **Results.**  The result of a builtin that is passed values over the points of the grid, and no
    more of them than it takes. -/
theorem run_returns (hcount : arguments.size ≤ function.arity.2)
    (hover : Value.AllOver setting.points arguments)
    (h : function.run setting arguments = .ok (.result value)) :
    function.Returns setting.points arguments value := by
  cases replied_of_run h with
  | floats hvalues htype hout =>
    obtain ⟨-, xs, -, rfl⟩ := Setting.floats_eq_ok.mp hout
    exact ⟨by rw [hvalues hcount, htype], by rw [hvalues hcount], .inl rfl⟩
  | triples hvalues htype _ hout =>
    obtain ⟨-, xs, -, rfl⟩ := Setting.triples_eq_ok.mp hout
    exact ⟨by rw [hvalues hcount, htype], by rw [hvalues hcount], .inl rfl⟩
  | @derivative direction p _ hfunction hp hout =>
    subst hfunction
    obtain ⟨-, floats, -, rfl⟩ := Setting.change_of_difference hout
    have hvalues : arguments.toList = [p] := toList_eq_of_zipIdx _ hcount (by simp [hp])
    refine ⟨by rw [hvalues]; rfl, by rw [hvalues, widestOf_singleton]; rfl, ?_⟩
    obtain rfl | hsize := (hover 0 p hp).size
    · exact .inr ⟨direction, rfl, hp⟩
    · exact .inl hsize
  | area hfunction hout =>
    subst hfunction
    obtain ⟨p, hp, htriple, floats, -, rfl⟩ := Setting.areas_of_area hout
    have hvalues : arguments.toList = [p] := toList_eq_of_zipIdx _ hcount (by simp [hp])
    exact ⟨rfl, by rw [hvalues, widestOf_singleton]; rfl,
      .inl ((hover 0 p hp).size_of_isTriple htriple)⟩

end Builtin

end Shading
