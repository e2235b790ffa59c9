namespace Shading

/-!
# Sets of characters

A set of characters is given by the ranges of their code points, from the lowest to the highest.

* `CodePoints.contains` — whether a character is in the set; the search stops at the first range that
  begins above it.
* `CodePoints.contains_iff` — nothing is missed if the ranges ascend.
-/

/-- Ranges of code points, ends included, in ascending order. -/
abbrev CodePoints := List (Nat × Nat)

namespace CodePoints

/-- The character is in one of the ranges. -/
def contains : CodePoints → Char → Bool
  | [], _ => false
  | (low, high) :: rest, c =>
    if c.toNat < low then false else c.toNat ≤ high || contains rest c

/-- The ranges are not empty, ascend and do not touch. -/
def isSorted : CodePoints → Bool
  | [] => true
  | [(low, high)] => low ≤ high
  | (low, high) :: next :: rest => low ≤ high && high + 1 < next.1 && isSorted (next :: rest)

theorem isSorted_tail {range : Nat × Nat} {rest : CodePoints}
    (sorted : isSorted (range :: rest) = true) : isSorted rest = true := by
  cases rest with
  | nil => rfl
  | cons next rest => simp_all [isSorted]

/-- Every range begins behind the end of the ranges before it. -/
theorem lt_of_isSorted {range : Nat × Nat} {rest : CodePoints}
    (sorted : isSorted (range :: rest) = true) : ∀ other ∈ rest, range.2 < other.1 := by
  induction rest generalizing range with
  | nil => simp
  | cons next rest ih =>
    intro other member
    have later := ih (isSorted_tail sorted)
    simp only [isSorted, Bool.and_eq_true, decide_eq_true_eq] at sorted
    rcases List.mem_cons.mp member with rfl | member
    · omega
    · have := later other member
      have : next.1 ≤ next.2 := by
        cases rest with
        | nil => simp at member
        | cons => simp_all [isSorted]
      omega

theorem contains_iff {ranges : CodePoints} (sorted : ranges.isSorted = true) (c : Char) :
    ranges.contains c = true ↔ ∃ range ∈ ranges, range.1 ≤ c.toNat ∧ c.toNat ≤ range.2 := by
  induction ranges with
  | nil => simp [contains]
  | cons range rest ih =>
    have later := lt_of_isSorted sorted
    have nonempty : range.1 ≤ range.2 := by
      cases rest <;> simp_all [isSorted]
    simp only [contains, List.mem_cons, exists_eq_or_imp]
    split
    · rename_i below
      constructor
      · simp
      · rintro (inside | ⟨other, member, inside⟩)
        · omega
        · have := later other member
          omega
    · simp only [Bool.or_eq_true, decide_eq_true_eq, ih (isSorted_tail sorted)]
      constructor
      · rintro (inside | other)
        · exact .inl ⟨by omega, inside⟩
        · exact .inr other
      · rintro (inside | other)
        · exact .inl inside.2
        · exact .inr other

end CodePoints

/-- The invisible sign that ties two characters into one glyph. -/
def zeroWidthJoiner : Char := '\u200d'

end Shading
