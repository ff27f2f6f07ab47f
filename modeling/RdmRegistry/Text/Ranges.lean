/-
Sets of characters given by ranges of code points.
-/

namespace RdmRegistry.Text

/-- A set of characters, as ranges of code points with both ends included. -/
abbrev Ranges := List (Nat × Nat)

namespace Ranges

/-- A character belongs to the set when its code point lies in one of the ranges. -/
def contains (ranges : Ranges) (c : Char) : Bool :=
  ranges.any fun (low, high) => decide (low ≤ c.toNat ∧ c.toNat ≤ high)

theorem contains_iff {ranges : Ranges} {c : Char} :
    ranges.contains c = true ↔ ∃ r ∈ ranges, r.1 ≤ c.toNat ∧ c.toNat ≤ r.2 := by
  simp [contains, List.any_eq_true]

end Ranges

end RdmRegistry.Text
