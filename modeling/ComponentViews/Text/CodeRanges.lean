/-!
# Sets of characters

A property of characters that a standard gives as a table is kept as a list of closed ranges of
code points.

## Main definitions

* `CodeRanges`: such a list.
* `CodeRanges.contains`: whether a character is in one of the ranges.
-/

namespace ComponentViews

/-- A set of characters, given as closed ranges of code points. -/
structure CodeRanges where
  /-- First and last code point of each range. -/
  ranges : List (Nat × Nat)

/-- Whether the character's code point lies in one of the ranges. -/
def CodeRanges.contains (r : CodeRanges) (c : Char) : Bool :=
  r.ranges.any fun (first, last) => first ≤ c.toNat && c.toNat ≤ last

/-- Membership is membership in one of the ranges. -/
theorem CodeRanges.contains_iff (r : CodeRanges) (c : Char) :
    r.contains c ↔ ∃ p ∈ r.ranges, p.1 ≤ c.toNat ∧ c.toNat ≤ p.2 := by
  simp [contains]

end ComponentViews
