/-!
# Sets of characters given by ranges of code points

The Unicode properties this library consults are long but few; each is kept as a list of ranges,
both ends included, in ascending order.

* `CodeRanges.covers` — membership.
-/

namespace Callable.Text

/-- A set of characters: ranges of code points, both ends included. -/
abbrev CodeRanges := List (Nat × Nat)

/-- Is the character in one of the ranges? -/
def CodeRanges.covers (ranges : CodeRanges) (c : Char) : Bool :=
  ranges.any fun (first, last) => first ≤ c.toNat && c.toNat ≤ last

theorem CodeRanges.covers_iff {ranges : CodeRanges} {c : Char} :
    ranges.covers c = true ↔ ∃ r ∈ ranges, r.1 ≤ c.toNat ∧ c.toNat ≤ r.2 := by
  simp [covers]

end Callable.Text
