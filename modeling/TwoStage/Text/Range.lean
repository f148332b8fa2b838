/-!
# Ranges of code points

Properties of characters are kept as lists of ranges of code points.

## Main definitions

- `CodeRange` — a closed range of code points
- `inRanges` — whether a character lies in one of several ranges
-/

namespace TwoStage

/-- A closed range of code points, first and last. -/
abbrev CodeRange := Nat × Nat

/-- Whether the code point of `c` lies in one of the ranges. -/
def inRanges (ranges : List CodeRange) (c : Char) : Bool :=
  ranges.any fun range => range.1 ≤ c.toNat && c.toNat ≤ range.2

theorem inRanges_iff {ranges : List CodeRange} {c : Char} :
    inRanges ranges c = true ↔ ∃ range ∈ ranges, range.1 ≤ c.toNat ∧ c.toNat ≤ range.2 := by
  simp [inRanges]

end TwoStage
