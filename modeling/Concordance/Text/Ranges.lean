/-!
# Sets of code points as ranges

A set of characters given as an ascending array of closed ranges of code points.

## Main definitions

* `inRanges`: membership, by halving
-/

namespace Concordance.Text

/-- Halving search: the number of steps is bounded by `fuel`, the ranges considered are those with
index from `lo` up to but not including `hi`. -/
def findRange (ranges : Array (Nat × Nat)) (n : Nat) : Nat → Nat → Nat → Bool
  | 0, _, _ => false
  | fuel + 1, lo, hi =>
    if lo < hi then
      let mid := (lo + hi) / 2
      match ranges[mid]? with
      | none => false
      | some (first, last) =>
        if n < first then findRange ranges n fuel lo mid
        else if last < n then findRange ranges n fuel (mid + 1) hi
        else true
    else false

/-- Whether a code point lies in one of the ranges. -/
def inRanges (ranges : Array (Nat × Nat)) (n : Nat) : Bool :=
  findRange ranges n (ranges.size + 1) 0 ranges.size

theorem inRanges_empty (n : Nat) : inRanges #[] n = false := by
  simp [inRanges, findRange]

end Concordance.Text
