/-!
# Sets of characters by ranges

A set of code points is kept as its maximal ranges in ascending order and searched by halving.
-/

namespace RouteDoc.Text

/-- Searches the ranges with indices from `low` below `high`; the count bounds the halvings. -/
def inRangesFrom (ranges : Array (Nat × Nat)) (n : Nat) : Nat → Nat → Nat → Bool
  | 0, _, _ => false
  | count + 1, low, high =>
    if low ≥ high then false
    else
      let middle := (low + high) / 2
      match ranges[middle]? with
      | none => false
      | some (first, last) =>
        if n < first then inRangesFrom ranges n count low middle
        else if last < n then inRangesFrom ranges n count (middle + 1) high
        else true

/-- Does one of the ranges hold the code point? -/
def inRanges (ranges : Array (Nat × Nat)) (n : Nat) : Bool :=
  inRangesFrom ranges n (ranges.size + 1) 0 ranges.size

end RouteDoc.Text
