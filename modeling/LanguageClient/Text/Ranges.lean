/-!
# Ranges of code points

A class of characters given by ascending, disjoint ranges of code points.
-/

namespace LanguageClient

/-- Whether `n` lies in one of the ranges number `lo`, …, `hi - 1`, by halving them. -/
def inRangesFrom (ranges : Array (Nat × Nat)) (n : Nat) : Nat → Nat → Nat → Bool
  | 0, _, _ => false
  | fuel + 1, lo, hi =>
    if hi ≤ lo then false
    else
      let mid := (lo + hi) / 2
      match ranges[mid]? with
      | none => false
      | some (first, last) =>
        if n < first then inRangesFrom ranges n fuel lo mid
        else if last < n then inRangesFrom ranges n fuel (mid + 1) hi
        else true

/-- Whether `n` lies in one of the ranges. -/
def inRanges (ranges : Array (Nat × Nat)) (n : Nat) : Bool :=
  inRangesFrom ranges n (ranges.size.log2 + 2) 0 ranges.size

end LanguageClient
