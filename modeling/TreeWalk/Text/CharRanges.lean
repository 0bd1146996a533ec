/-! # Ranges of characters

A class of characters is kept as an array of inclusive ranges in ascending
order, and membership is decided by bisection. -/

namespace TreeWalk

namespace CharRanges

/-- Whether `n` lies in one of the ranges with index in `[low, high)`; `fuel`
    halvings are left. -/
def search (ranges : Array (Nat × Nat)) (n low high : Nat) : Nat → Bool
  | 0 => false
  | fuel + 1 =>
    let middle := (low + high) / 2
    match ranges[middle]? with
    | none => false
    | some (first, last) =>
      if high ≤ low then false
      else if n < first then search ranges n low middle fuel
      else if last < n then search ranges n (middle + 1) high fuel
      else true

/-- Whether the character lies in one of the ranges. -/
def contains (ranges : Array (Nat × Nat)) (c : Char) : Bool :=
  search ranges c.toNat 0 ranges.size (ranges.size + 1)

end CharRanges

end TreeWalk
