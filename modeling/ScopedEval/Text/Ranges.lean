namespace ScopedEval.Text

def ascendingRanges : List (Nat × Nat) → Bool
  | [] => true
  | [(first, last)] => first ≤ last
  | (first, last) :: (next, stop) :: rest =>
    first ≤ last && last + 1 < next && ascendingRanges ((next, stop) :: rest)

structure Ranges where
  pairs : List (Nat × Nat)
  ascending : ascendingRanges pairs = true := by decide +kernel

namespace Ranges

def contains (ranges : Ranges) (char : Char) : Bool :=
  ranges.pairs.any fun (first, last) => first ≤ char.toNat && char.toNat ≤ last

end Ranges

end ScopedEval.Text
