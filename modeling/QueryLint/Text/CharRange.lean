/-!
# Ranges of code points

Properties of characters are tables of closed ranges, in increasing order and apart from each
other. The tables hold the Unicode 14 data.
-/
namespace QueryLint.Text

/-- The code points from `first` to `last`, both included. -/
structure CharRange where
  first : Nat
  last : Nat

def inRanges (table : List CharRange) (c : Char) : Bool :=
  table.any fun r => r.first ≤ c.toNat && c.toNat ≤ r.last

end QueryLint.Text
