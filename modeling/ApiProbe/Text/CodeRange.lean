/-!
Sets of characters given as lists of code point ranges, both ends included.
-/
namespace ApiProbe.Text

def inRanges (ranges : List (Nat × Nat)) (c : Char) : Bool :=
  ranges.any fun range => range.1 ≤ c.toNat && c.toNat ≤ range.2

/-- The offset of the code point of `c` in the first range that holds it. -/
def offsetInRanges? (ranges : List (Nat × Nat)) (c : Char) : Option Nat :=
  (ranges.find? fun range => range.1 ≤ c.toNat && c.toNat ≤ range.2).map (c.toNat - ·.1)

end ApiProbe.Text
