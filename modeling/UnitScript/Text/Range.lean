/-!
# Ranges of code points

A character class is a list of ranges of code points in increasing order.
-/

namespace UnitScript.Text

/-- The code points from the first to the second, both included. -/
abbrev Range := Nat × Nat

def Range.contains (r : Range) (n : Nat) : Bool := r.1 ≤ n && n ≤ r.2

/-- Whether some range of a class holds `n`. -/
def inRanges (rs : List Range) (n : Nat) : Bool := rs.any (Range.contains · n)

/-- Membership in a class that is split at `0x1000` and at `0x10000`. -/
def inClass (low middle high : List Range) (n : Nat) : Bool :=
  if n < 0x1000 then inRanges low n
  else if n < 0x10000 then inRanges middle n
  else inRanges high n

end UnitScript.Text
