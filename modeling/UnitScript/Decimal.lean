import UnitScript.Bytes

/-!
# Decimal integers

Reading 64-bit integers from decimal text. A number out of range reads as the nearest one in range,
together with the news that it does not fit.
-/

namespace UnitScript.Decimal

def maxMagnitude (negative : Bool) : Nat := if negative then 0x8000000000000000 else 0x7FFFFFFFFFFFFFFF

def signed (negative : Bool) (magnitude : Nat) : Int64 :=
  Int64.ofInt (if negative then -(magnitude : Int) else magnitude)

/-- The value of a digit string with the given sign and whether it denotes that value. Text that is
no digit string reads as 0. -/
def read (negative : Bool) (digits : Bytes) : Int64 × Bool :=
  if digits.isEmpty || !digits.all Bytes.isDigit then (0, false)
  else
    let n := Bytes.digitsValue digits
    if n ≤ maxMagnitude negative then (signed negative n, true)
    else (signed negative (maxMagnitude negative), false)

/-- A decimal integer of 64 bits with an optional sign. -/
def readSigned? (s : Bytes) : Option Int64 :=
  let (value, ok) :=
    match s with
    | 45 :: digits => read true digits
    | 43 :: digits => read false digits
    | digits => read false digits
  if ok then some value else none

end UnitScript.Decimal
