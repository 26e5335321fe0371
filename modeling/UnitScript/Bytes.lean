/-!
# Byte strings

Names, string constants and messages are strings of bytes. Most of them are UTF-8 text, but nothing
requires it, so the carrier is a plain list of bytes. A string literal stands for its UTF-8 bytes.
-/

namespace UnitScript

abbrev Bytes := List UInt8

/-- Names of cells, functions, symbols and modules. -/
abbrev Name := Bytes

namespace Bytes

instance instLawfulBEq : LawfulBEq Bytes := List.instLawfulBEq

instance instLawfulBEqList : LawfulBEq (List Bytes) := List.instLawfulBEq

def ofString (s : String) : Bytes := s.toByteArray.data.toList

/-- The UTF-8 form of a sequence of characters. -/
def ofChars (cs : List Char) : Bytes := cs.flatMap String.utf8EncodeChar

instance : Coe String Bytes := ⟨ofString⟩

/-- The parts with `sep` between neighbours. -/
def join (sep : Bytes) : List Bytes → Bytes
  | [] => []
  | [x] => x
  | x :: y :: rest => x ++ sep ++ join sep (y :: rest)

/-- `n` copies of `s`. -/
def replicate : Nat → Bytes → Bytes
  | 0, _ => []
  | n + 1, s => s ++ replicate n s

/-- What follows `lead`, when `s` starts with it. -/
def dropLead? (lead s : Bytes) : Option Bytes :=
  if lead.isPrefixOf s then some (s.drop lead.length) else none

/-- The parts of `s` between the bytes equal to `sep`; never empty. -/
def splitOn (sep : UInt8) : Bytes → List Bytes
  | [] => [[]]
  | b :: rest =>
    if b = sep then [] :: splitOn sep rest
    else match splitOn sep rest with
      | [] => [[b]]
      | part :: parts => (b :: part) :: parts

/-- Whether `part` occurs in `s`. -/
def contains (part : Bytes) : Bytes → Bool
  | [] => part.isEmpty
  | b :: rest => part.isPrefixOf (b :: rest) || contains part rest

/-- The decimal digits of `n`. -/
def ofNat (n : Nat) : Bytes := (Nat.toDigits 10 n).map fun c => UInt8.ofNat c.toNat

/-- Decimal text, with a minus sign in front of negative numbers. -/
def ofInt : Int → Bytes
  | .ofNat n => ofNat n
  | .negSucc n => 45 :: ofNat (n + 1)

def ofInt64 (v : Int64) : Bytes := ofInt v.toInt

def hexDigit (n : Nat) : UInt8 := UInt8.ofNat (if n < 10 then 48 + n else 87 + n)

/-- The `width` lowest hexadecimal digits of `n`, most significant first. -/
def hexOfNat : Nat → Nat → Bytes
  | 0, _ => []
  | width + 1, n => hexOfNat width (n / 16) ++ [hexDigit (n % 16)]

/-- The `width` lowest bytes of `n`, highest first. -/
def bigEndian : (width n : Nat) → Bytes
  | 0, _ => []
  | width + 1, n => bigEndian width (n / 256) ++ [UInt8.ofNat (n % 256)]

/-- Two lower-case hexadecimal digits a byte. -/
def toHex (s : Bytes) : Bytes := s.flatMap fun b => hexOfNat 2 b.toNat

def isDigit (b : UInt8) : Bool := 48 ≤ b && b ≤ 57

/-- The number that a run of decimal digits denotes. -/
def digitsValue (s : Bytes) : Nat := s.foldl (fun n b => n * 10 + (b.toNat - 48)) 0

/-- ASCII letters in lower case, everything else as it is. -/
def lower (s : Bytes) : Bytes := s.map fun b => if 65 ≤ b && b ≤ 90 then b + 32 else b

end Bytes

end UnitScript
