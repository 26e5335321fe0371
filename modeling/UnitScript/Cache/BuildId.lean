import UnitScript.Text.Quoted

/-!
# Build ids

Every stored unit has an id of sixteen bytes. Its plain form is five groups of hexadecimal digits with
dashes between them; the digits alone, the plain form in braces and the plain form behind `urn:uuid:`
are read as well.
-/

namespace UnitScript

/-- Sixteen bytes. -/
abbrev BuildId := Bytes

inductive BuildIdError where
  | badLength (n : Nat)
  | badLead (lead : Bytes)
  | badFormat
  deriving DecidableEq, Repr

def BuildIdError.message : BuildIdError → Bytes
  | badLength n => "invalid UUID length: " ++ Bytes.ofNat n
  | badLead lead => "invalid urn prefix: " ++ Text.quoted lead
  | badFormat => "invalid UUID format"

namespace BuildId

def hexValue? (b : UInt8) : Option Nat :=
  if 48 ≤ b && b ≤ 57 then some (b.toNat - 48)
  else if 97 ≤ b && b ≤ 102 then some (b.toNat - 87)
  else if 65 ≤ b && b ≤ 70 then some (b.toNat - 55)
  else none

/-- The bytes that pairs of digits stand for. -/
def ofDigits? : Bytes → Option Bytes
  | [] => some []
  | a :: b :: rest => do
    let hi ← hexValue? a
    let lo ← hexValue? b
    return UInt8.ofNat (hi * 16 + lo) :: (← ofDigits? rest)
  | [_] => none

/-- The lengths of the groups. -/
def groups : List Nat := [8, 4, 4, 4, 12]

/-- The digits of the plain form at the front of `s`. -/
def plainDigits? : List Nat → Bytes → Option Bytes
  | [], _ => some []
  | [n], s => some (s.take n)
  | n :: rest, s => do
    if s[n]? = some 45 then return s.take n ++ (← plainDigits? rest (s.drop (n + 1))) else none

def ofPlain (s : Bytes) : Except BuildIdError BuildId :=
  match (plainDigits? groups s).bind ofDigits? with
  | some id => .ok id
  | none => .error .badFormat

def urn : Bytes := Bytes.ofString "urn:uuid:"

/-- Reads an id in any of its forms, which are told apart by their lengths. -/
def parse (s : Bytes) : Except BuildIdError BuildId :=
  if s.length = 36 then ofPlain s
  else if s.length = 45 then
    if Bytes.lower (s.take 9) = urn then ofPlain (s.drop 9) else .error (.badLead (s.take 9))
  else if s.length = 38 then ofPlain (s.drop 1)
  else if s.length = 32 then
    match ofDigits? s with
    | some id => .ok id
    | none => .error .badFormat
  else .error (.badLength s.length)

/-- Cuts a text into pieces of the given lengths. -/
def cut : List Nat → Bytes → List Bytes
  | [], _ => []
  | n :: rest, s => s.take n :: cut rest (s.drop n)

/-- The id whose bytes are those of a number, highest first. -/
def ofNat (n : Nat) : BuildId := Bytes.bigEndian 16 n

/-- The plain form. -/
def text (id : BuildId) : Bytes := Bytes.join "-" (cut groups (Bytes.toHex id))

end BuildId

end UnitScript
