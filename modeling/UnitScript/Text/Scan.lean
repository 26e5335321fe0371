import UnitScript.Bytes

/-!
# Scanning text

A scanner takes characters from the front of a text, or fails.
-/

namespace UnitScript

abbrev Scan := StateT (List Char) Option

namespace Scan

def peek : Scan (Option Char) := return (← get).head?

def next : Scan Char := fun s =>
  match s with
  | [] => none
  | c :: rest => some (c, rest)

/-- Takes `word` if the text starts with it. -/
def accept (word : List Char) : Scan Bool := fun s =>
  if word.isPrefixOf s then some (true, s.drop word.length) else some (false, s)

def expect (word : List Char) : Scan Unit := do
  if ← accept word then return () else failure

/-- Takes the longest run of characters with a property. -/
def takeRun (p : Char → Bool) : Scan (List Char) := fun s => some (s.takeWhile p, s.dropWhile p)

def skip (p : Char → Bool) : Scan Unit := fun s => some ((), s.dropWhile p)

/-- The number that the next `n` hexadecimal digits denote. -/
def hexNumber : (n value : Nat) → Scan Nat
  | 0, value => return value
  | n + 1, value => do
    let c ← next
    let k := c.toNat
    if 48 ≤ k && k ≤ 57 then hexNumber n (value * 16 + (k - 48))
    else if 97 ≤ k && k ≤ 102 then hexNumber n (value * 16 + (k - 87))
    else if 65 ≤ k && k ≤ 70 then hexNumber n (value * 16 + (k - 55))
    else failure

/-- The character that the next `n` hexadecimal digits denote. -/
def hexChar (n : Nat) : Scan Char := do
  let k ← hexNumber n 0
  if h : k.isValidChar then return Char.ofNatAux k h else failure

end Scan

end UnitScript
