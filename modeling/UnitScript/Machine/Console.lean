import UnitScript.Text.Blank

/-!
# The console

Text that a program prints, and the lines that it reads.
-/

namespace UnitScript

/-- The input not read yet, how reading fails after it (at its plain end if there is no such text),
and the output so far. -/
structure Console where
  input : Bytes := []
  failure : Option Bytes := none
  output : Array UInt8 := #[]
  deriving Repr

namespace Console

def print (c : Console) (text : Bytes) : Console := { c with output := c.output ++ text }

/-- The bytes up to and including the first newline, and the rest; none without a newline. -/
def cutLine? : Bytes → Option (Bytes × Bytes)
  | [] => none
  | b :: rest =>
    if b = 10 then some ([b], rest)
    else (cutLine? rest).map fun p => (b :: p.1, p.2)

/-- Reads a line, without the blanks around it. What follows the last newline counts as a line, and
at the end of input lines are empty; a failing input loses what follows its last newline. -/
def readLine (c : Console) : Except Bytes Bytes × Console :=
  match cutLine? c.input with
  | some (line, rest) => (.ok (Text.trim line), { c with input := rest })
  | none =>
    match c.failure with
    | none => (.ok (Text.trim c.input), { c with input := [] })
    | some text => (.error text, { c with input := [] })

end Console

end UnitScript
