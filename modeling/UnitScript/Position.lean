import UnitScript.Bytes

/-!
# Source positions
-/

namespace UnitScript

/-- A line, counted from 1, and a column; `0:0` is an unknown place. -/
structure Position where
  line : Nat
  column : Nat
  deriving DecidableEq, Repr, Inhabited

namespace Position

def unknown : Position := ⟨0, 0⟩

def text (p : Position) : Bytes := Bytes.ofNat p.line ++ ":" ++ Bytes.ofNat p.column

/-- A message about the place `p`. -/
def note (p : Position) (message : Bytes) : Bytes := p.text ++ ": " ++ message

/-- Earlier in the text: a smaller line, or the same line and a smaller column. -/
def isBefore (p q : Position) : Bool :=
  p.line < q.line || (p.line == q.line && p.column < q.column)

end Position

end UnitScript
