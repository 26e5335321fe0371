import UnitScript.Text.Utf8

/-!
# Blanks

The characters with the White_Space property of Unicode, and trimming by them.
-/

namespace UnitScript.Text

def isBlank (c : Char) : Bool :=
  let n := c.toNat
  n == 0x20 || (0x09 ≤ n && n ≤ 0x0D) || n == 0x85 || n == 0xA0 || n == 0x1680 ||
    (0x2000 ≤ n && n ≤ 0x200A) || n == 0x2028 || n == 0x2029 || n == 0x202F || n == 0x205F ||
    n == 0x3000

/-- A blank character; a stray byte is none. -/
def isBlankPiece : Utf8.Piece → Bool
  | .char c => isBlank c
  | .stray _ => false

/-- The text without the blanks at its two ends. -/
def trim (s : Bytes) : Bytes :=
  let body := (Utf8.pieces s).dropWhile isBlankPiece
  let kept := (body.reverse.dropWhile isBlankPiece).reverse
  kept.flatMap Utf8.Piece.toBytes

end UnitScript.Text
