import UnitScript.Text.Printable
import UnitScript.Text.Utf8

/-!
# Quoted text

A quoted text stands between two quote marks. Printable characters stand for themselves; the quote
mark and the backslash follow a backslash; other characters are written by a short escape, by two,
four or eight hexadecimal digits; a stray byte by its two digits.
-/

namespace UnitScript.Text

/-- The letter of the one-letter escape of a control character. -/
def shortEscape? (n : Nat) : Option Char :=
  match n with
  | 7 => some 'a'
  | 8 => some 'b'
  | 9 => some 't'
  | 10 => some 'n'
  | 11 => some 'v'
  | 12 => some 'f'
  | 13 => some 'r'
  | _ => none

def quotedChar (mark : Char) (c : Char) : Bytes :=
  if c = mark ∨ c = '\\' then Bytes.ofChars ['\\', c]
  else if isPrintable c then Bytes.ofChars [c]
  else match shortEscape? c.toNat with
    | some e => Bytes.ofChars ['\\', e]
    | none =>
      if c.toNat < 0x80 then "\\x" ++ Bytes.hexOfNat 2 c.toNat
      else if c.toNat < 0x10000 then "\\u" ++ Bytes.hexOfNat 4 c.toNat
      else "\\U" ++ Bytes.hexOfNat 8 c.toNat

def quotedPiece (mark : Char) : Utf8.Piece → Bytes
  | .char c => quotedChar mark c
  | .stray b => "\\x" ++ Bytes.hexOfNat 2 b.toNat

/-- A byte string between double quotes. -/
def quoted (s : Bytes) : Bytes :=
  "\"" ++ (Utf8.pieces s).flatMap (quotedPiece '"') ++ "\""

/-- A character between single quotes. -/
def quotedCharacter (c : Char) : Bytes := "'" ++ quotedChar '\x27' c ++ "'"

end UnitScript.Text
