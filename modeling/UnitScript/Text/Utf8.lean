import UnitScript.Bytes

/-!
# Reading UTF-8

A byte string is cut into characters and stray bytes: at each position the longest valid UTF-8
sequence is one character, and a byte that starts none stands alone. Decoding reads a stray byte as
the replacement character.
-/

namespace UnitScript.Utf8

/-- A character, or a byte that is no part of one. -/
inductive Piece where
  | char (c : Char)
  | stray (b : UInt8)
  deriving DecidableEq, Repr

def isTail (b : UInt8) : Bool := 0x80 ≤ b && b ≤ 0xBF

def isTwo (b₀ b₁ : UInt8) : Bool := 0xC2 ≤ b₀ && b₀ ≤ 0xDF && isTail b₁

/-- Excludes overlong forms and surrogates by the range of the second byte. -/
def isThree (b₀ b₁ b₂ : UInt8) : Bool :=
  0xE0 ≤ b₀ && b₀ ≤ 0xEF && isTail b₁ && isTail b₂ &&
    (b₀ != 0xE0 || 0xA0 ≤ b₁) && (b₀ != 0xED || b₁ ≤ 0x9F)

/-- Excludes overlong forms and code points above `0x10FFFF`. -/
def isFour (b₀ b₁ b₂ b₃ : UInt8) : Bool :=
  0xF0 ≤ b₀ && b₀ ≤ 0xF4 && isTail b₁ && isTail b₂ && isTail b₃ &&
    (b₀ != 0xF0 || 0x90 ≤ b₁) && (b₀ != 0xF4 || b₁ ≤ 0x8F)

def low (b : UInt8) : Nat := b.toNat % 0x40

/-- The first piece of a non-empty byte string and the number of bytes after its first that it takes. -/
def first (b₀ : UInt8) (rest : Bytes) : Piece × Nat :=
  if b₀ < 0x80 then (.char (Char.ofNat b₀.toNat), 0)
  else
    match rest with
    | b₁ :: b₂ :: b₃ :: _ =>
      if isTwo b₀ b₁ then (.char (Char.ofNat (b₀.toNat % 0x20 * 0x40 + low b₁)), 1)
      else if isThree b₀ b₁ b₂ then
        (.char (Char.ofNat (b₀.toNat % 0x10 * 0x1000 + low b₁ * 0x40 + low b₂)), 2)
      else if isFour b₀ b₁ b₂ b₃ then
        (.char (Char.ofNat (b₀.toNat % 0x08 * 0x40000 + low b₁ * 0x1000 + low b₂ * 0x40 + low b₃)), 3)
      else (.stray b₀, 0)
    | [b₁, b₂] =>
      if isTwo b₀ b₁ then (.char (Char.ofNat (b₀.toNat % 0x20 * 0x40 + low b₁)), 1)
      else if isThree b₀ b₁ b₂ then
        (.char (Char.ofNat (b₀.toNat % 0x10 * 0x1000 + low b₁ * 0x40 + low b₂)), 2)
      else (.stray b₀, 0)
    | [b₁] =>
      if isTwo b₀ b₁ then (.char (Char.ofNat (b₀.toNat % 0x20 * 0x40 + low b₁)), 1)
      else (.stray b₀, 0)
    | [] => (.stray b₀, 0)

/-- The pieces of a byte string; the first `skip` bytes belong to the piece before. -/
def piecesFrom : (skip : Nat) → Bytes → List Piece
  | _, [] => []
  | skip + 1, _ :: rest => piecesFrom skip rest
  | 0, b :: rest => (first b rest).1 :: piecesFrom (first b rest).2 rest

def pieces (s : Bytes) : List Piece := piecesFrom 0 s

def replacement : Char := Char.ofNat 0xFFFD

def Piece.toChar : Piece → Char
  | .char c => c
  | .stray _ => replacement

def Piece.toBytes : Piece → Bytes
  | .char c => String.utf8EncodeChar c
  | .stray b => [b]

/-- Every stray byte reads as one replacement character. -/
def decode (s : Bytes) : List Char := (pieces s).map Piece.toChar

/-- The number of characters, stray bytes included. -/
def count (s : Bytes) : Nat := (pieces s).length

/-- The first `n` characters, stray bytes included. -/
def takeChars (n : Nat) (s : Bytes) : Bytes := ((pieces s).take n).flatMap Piece.toBytes

def isValid (s : Bytes) : Bool :=
  (pieces s).all fun
    | .char _ => true
    | .stray _ => false

end UnitScript.Utf8
