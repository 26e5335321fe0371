import UnitScript.Bytes

/-!
# BLAKE2b

The BLAKE2b hash without a key, with a digest of 32 bytes.
-/

namespace UnitScript.Blake2b

abbrev Words := Vector UInt64 16

abbrev Chain := Vector UInt64 8

abbrev Order := Vector (Fin 16) 16

def iv : Chain := #v[0x6A09E667F3BCC908, 0xBB67AE8584CAA73B, 0x3C6EF372FE94F82B,
  0xA54FF53A5F1D36F1, 0x510E527FADE682D1, 0x9B05688C2B3E6C1F, 0x1F83D9ABFB41BD6B,
  0x5BE0CD19137E2179]

/-- The order in which each round takes the words of the message. -/
def schedule : List Order :=
  [(#v[0, 1, 2, 3, 4, 5, 6, 7, 8, 9, 10, 11, 12, 13, 14, 15]),
    (#v[14, 10, 4, 8, 9, 15, 13, 6, 1, 12, 0, 2, 11, 7, 5, 3]),
    (#v[11, 8, 12, 0, 5, 2, 15, 13, 10, 14, 3, 6, 7, 1, 9, 4]),
    (#v[7, 9, 3, 1, 13, 12, 11, 14, 2, 6, 5, 10, 4, 0, 15, 8]),
    (#v[9, 0, 5, 7, 2, 4, 10, 15, 14, 1, 11, 12, 6, 8, 3, 13]),
    (#v[2, 12, 6, 10, 0, 11, 8, 3, 4, 13, 7, 5, 15, 14, 1, 9]),
    (#v[12, 5, 1, 15, 14, 13, 4, 10, 0, 7, 6, 3, 9, 2, 8, 11]),
    (#v[13, 11, 7, 14, 12, 1, 3, 9, 5, 0, 15, 4, 8, 6, 2, 10]),
    (#v[6, 15, 14, 9, 11, 3, 0, 8, 12, 2, 13, 7, 1, 4, 10, 5]),
    (#v[10, 2, 8, 4, 7, 6, 1, 5, 15, 11, 9, 14, 3, 12, 13, 0]),
    (#v[0, 1, 2, 3, 4, 5, 6, 7, 8, 9, 10, 11, 12, 13, 14, 15]),
    (#v[14, 10, 4, 8, 9, 15, 13, 6, 1, 12, 0, 2, 11, 7, 5, 3])]

def rotateRight (x n : UInt64) : UInt64 := (x >>> n) ||| (x <<< (64 - n))

/-- Mixes two words of the message into a column or diagonal of the state. -/
def mix (v : Words) (a b c d : Fin 16) (x y : UInt64) : Words :=
  let va := v[a] + v[b] + x
  let vd := rotateRight (v[d] ^^^ va) 32
  let vc := v[c] + vd
  let vb := rotateRight (v[b] ^^^ vc) 24
  let va := va + vb + y
  let vd := rotateRight (vd ^^^ va) 16
  let vc := vc + vd
  let vb := rotateRight (vb ^^^ vc) 63
  ((((v.set a va).set b vb).set c vc).set d vd)

def round (m v : Words) (s : Order) : Words :=
  let v := mix v 0 4 8 12 m[s[0]] m[s[1]]
  let v := mix v 1 5 9 13 m[s[2]] m[s[3]]
  let v := mix v 2 6 10 14 m[s[4]] m[s[5]]
  let v := mix v 3 7 11 15 m[s[6]] m[s[7]]
  let v := mix v 0 5 10 15 m[s[8]] m[s[9]]
  let v := mix v 1 6 11 12 m[s[10]] m[s[11]]
  let v := mix v 2 7 8 13 m[s[12]] m[s[13]]
  mix v 3 4 9 14 m[s[14]] m[s[15]]

/-- The number with the given bytes, lowest first. -/
def wordOfBytes (s : Bytes) : UInt64 := s.foldr (fun b n => n <<< 8 ||| b.toUInt64) 0

/-- The words of a block; missing bytes are zero. -/
def wordsOfBlock (s : Bytes) : Words := Vector.ofFn fun i : Fin 16 => wordOfBytes ((s.drop (8 * i)).take 8)

/-- Takes a block into the chain; `count` is the number of message bytes up to its end. -/
def compress (h : Chain) (block : Bytes) (count : Nat) (last : Bool) : Chain :=
  let v : Words := h ++ iv
  let v := v.set 12 (v[12] ^^^ UInt64.ofNat count)
  let v := v.set 13 (v[13] ^^^ UInt64.ofNat (count / 0x10000000000000000))
  let v := if last then v.set 14 (v[14] ^^^ 0xFFFFFFFFFFFFFFFF) else v
  let m := wordsOfBlock block
  let v := schedule.foldl (round m) v
  Vector.ofFn fun i : Fin 8 => h[i] ^^^ v[i] ^^^ v[i.val + 8]

/-- Takes the rest of the message into the chain, in at most `blocks + 1` blocks of 128 bytes; `count`
bytes were taken before. -/
def absorb : (blocks : Nat) → Chain → (count : Nat) → Bytes → Chain
  | 0, h, count, s => compress h s (count + s.length) true
  | blocks + 1, h, count, s =>
    if s.length ≤ 128 then compress h s (count + s.length) true
    else absorb blocks (compress h (s.take 128) (count + 128) false) (count + 128) (s.drop 128)

def bytesOfWord (w : UInt64) : Bytes := (List.range 8).map fun i => (w >>> UInt64.ofNat (8 * i)).toUInt8

/-- The digest of a message, 32 bytes. -/
def hash (s : Bytes) : Bytes :=
  let h := absorb (s.length / 128) (iv.set 0 (iv[0] ^^^ 0x01010020)) 0 s
  (h.toList.flatMap bytesOfWord).take 32

end UnitScript.Blake2b
