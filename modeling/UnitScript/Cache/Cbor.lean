import UnitScript.Text.Utf8

/-!
# A binary data format

The subset of CBOR that describes stored units, and a reader for all of CBOR. Written data is
canonical: lengths take the fewest bytes, and the entries of a map are ordered by their encoded keys,
shorter ones first.
-/

namespace UnitScript.Cbor

/-- The first bytes of an item: its major type and a number. -/
def head (major n : Nat) : Bytes :=
  let first (info : Nat) : UInt8 := UInt8.ofNat (major * 32 + info)
  if n < 24 then [first n]
  else if n < 0x100 then first 24 :: Bytes.bigEndian 1 n
  else if n < 0x10000 then first 25 :: Bytes.bigEndian 2 n
  else if n < 0x100000000 then first 26 :: Bytes.bigEndian 4 n
  else first 27 :: Bytes.bigEndian 8 n

def int : Int → Bytes
  | .ofNat n => head 0 n
  | .negSucc n => head 1 n

def text (s : Bytes) : Bytes := head 3 s.length ++ s

def array (items : List Bytes) : Bytes := head 4 items.length ++ items.flatten

/-- Shorter keys come first; keys of the same length are ordered by their bytes. -/
def keyLe (a b : Bytes × Bytes) : Bool :=
  a.1.length < b.1.length || (a.1.length == b.1.length && a.1 ≤ b.1)

/-- Puts an entry in front of the first one that does not come before it. -/
def insertEntry (e : Bytes × Bytes) : List (Bytes × Bytes) → List (Bytes × Bytes)
  | [] => [e]
  | f :: rest => if keyLe e f then e :: f :: rest else f :: insertEntry e rest

/-- A map of encoded keys and values. -/
def map (entries : List (Bytes × Bytes)) : Bytes :=
  head 5 entries.length ++ (entries.foldr insertEntry []).flatMap fun e => e.1 ++ e.2

/-- An item as it is read. -/
inductive Item where
  | uint (n : Nat)
  /-- The number `-1 - n`. -/
  | negative (n : Nat)
  | bytes (s : Bytes)
  | text (s : Bytes)
  | array (items : List Item)
  | map (entries : List (Item × Item))
  | tag (n : Nat) (content : Item)
  /-- False, true, null and undefined are the simple values 20 to 23. -/
  | simple (n : Nat)
  | float
  deriving Inhabited

abbrev Reader := StateT Bytes Option

def take (n : Nat) : Reader Bytes := fun s =>
  let taken := s.take n
  if taken.length = n then some (taken, s.drop n) else none

def ofBigEndian (s : Bytes) : Nat := s.foldl (fun n b => n * 256 + b.toNat) 0

/-- The number in an item's first bytes; none stands for an item that ends with a break. -/
def argument (info : Nat) : Reader (Option Nat) := do
  if info < 24 then return some info
  else if info = 24 then return some (ofBigEndian (← take 1))
  else if info = 25 then return some (ofBigEndian (← take 2))
  else if info = 26 then return some (ofBigEndian (← take 4))
  else if info = 27 then return some (ofBigEndian (← take 8))
  else if info = 31 then return none
  else failure

def firstByte : Reader (Nat × Nat) := do
  match ← take 1 with
  | [b] => return (b.toNat / 32, b.toNat % 32)
  | _ => failure

/-- Takes the byte that ends an item of unstated length, if it is there. -/
def isBreak : Reader Bool := fun s =>
  match s with
  | 255 :: rest => some (true, rest)
  | s => some (false, s)

/-- The most items that an array, or entries that a map, may have. -/
def maxItems : Nat := 131072

/-- `n` items. -/
def many {α : Type} (item : Reader α) : Nat → Reader (List α)
  | 0 => return []
  | n + 1 => do
    let x ← item
    return x :: (← many item n)

/-- The items up to a break, in an input of at most `limit` bytes. -/
def manyToBreak {α : Type} (item : Reader α) : (limit : Nat) → Reader (List α)
  | 0 => failure
  | limit + 1 => do
    if ← isBreak then return []
    let x ← item
    return x :: (← manyToBreak item limit)

/-- The items of an array or the entries of a map. -/
def sequence {α : Type} (item : Reader α) : Option Nat → Reader (List α)
  | some n => if n > maxItems then failure else many item n
  | none => do
    let items ← manyToBreak item ((← get).length + 1)
    if items.length > maxItems then failure else return items

/-- A part of a string of unstated length: a string of the same type. -/
def chunk (major : Nat) : Reader Bytes := do
  let (m, info) ← firstByte
  match ← argument info with
  | some n => if m = major then take n else failure
  | none => failure

def string (major : Nat) : Option Nat → Reader Bytes
  | some n => take n
  | none => do return (← manyToBreak (chunk major) ((← get).length + 1)).flatten

/-- Simple values below 32 have no longer form. -/
def simpleOrFloat (info : Nat) : Option Nat → Reader Item
  | none => failure
  | some n =>
    if info < 24 then return .simple n
    else if info = 24 then (if n < 32 then failure else return .simple n)
    else return .float

/-- How deep arrays and maps may be nested. -/
def maxLevels : Nat := 32

/-- An item with at most `levels` levels of items in it. -/
def item : (levels : Nat) → Reader Item
  | 0 => failure
  | levels + 1 => do
    let (major, info) ← firstByte
    let n ← argument info
    match major with
    | 0 => return .uint (← n)
    | 1 => return .negative (← n)
    | 2 => return .bytes (← string 2 n)
    | 3 => return .text (← string 3 n)
    | 4 => return .array (← sequence (item levels) n)
    | 5 => return .map (← sequence (do return (← item levels, ← item levels)) n)
    | 6 => return .tag (← n) (← item levels)
    | _ => simpleOrFloat info n

/-- Reads a byte string that is one item and nothing more. -/
def decode (s : Bytes) : Option Item :=
  match (item (maxLevels + 1)).run s with
  | some (i, []) => some i
  | _ => none

end UnitScript.Cbor
