import UnitScript.Cache.Cbor
import UnitScript.NameMap

/-!
# Descriptions of stored units

What is kept beside the code of a stored unit, and its binary form: a map from small numbers to the
fields. Empty sources and dependencies are left out.
-/

namespace UnitScript

structure UnitMeta where
  /-- The texts of the exported kinds. -/
  exports : NameMap Bytes := .empty
  /-- Where the unit was compiled from. -/
  source : Bytes := []
  /-- The number of data entries. -/
  data : Int := 0
  format : Bytes := []
  /-- The digests of the imported units. -/
  deps : List Bytes := []
  deriving DecidableEq, Repr

namespace UnitMeta

def encode (m : UnitMeta) : Bytes :=
  let exports := m.exports.entries.map fun e => (Cbor.text e.1, Cbor.text e.2)
  Cbor.map ([(Cbor.int 1, Cbor.map exports)] ++
    (if m.source.isEmpty then [] else [(Cbor.int 2, Cbor.text m.source)]) ++
    [(Cbor.int 3, Cbor.int m.data), (Cbor.int 4, Cbor.text m.format)] ++
    (if m.deps.isEmpty then [] else [(Cbor.int 5, Cbor.array (m.deps.map Cbor.text))]))

open Cbor (Item)

/-- The content of a tag, with the checks that the known tags ask for. -/
def untag : Item → Option Item
  | .tag 0 (.text s) => some (.text s)
  | .tag 0 _ => none
  | .tag 1 (.uint n) => some (.uint n)
  | .tag 1 (.negative n) => some (.negative n)
  | .tag 1 .float => some .float
  | .tag 1 _ => none
  | .tag 2 (.bytes s) => some (.uint (Cbor.ofBigEndian s))
  | .tag 2 _ => none
  | .tag 3 (.bytes s) => some (.negative (Cbor.ofBigEndian s))
  | .tag 3 _ => none
  | .tag _ content => untag content
  | i => some i

def isNull : Item → Bool
  | .simple 22 => true
  | .simple 23 => true
  | _ => false

/-- A field that is null keeps its empty value. -/
def orNull {α : Type} (empty : α) (read : Item → Option α) (i : Item) : Option α := do
  let i ← untag i
  if isNull i then return empty else read i

def readText : Item → Option Bytes
  | .text s => if Utf8.isValid s then some s else none
  | _ => none

def readInt : Item → Option Int
  | .uint n => if n < 0x8000000000000000 then some n else none
  | .negative n => if n < 0x8000000000000000 then some (-1 - n) else none
  | .simple n => if n = 20 ∨ n = 21 then none else some n
  | _ => none

def readTexts : Item → Option (List Bytes)
  | .array items => items.mapM (orNull [] readText)
  | _ => none

def readExports : Item → Option (NameMap Bytes)
  | .map entries => do
    let es ← entries.mapM fun e => return (← orNull [] readText e.1, ← orNull [] readText e.2)
    return NameMap.ofList es
  | _ => none

/-- The number that a key stands for; the digit of a field may also stand in a text. -/
def readKey : Item → Option (Option Int)
  | .uint n => some (some n)
  | .negative n => if n < 0x8000000000000000 then some (some (-1 - n)) else none
  | .text [digit] =>
    if 49 ≤ digit ∧ digit ≤ 53 then some (some (digit.toNat - 48))
    else if digit < 128 then some none
    else none
  | .text s => if Utf8.isValid s then some none else none
  | _ => none

/-- Takes one entry into account; of two entries for a field the first counts. -/
def readEntry (seen : List Int) (m : UnitMeta) (e : Item × Item) : Option (List Int × UnitMeta) := do
  match ← readKey e.1 with
  | none => return (seen, m)
  | some key =>
    if key ∈ seen then return (seen, m)
    let m ←
      match key with
      | 1 => do pure { m with exports := ← orNull .empty readExports e.2 }
      | 2 => do pure { m with source := ← orNull [] readText e.2 }
      | 3 => do pure { m with data := ← orNull 0 readInt e.2 }
      | 4 => do pure { m with format := ← orNull [] readText e.2 }
      | 5 => do pure { m with deps := ← orNull [] readTexts e.2 }
      | _ => pure m
    return (key :: seen, m)

def readEntries (seen : List Int) (m : UnitMeta) : List (Item × Item) → Option UnitMeta
  | [] => some m
  | e :: rest => do
    let (seen, m) ← readEntry seen m e
    readEntries seen m rest

def ofItem : Item → Option UnitMeta
  | .map entries => readEntries [] {} entries
  | _ => none

/-- Reads a description; a null item is an empty one. -/
def decode (s : Bytes) : Option UnitMeta := do orNull {} ofItem (← Cbor.decode s)

end UnitMeta

end UnitScript
