import UnitScript.Bytes

/-!
# Values and the heap

A cell holds a value. Pointers address a cell of a heap block by its number and an offset, which may
lie outside the block as long as nothing is read or written through it.
-/

namespace UnitScript

inductive Value where
  | null
  | int (value : Int64)
  | ptr (block : Nat) (offset : Int64)
  /-- A pointer into no block. -/
  | nowhere (offset : Int64)
  | string (text : Bytes)
  | func (name : Name)
  /-- A value of a kind that does not exist. -/
  | invalid (kind : Int)
  deriving DecidableEq, Repr, Inhabited

/-- The blocks allocated so far. -/
abbrev Heap := Array (Array Value)

/-- Why nothing can be read or written through a value. -/
inductive AddressError where
  | notPointer (kind : Bytes)
  | outOfRange (offset : Int64) (size : Nat)
  deriving DecidableEq, Repr

def AddressError.message : AddressError → Bytes
  | notPointer kind => "dereference of " ++ kind ++ " value"
  | outOfRange offset size =>
    "pointer offset " ++ Bytes.ofInt64 offset ++ " out of range [0," ++ Bytes.ofNat size ++ ")"

namespace Heap

/-- The number of cells of a block. -/
def blockSize (h : Heap) (block : Nat) : Nat := (h[block]?.getD #[]).size

/-- A pointer to the first of `n` new cells, all zero. -/
def alloc (h : Heap) (n : Nat) : Heap × Value := (h.push (Array.replicate n (.int 0)), .ptr h.size 0)

end Heap

namespace Value

/-- The kinds of values in the order of their numbers. -/
def kindNames : List Bytes :=
  [Bytes.ofString "null", Bytes.ofString "int", Bytes.ofString "ptr", Bytes.ofString "string",
    Bytes.ofString "func"]

def kindTextOfCode (code : Int) : Bytes :=
  match (if 0 ≤ code then kindNames[code.toNat]? else none) with
  | some text => text
  | none => "kind(" ++ Bytes.ofInt code ++ ")"

def kindCode : Value → Int
  | null => 0
  | int _ => 1
  | ptr .. => 2
  | nowhere _ => 2
  | string _ => 3
  | func _ => 4
  | invalid kind => kind

def kindText (v : Value) : Bytes := kindTextOfCode v.kindCode

def isInt : Value → Bool
  | int _ => true
  | _ => false

/-- The printed form. A pointer shows its offset and the size of its block. -/
def text (h : Heap) : Value → Bytes
  | null => "null"
  | int v => Bytes.ofInt64 v
  | string s => s
  | ptr block offset =>
    "<ptr +" ++ Bytes.ofInt64 offset ++ " of " ++ Bytes.ofNat (h.blockSize block) ++ ">"
  | nowhere _ => "<nil ptr>"
  | func name => "<func " ++ name ++ ">"
  | invalid _ => "<invalid>"

/-- Whether two values are the same: pointers when they address the same cell. -/
def same : Value → Value → Bool
  | null, null => true
  | int a, int b => a = b
  | string a, string b => a = b
  | ptr b x, ptr c y => b = c && x = y
  | nowhere x, nowhere y => x = y
  | func a, func b => a = b
  | _, _ => false

/-- A pointer moved by `n` cells; other values stay. -/
def move (v : Value) (n : Int64) : Value :=
  match v with
  | ptr block offset => ptr block (offset + n)
  | nowhere offset => nowhere (offset + n)
  | _ => v

/-- The block and the index of the cell that a value points at. -/
def address (h : Heap) (v : Value) : Except AddressError (Nat × Nat) :=
  match v with
  | ptr block offset =>
    if offset < 0 || h.blockSize block ≤ offset.toNatClampNeg then
      .error (.outOfRange offset (h.blockSize block))
    else .ok (block, offset.toNatClampNeg)
  | _ => .error (.notPointer v.kindText)

end Value

namespace Heap

/-- The value of the cell that `v` points at. -/
def read (h : Heap) (v : Value) : Except AddressError Value :=
  match v.address h with
  | .error e => .error e
  | .ok (block, index) => .ok ((h[block]?.getD #[])[index]?.getD .null)

/-- Overwrites a cell. -/
def set (h : Heap) (block index : Nat) (v : Value) : Heap :=
  h.modify block fun cells => cells.setIfInBounds index v

end Heap

end UnitScript
