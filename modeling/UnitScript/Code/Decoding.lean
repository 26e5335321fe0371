import UnitScript.Code.CodeUnit

/-!
# Reading the binary form of units

A reader takes bytes from the front of its input and leaves the rest. A field of which no byte is
left is at the end of the input, and one of which only some bytes are left ends unexpectedly. Bytes
behind a unit are ignored.
-/

namespace UnitScript

inductive DecodeError where
  | eof
  | unexpectedEof
  | tooLong (size : Nat)
  | unknownOperand (code : UInt8)
  | unknownOpcode (code : UInt8)
  | badMagic (header : Bytes)
  | badExport (name : Name) (cause : KindError)
  deriving DecidableEq, Repr

def DecodeError.message : DecodeError → Bytes
  | eof => "EOF"
  | unexpectedEof => "unexpected EOF"
  | tooLong size => "section of " ++ Bytes.ofNat size ++ " bytes exceeds limit"
  | unknownOperand code => "unknown operand kind " ++ Bytes.ofNat code.toNat
  | unknownOpcode code => "unknown opcode " ++ Bytes.ofNat code.toNat
  | badMagic header => "invalid magic header: " ++ Text.quoted header
  | badExport name cause => "export " ++ Text.quoted name ++ ": " ++ cause.message

abbrev Reader := StateT Bytes (Except DecodeError)

namespace Decoding

/-- The longest region that is read back. -/
def maxRegion : Nat := 0x10000000

/-- The next `n` bytes; none of them need be there when `n` is 0. -/
def take (n : Nat) : Reader Bytes := fun s =>
  let taken := s.take n
  if taken.length = n then .ok (taken, s.drop n)
  else if taken.isEmpty then .error .eof
  else .error .unexpectedEof

def ofLittleEndian : Bytes → Nat
  | [] => 0
  | b :: rest => b.toNat + 256 * ofLittleEndian rest

def number (width : Nat) : Reader Nat := return ofLittleEndian (← take width)

def byte : Reader UInt8 := return UInt8.ofNat (← number 1)

/-- A region of `n` bytes. -/
def region (n : Nat) : Reader Bytes := do
  if n > maxRegion then throw (.tooLong n)
  take n

def name : Reader Name := do region (← number 2)

def longString : Reader Bytes := do region (← number 4)

def operand : Reader Operand := do
  let kind ← byte
  if kind = 0 then return .imm (UInt64.ofNat (← number 8)).toInt64
  else if kind = 1 then return .cell (← name)
  else if kind = 2 then return .data (← name)
  else if kind = 3 then return .func (← name)
  else throw (.unknownOperand kind)

/-- `n` items one after another. -/
def many {α : Type} (item : Reader α) : (n : Nat) → Reader (List α)
  | 0 => return []
  | n + 1 => do
    let x ← item
    let rest ← many item n
    return x :: rest

def operands : Reader (List Operand) := do many operand (← number 1)

/-- A signed number of four bytes. -/
def target : Reader Int := do
  let n ← number 4
  return if n < 0x80000000 then (n : Int) else (n : Int) - 0x100000000

def slot : Reader Slot := return ⟨← name, ⟨← byte⟩⟩

def function : Reader FunctionRecord := do
  let title ← name
  let params ← many slot (← number 2)
  let result ← byte
  let body ← longString
  return ⟨title, params, ⟨result⟩, body⟩

/-- What stands behind an opcode, given the reader for the instructions of a scope. -/
def tail (children : Reader (List Instruction)) (op : Opcode) : Reader Instruction := do
  match op with
  | .nop => return { op := op }
  | .var | .alloc =>
    let storage ← byte
    return { op := op, storage := ⟨storage⟩, args := ← operands }
  | .cmp =>
    let relation ← byte
    return { op := op, relation := ⟨relation⟩, args := ← operands }
  | .jeq | .jne =>
    let args ← operands
    return { op := op, args := args, target := ← target }
  | .jmp => return { op := op, target := ← target }
  | .scope => return { op := op, children := ← children }
  | .func => return { op := op, func := some (← function) }
  | .unknown code => throw (.unknownOpcode code)
  | _ => return { op := op, args := ← operands }

def instruction (children : Reader (List Instruction)) : Reader Instruction := do
  tail children (Opcode.ofByte (← byte))

/-- `count` instructions in an input of at most `limit` bytes. Each of them takes a byte at least, so
an input that has run out of them is at its end. -/
def instructions : (limit count : Nat) → Reader (List Instruction)
  | _, 0 => return []
  | 0, _ + 1 => throw .eof
  | limit + 1, count + 1 => do
    let first ← instruction do instructions limit (← number 4)
    let rest ← instructions limit count
    return first :: rest

/-- A list of instructions with its length in front. -/
def code : Reader (List Instruction) := do
  let count ← number 4
  instructions (← get).length count

def datum : Reader Datum := return ⟨← name, ← longString⟩

def exported : Reader (Name × Kind) := do
  let title ← name
  let text ← name
  match Kind.parse text with
  | .ok kind => return (title, kind)
  | .error e => throw (.badExport title e)

def codeUnit : Reader CodeUnit := do
  let header ← take 4
  if header ≠ [77, 89, 83, 49] then throw (.badMagic header)
  let title ← name
  let data ← many datum (← number 4)
  let exports ← many exported (← number 4)
  let body ← code
  return { name := title, data := data, exports := .ofList exports, code := body }

/-- Reads a list of instructions from the front of a byte string. -/
def runCode (s : Bytes) : Except DecodeError (List Instruction) := (code.run s).map (·.1)

end Decoding

/-- Reads a unit from the front of a byte string; of two exports of the same name the later counts. -/
def CodeUnit.decode (s : Bytes) : Except DecodeError CodeUnit := (Decoding.codeUnit.run s).map (·.1)

end UnitScript
