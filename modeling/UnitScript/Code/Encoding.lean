import UnitScript.Code.CodeUnit
import UnitScript.Text.Utf8

/-!
# The binary form of units

All numbers are little-endian. A name is its length in two bytes and its bytes; a data string has its
length in four. Counts are written with the width of their field: a count that does not fit wraps
around, and so does a jump target outside 32 bits.
-/

namespace UnitScript

/-- What cannot be written. -/
inductive EncodeError where
  | nameTooLong (name : Name)
  | unknownOperand (code : UInt8)
  | unknownOpcode (code : UInt8)
  | noRecord
  deriving DecidableEq, Repr

def EncodeError.message : EncodeError → Bytes
  | nameTooLong name => "name too long: " ++ Utf8.takeChars 32 name ++ "..."
  | unknownOperand code => "unknown operand kind " ++ Bytes.ofNat code.toNat
  | unknownOpcode code => "unknown opcode " ++ Bytes.ofNat code.toNat
  | noRecord => "func instruction without a record"

namespace Encoding

/-- The four bytes that every unit starts with. -/
def magic : Bytes := [77, 89, 83, 49]

/-- The `width` lowest bytes of `n`, lowest first. -/
def littleEndian : (width n : Nat) → Bytes
  | 0, _ => []
  | width + 1, n => UInt8.ofNat (n % 256) :: littleEndian width (n / 256)

def name (s : Name) : Except EncodeError Bytes :=
  if s.length > 0xFFFF then .error (.nameTooLong s) else .ok (littleEndian 2 s.length ++ s)

def longString (s : Bytes) : Bytes := littleEndian 4 s.length ++ s

def operand : Operand → Except EncodeError Bytes
  | .imm value => .ok (0 :: littleEndian 8 value.toUInt64.toNat)
  | .cell s => do return 1 :: (← name s)
  | .data s => do return 2 :: (← name s)
  | .func s => do return 3 :: (← name s)
  | .unknown code => .error (.unknownOperand code)

/-- The encodings of the items one after another. -/
def each {α : Type} (item : α → Except EncodeError Bytes) : List α → Except EncodeError Bytes
  | [] => .ok []
  | x :: rest => do
    let first ← item x
    let more ← each item rest
    return first ++ more

def operands (args : List Operand) : Except EncodeError Bytes := do
  return littleEndian 1 args.length ++ (← each operand args)

def target (t : Int) : Bytes := littleEndian 4 (t % 0x100000000).toNat

def slot (s : Slot) : Except EncodeError Bytes := do return (← name s.name) ++ [s.storage.code]

def function (f : FunctionRecord) : Except EncodeError Bytes := do
  let title ← name f.name
  let params ← each slot f.params
  return title ++ littleEndian 2 f.params.length ++ params ++ [f.result.code] ++ longString f.body

mutual

def instruction : Instruction → Except EncodeError Bytes
  | ⟨op, args, storage, relation, t, children, func⟩ => do
    match op with
    | .nop => return [op.toByte]
    | .var | .alloc => return op.toByte :: storage.code :: (← operands args)
    | .cmp => return op.toByte :: relation.code :: (← operands args)
    | .jeq | .jne => return op.toByte :: (← operands args) ++ target t
    | .jmp => return op.toByte :: target t
    | .scope => return op.toByte :: littleEndian 4 children.length ++ (← instructions children)
    | .func =>
      match func with
      | some f => return op.toByte :: (← function f)
      | none => throw .noRecord
    | .unknown code => throw (.unknownOpcode code)
    | _ => return op.toByte :: (← operands args)

def instructions : List Instruction → Except EncodeError Bytes
  | [] => .ok []
  | i :: rest => do
    let first ← instruction i
    let more ← instructions rest
    return first ++ more

end

/-- A list of instructions with its length in front; function bodies have this form. -/
def code (is : List Instruction) : Except EncodeError Bytes := do
  return littleEndian 4 is.length ++ (← instructions is)

def datum (d : Datum) : Except EncodeError Bytes := do return (← name d.name) ++ longString d.value

def exported (e : Name × Kind) : Except EncodeError Bytes := do
  return (← name e.1) ++ (← name e.2.text)

end Encoding

/-- The binary form of a unit; exports stand by increasing name. -/
def CodeUnit.encode (u : CodeUnit) : Except EncodeError Bytes := do
  let title ← Encoding.name u.name
  let data ← Encoding.each Encoding.datum u.data
  let exports ← Encoding.each Encoding.exported u.exports.entries
  let code ← Encoding.code u.code
  return Encoding.magic ++ title ++ Encoding.littleEndian 4 u.data.length ++ data ++
    Encoding.littleEndian 4 u.exports.size ++ exports ++ code

/-- A unit that cannot be encoded. -/
structure UnitEncodeError where
  unit : Name
  cause : EncodeError
  deriving DecidableEq, Repr

def UnitEncodeError.message (e : UnitEncodeError) : Bytes :=
  "encoding unit " ++ e.unit ++ ": " ++ e.cause.message

/-- The encoded form, or the unit that has none. -/
def CodeUnit.encoded (u : CodeUnit) : Except UnitEncodeError Bytes :=
  match u.encode with
  | .ok s => .ok s
  | .error e => .error ⟨u.name, e⟩

end UnitScript
