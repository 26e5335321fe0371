import UnitScript.Code.Decoding
import UnitScript.Machine.Builtin

/-!
# The state of the machine

The unit's top level runs in a frame whose cells are visible from every other frame; each call adds a
frame of its own. A failing step keeps what it has already done: values taken from the stack stay
taken.
-/

namespace UnitScript

/-- A function that has been registered, with its body decoded. -/
structure Function where
  record : FunctionRecord
  body : List Instruction
  deriving Repr

/-- The cells that one activation has declared. -/
abbrev Frame := NameMap Value

/-- The limits of a run. No limit on the steps when `steps` is 0, and the default depth when `depth`
is not positive. -/
structure Limits where
  steps : Int := 0
  depth : Int := 0
  deriving DecidableEq, Repr

namespace Limits

/-- The number of calls that may be under way. -/
def maxDepth (l : Limits) : Nat := if l.depth ≤ 0 then 1024 else l.depth.toNat

end Limits

/-- The frames of the calls under way stand innermost first; the top of the stack is its head. -/
structure Machine where
  data : NameMap Bytes := .empty
  functions : NameMap Function := .empty
  stack : List Value := []
  globals : Frame := .empty
  frames : List Frame := []
  heap : Heap := #[]
  console : Option Console := none
  /-- The instructions started in this run. -/
  steps : Nat := 0
  result : Value := .null

/-- What goes wrong in one step. -/
inductive Fault where
  | stackUnderflow
  | noRecord
  | badBody (function : Name) (cause : DecodeError)
  | undeclaredCell (name : Name)
  | storeToUndeclared (name : Name)
  | undefinedData (name : Name)
  | unknownOperand (code : UInt8)
  | notCell (operand : Operand)
  | badTarget (target : Int) (size : Nat)
  | needsTwo (op : Opcode) (got : Nat)
  | operandCount (expected got : Nat)
  | badCount (value : Bytes)
  | badIndex (kind : Bytes)
  | address (cause : AddressError)
  | notCallable (cell : Name) (kind : Bytes)
  | notFunction (operand : Operand)
  | undefinedFunction (name : Name)
  | missingParam (function param : Name)
  | missingArg (builtin : Name)
  | builtin (cause : BuiltinError)
  | arithKinds (op : Opcode) (left right : Bytes)
  | divisionByZero
  | compareKinds (relation : Relation) (left right : Bytes)
  | unknownRelation (relation : Relation)
  | unknownOpcode (op : Opcode)
  deriving DecidableEq, Repr

namespace Fault

def underflowText : Bytes := Bytes.ofString "stack underflow"

def kindsText (left right : Bytes) : Bytes :=
  " expects (int, int), got (" ++ left ++ ", " ++ right ++ ")"

def message : Fault → Bytes
  | stackUnderflow => underflowText
  | noRecord => "func instruction without a record"
  | badBody name cause => "function " ++ name ++ ": " ++ cause.message
  | undeclaredCell name => "undeclared cell " ++ Text.quoted name
  | storeToUndeclared name => "store to undeclared cell " ++ Text.quoted name
  | undefinedData name => "undefined data entry " ++ Text.quoted name
  | unknownOperand code => "unknown operand kind " ++ Bytes.ofNat code.toNat
  | notCell operand => "destination " ++ operand.text ++ " is not a cell"
  | badTarget target size =>
    "jump target " ++ Bytes.ofInt target ++ " outside scope of " ++ Bytes.ofNat size ++
      " instructions"
  | needsTwo op got => op.text ++ " expects 2 operands, got " ++ Bytes.ofNat got
  | operandCount expected got =>
    "expects " ++ Bytes.ofNat expected ++ " operand(s), got " ++ Bytes.ofNat got
  | badCount value => "invalid allocation count " ++ value
  | badIndex kind => "index is " ++ kind ++ ", not int"
  | address cause => cause.message
  | notCallable cell kind => "call through " ++ Text.quoted cell ++ " holding " ++ kind
  | notFunction operand => "callee " ++ operand.text ++ " is not a function"
  | undefinedFunction name => "undefined function " ++ Text.quoted name
  | missingParam function param =>
    "function " ++ function ++ ": parameter " ++ param ++ ": " ++ underflowText
  | missingArg name => name ++ ": " ++ underflowText
  | builtin cause => cause.message
  | arithKinds op left right => op.text ++ kindsText left right
  | divisionByZero => "division by zero"
  | compareKinds relation left right => "cmp " ++ relation.text ++ kindsText left right
  | unknownRelation relation => "unknown relation " ++ relation.text
  | unknownOpcode op => "unknown opcode " ++ op.text

end Fault

/-- How a run fails: a limit or a fault, with the instructions and the functions it happened in. -/
inductive RunError where
  | stepBudget
  | callDepth (frames : Nat)
  | fault (f : Fault)
  | during (i : Instruction) (e : RunError)
  | within (function : Name) (e : RunError)

namespace RunError

def message : RunError → Bytes
  | stepBudget => "step budget exhausted"
  | callDepth frames => "call depth exceeded: " ++ Bytes.ofNat frames ++ " frames"
  | fault f => f.message
  | during i e => i.text ++ ": " ++ e.message
  | within function e => "in " ++ function ++ ": " ++ e.message

/-- The error without what it happened in. -/
def root : RunError → RunError
  | during _ e => e.root
  | within _ e => e.root
  | e => e

end RunError

/-- Why a computation of the machine stops without a result: an error of the run, or a bound on the
length of the computation that is too low. -/
inductive Stop where
  | error (e : RunError)
  | outOfFuel

/-- A computation of the machine; the state survives an error. -/
abbrev Exec := ExceptT Stop (StateM Machine)

namespace Exec

def fail {α : Type} (f : Fault) : Exec α := throw (.error (.fault f))

/-- Adds to an error what it happened in. -/
def wrap {α : Type} (place : RunError → RunError) (act : Exec α) : Exec α := fun m =>
  match act m with
  | (.error (.error e), m) => (.error (.error (place e)), m)
  | r => r

end Exec

namespace Machine

/-- A machine for a unit. Of two data entries with the same name the later counts. -/
def ofUnit (u : CodeUnit) (console : Option Console) : Machine :=
  { data := NameMap.ofList (u.data.map fun d => (d.name, d.value)), console := console }

/-- The number of frames, with that of the top level. -/
def frameCount (m : Machine) : Nat := m.frames.length + 1

/-- The frame of the innermost call, or that of the top level. -/
def frame (m : Machine) : Frame := m.frames.headD m.globals

def setFrame (m : Machine) (f : Frame) : Machine :=
  match m.frames with
  | [] => { m with globals := f }
  | _ :: outer => { m with frames := f :: outer }

def push (v : Value) : Exec Unit := modify fun m => { m with stack := v :: m.stack }

def pop? : Exec (Option Value) := do
  match (← get).stack with
  | [] => return none
  | v :: rest =>
    modify fun m => { m with stack := rest }
    return some v

/-- Cells of the innermost frame come first, then those of the top level; a name without a cell may
be that of a function. -/
def lookup? (m : Machine) (name : Name) : Option Value :=
  match m.frame.get? name with
  | some v => some v
  | none =>
    match m.globals.get? name with
    | some v => some v
    | none =>
      if m.functions.contains name || (Builtin.find? name).isSome then some (.func name) else none

def lookup (name : Name) : Exec Value := do
  match (← get).lookup? name with
  | some v => return v
  | none => Exec.fail (.undeclaredCell name)

/-- Overwrites a cell, which must have been declared. -/
def store (name : Name) (v : Value) : Exec Unit := do
  let m ← get
  if m.frame.contains name then set (m.setFrame (m.frame.insert name v))
  else if m.globals.contains name then set { m with globals := m.globals.insert name v }
  else Exec.fail (.storeToUndeclared name)

def load : Operand → Exec Value
  | .imm v => return .int v
  | .cell name => lookup name
  | .data name => do
    match (← get).data.get? name with
    | some s => return .string s
    | none => Exec.fail (.undefinedData name)
  | .func name => return .func name
  | .unknown code => Exec.fail (.unknownOperand code)

def storeTo (o : Operand) (v : Value) : Exec Unit :=
  match o with
  | .cell name => store name v
  | o => Exec.fail (.notCell o)

/-- Decodes a function's body and makes the function known under its name. -/
def register : Option FunctionRecord → Exec Unit
  | none => Exec.fail .noRecord
  | some record =>
    match Decoding.runCode record.body with
    | .error e => Exec.fail (.badBody record.name e)
    | .ok body =>
      modify fun m => { m with functions := m.functions.insert record.name ⟨record, body⟩ }

end Machine

end UnitScript
