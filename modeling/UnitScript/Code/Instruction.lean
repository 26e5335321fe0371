import UnitScript.Kind

/-!
# Instructions

The instruction set of the scope machine. An instruction is its opcode and every field that some
opcode uses; which of them are meaningful depends on the opcode. Bytes that name no opcode, storage
or relation are kept as they are.
-/

namespace UnitScript

inductive Opcode where
  | nop
  | var | mov
  | add | sub | mul | div
  | cmp
  | alloc | pmov | deref
  | push | pop | call | ret
  | jeq | jne | jmp | scope | func
  | unknown (code : UInt8)
  deriving DecidableEq, Repr

namespace Opcode

/-- The opcodes in the order of their bytes. -/
def all : List Opcode :=
  [nop, var, mov, add, sub, mul, div, cmp, alloc, pmov, deref, push, pop, call, ret, jeq, jne, jmp,
    scope, func]

def toByte : Opcode → UInt8
  | nop => 0
  | var => 1
  | mov => 2
  | add => 3
  | sub => 4
  | mul => 5
  | div => 6
  | cmp => 7
  | alloc => 8
  | pmov => 9
  | deref => 10
  | push => 11
  | pop => 12
  | call => 13
  | ret => 14
  | jeq => 15
  | jne => 16
  | jmp => 17
  | scope => 18
  | func => 19
  | unknown code => code

def ofByte (b : UInt8) : Opcode := all[b.toNat]?.getD (unknown b)

def isKnown : Opcode → Bool
  | unknown _ => false
  | _ => true

def text : Opcode → Bytes
  | nop => "nop"
  | var => "var"
  | mov => "mov"
  | add => "add"
  | sub => "sub"
  | mul => "mul"
  | div => "div"
  | cmp => "cmp"
  | alloc => "alloc"
  | pmov => "pmov"
  | deref => "deref"
  | push => "push"
  | pop => "pop"
  | call => "call"
  | ret => "ret"
  | jeq => "jeq"
  | jne => "jne"
  | jmp => "jmp"
  | scope => "scope"
  | func => "func"
  | unknown code => "op(" ++ Bytes.ofNat code.toNat ++ ")"

end Opcode

/-- The storage class of a cell, as the byte that stands for it in a unit. -/
structure Storage where
  code : UInt8
  deriving DecidableEq, Repr

namespace Storage

def none : Storage := ⟨0⟩
def i64 : Storage := ⟨1⟩
def ptr : Storage := ⟨2⟩
def struct : Storage := ⟨3⟩

def text (s : Storage) : Bytes :=
  if s = none then "none"
  else if s = i64 then "i64"
  else if s = ptr then "ptr"
  else if s = struct then "struct"
  else "type(" ++ Bytes.ofNat s.code.toNat ++ ")"

/-- The storage of a cell for values of a kind; null and undefined have none. -/
def ofKind (k : Kind) : Storage :=
  match k.tag with
  | .number => i64
  | .string => struct
  | .struct => struct
  | .callback => ptr
  | _ => none

end Storage

/-- The relation that a comparison tests, as the byte that stands for it in a unit. -/
structure Relation where
  code : UInt8
  deriving DecidableEq, Repr

namespace Relation

def eq : Relation := ⟨0⟩
def ne : Relation := ⟨1⟩
def lt : Relation := ⟨2⟩
def le : Relation := ⟨3⟩
def gt : Relation := ⟨4⟩
def ge : Relation := ⟨5⟩

def text (r : Relation) : Bytes :=
  if r = eq then "eq"
  else if r = ne then "ne"
  else if r = lt then "lt"
  else if r = le then "le"
  else if r = gt then "gt"
  else if r = ge then "ge"
  else "rel(" ++ Bytes.ofNat r.code.toNat ++ ")"

end Relation

/-- An argument of an instruction. -/
inductive Operand where
  | imm (value : Int64)
  /-- A storage cell. -/
  | cell (name : Name)
  /-- An entry of the unit's data. -/
  | data (name : Name)
  /-- A function, called directly. -/
  | func (name : Name)
  | unknown (code : UInt8)
  deriving DecidableEq, Repr

namespace Operand

def text : Operand → Bytes
  | imm value => Bytes.ofInt64 value
  | cell name => name
  | data name => "$" ++ name
  | func name => "@" ++ name
  | unknown _ => "?"

/-- The operand of a kind, given by its code, with a name. -/
def ofCode (code : UInt8) (name : Name) : Operand :=
  if code = 0 then imm 0
  else if code = 1 then cell name
  else if code = 2 then data name
  else if code = 3 then func name
  else unknown code

end Operand

/-- A parameter of a function record. -/
structure Slot where
  name : Name
  storage : Storage
  deriving DecidableEq, Repr

/-- A function: its parameters, what it returns, and its own instructions in encoded form. -/
structure FunctionRecord where
  name : Name
  params : List Slot
  result : Storage
  body : Bytes
  deriving DecidableEq, Repr

structure Instruction where
  op : Opcode
  args : List Operand := []
  storage : Storage := .none
  relation : Relation := .eq
  /-- Where a jump goes: an index into the list that the jump stands in. -/
  target : Int := 0
  /-- The instructions of a scope. -/
  children : List Instruction := []
  func : Option FunctionRecord := none
  deriving Repr

namespace Instruction

instance : Inhabited Instruction := ⟨{ op := .nop }⟩

mutual

def decEq : (a b : Instruction) → Decidable (a = b)
  | ⟨op, args, st, rel, t, ch, f⟩, ⟨op', args', st', rel', t', ch', f'⟩ =>
    if h : op = op' ∧ args = args' ∧ st = st' ∧ rel = rel' ∧ t = t' ∧ f = f' then
      match decEqAll ch ch' with
      | isTrue hc => isTrue (by obtain ⟨rfl, rfl, rfl, rfl, rfl, rfl⟩ := h; rw [hc])
      | isFalse hc => isFalse fun he => hc (by injection he)
    else isFalse fun he => h (by injection he; simp [*])

def decEqAll : (as bs : List Instruction) → Decidable (as = bs)
  | [], [] => isTrue rfl
  | [], _ :: _ => isFalse (by simp)
  | _ :: _, [] => isFalse (by simp)
  | a :: as, b :: bs =>
    match decEq a b, decEqAll as bs with
    | isTrue h, isTrue g => isTrue (by rw [h, g])
    | isFalse h, _ => isFalse fun he => h (by injection he)
    | _, isFalse g => isFalse fun he => g (by injection he)

end

instance : DecidableEq Instruction := decEq

def nop : Instruction := { op := .nop }

/-- Declares a cell. -/
def var (storage : Storage) (name : Name) : Instruction :=
  { op := .var, storage := storage, args := [.cell name] }

def mov (src dst : Operand) : Instruction := { op := .mov, args := [src, dst] }

def arith (op : Opcode) (a b dst : Operand) : Instruction := { op := op, args := [a, b, dst] }

def cmp (relation : Relation) (a b dst : Operand) : Instruction :=
  { op := .cmp, relation := relation, args := [a, b, dst] }

def alloc (storage : Storage) (count : Int64) (dst : Operand) : Instruction :=
  { op := .alloc, storage := storage, args := [.imm count, dst] }

/-- Stores into the cell at an index behind a pointer. -/
def pmov (src base index : Operand) : Instruction := { op := .pmov, args := [src, base, index] }

def deref (addr dst : Operand) : Instruction := { op := .deref, args := [addr, dst] }

def push (value : Operand) : Instruction := { op := .push, args := [value] }

def pop (dst : Operand) : Instruction := { op := .pop, args := [dst] }

def call (callee : Operand) : Instruction := { op := .call, args := [callee] }

def ret (value : List Operand) : Instruction := { op := .ret, args := value }

/-- Jumps when the two values are equal. -/
def jeq (a b : Operand) (target : Nat) : Instruction :=
  { op := .jeq, args := [a, b], target := target }

def jmp (target : Nat) : Instruction := { op := .jmp, target := target }

def scope (children : List Instruction) : Instruction := { op := .scope, children := children }

def function (record : FunctionRecord) : Instruction := { op := .func, func := some record }

def argsText (i : Instruction) : Bytes := Bytes.join ", " (i.args.map Operand.text)

/-- The opcode followed by the operands, if any. -/
def plainText (i : Instruction) : Bytes :=
  if i.argsText.isEmpty then i.op.text else i.op.text ++ " " ++ i.argsText

/-- One line for an instruction, as error messages show it. -/
def text (i : Instruction) : Bytes :=
  match i.op, i.func with
  | .var, _ => "var " ++ i.storage.text ++ " " ++ i.argsText
  | .alloc, _ => "alloc " ++ i.storage.text ++ " " ++ i.argsText
  | .cmp, _ => "cmp " ++ i.relation.text ++ " " ++ i.argsText
  | .jeq, _ => "jeq " ++ i.argsText ++ " -> " ++ Bytes.ofInt i.target
  | .jne, _ => "jne " ++ i.argsText ++ " -> " ++ Bytes.ofInt i.target
  | .jmp, _ => "jmp -> " ++ Bytes.ofInt i.target
  | .scope, _ => "scope (" ++ Bytes.ofNat i.children.length ++ " children)"
  | .func, some record => "func " ++ record.name
  | _, _ => i.plainText

mutual

/-- An instruction and those in the scopes below it, outermost first. Function bodies are encoded
and not entered. -/
def walk : Instruction → List Instruction
  | ⟨op, args, st, rel, t, ch, f⟩ =>
    ⟨op, args, st, rel, t, ch, f⟩ :: (if op = .scope then walkAll ch else [])

def walkAll : List Instruction → List Instruction
  | [] => []
  | i :: rest => walk i ++ walkAll rest

end

end Instruction

end UnitScript
