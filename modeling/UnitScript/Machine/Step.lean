import UnitScript.Machine.State

/-!
# Single steps

The instructions that neither jump nor enter a scope, and the calls of builtins.
-/

namespace UnitScript.Machine

/-- The operation of an arithmetic instruction. A number added to a pointer, on either side, or taken
from it moves the pointer. -/
def arith (op : Opcode) (a b : Value) : Except Fault Value :=
  match op, a, b with
  | .add, .int x, .int y => .ok (.int (x + y))
  | .sub, .int x, .int y => .ok (.int (x - y))
  | .mul, .int x, .int y => .ok (.int (x * y))
  | .div, .int x, .int y => if y = 0 then .error .divisionByZero else .ok (.int (x / y))
  | .add, .ptr block x, .int y => .ok ((Value.ptr block x).move y)
  | .add, .nowhere x, .int y => .ok ((Value.nowhere x).move y)
  | .add, .int y, .ptr block x => .ok ((Value.ptr block x).move y)
  | .add, .int y, .nowhere x => .ok ((Value.nowhere x).move y)
  | .sub, .ptr block x, .int y => .ok ((Value.ptr block x).move (-y))
  | .sub, .nowhere x, .int y => .ok ((Value.nowhere x).move (-y))
  | op, a, b => .error (.arithKinds op a.kindText b.kindText)

/-- Any two values can be compared for equality; order is for numbers. -/
def compare (r : Relation) (a b : Value) : Except Fault Bool :=
  if r = .eq then .ok (a.same b)
  else if r = .ne then .ok !(a.same b)
  else
    match a, b with
    | .int x, .int y =>
      if r = .lt then .ok (x < y)
      else if r = .le then .ok (x ≤ y)
      else if r = .gt then .ok (y < x)
      else if r = .ge then .ok (y ≤ x)
      else .error (.unknownRelation r)
    | a, b => .error (.compareKinds r a.kindText b.kindText)

/-- The value of a cell at its declaration. -/
def zero (s : Storage) : Value := if s = .i64 then .int 0 else .null

def orFault {α : Type} : Except Fault α → Exec α
  | .ok a => return a
  | .error f => Exec.fail f

def orAddressFault {α : Type} : Except AddressError α → Exec α
  | .ok a => return a
  | .error e => Exec.fail (.address e)

/-- Takes the arguments of a builtin from the stack, the last one first. -/
def popArgs (builtin : Name) : Nat → List Value → Exec (List Value)
  | 0, args => return args
  | n + 1, args => do
    match ← pop? with
    | some v => popArgs builtin n (v :: args)
    | none => Exec.fail (.missingArg builtin)

/-- Lends the console to a builtin. -/
def applyBuiltin (b : Builtin) (args : List Value) (m : Machine) :
    Except BuiltinError Value × Machine :=
  let console := m.console
  let m := { m with console := none }
  let (result, console) := b.apply m.heap args console
  (result, { m with console := console })

def callBuiltin (b : Builtin) : Exec Unit := do
  let args ← popArgs b.name b.arity []
  match ← modifyGet (applyBuiltin b args) with
  | .error e => Exec.fail (.builtin e)
  | .ok v => if b.pushes then push v

/-- Takes the parameters of a function from the stack, the last one first. -/
def popParams (function : Name) : (reversed : List Slot) → Frame → Exec Frame
  | [], frame => return frame
  | p :: rest, frame => do
    match ← pop? with
    | some v => popParams function rest (frame.insert p.name v)
    | none => Exec.fail (.missingParam function p.name)

/-- The function that the operand of a call names, directly or through a cell. -/
def callee : Operand → Exec Name
  | .func name => return name
  | .cell cell => do
    match ← lookup cell with
    | .func name => return name
    | v => Exec.fail (.notCallable cell v.kindText)
  | o => Exec.fail (.notFunction o)

/-- Allocates as many cells as `count` says and stores a pointer to them. -/
def alloc (count : Value) (dst : Operand) : Exec Unit := do
  match count with
  | .int n =>
    if n < 0 then Exec.fail (.badCount (Bytes.ofInt64 n))
    else
      let p ← modifyGet fun m =>
        let (heap, p) := m.heap.alloc n.toNatClampNeg
        (p, { m with heap := heap })
      storeTo dst p
  | v => Exec.fail (.badCount (v.text (← get).heap))

def storeThrough (src base index : Value) : Exec Unit := do
  match index with
  | .int n =>
    let (block, place) ← orAddressFault ((base.move n).address (← get).heap)
    modify fun m => { m with heap := m.heap.set block place src }
  | v => Exec.fail (.badIndex v.kindText)

/-- A step of an instruction with a fixed number of operands; `invoke` runs a function. -/
def step (invoke : Function → Exec Unit) (i : Instruction) : Exec Unit := do
  let count (n : Nat) : Exec Unit := Exec.fail (.operandCount n i.args.length)
  match i.op, i.args with
  | .nop, _ => return
  | .var, [.cell name] => modify fun m => m.setFrame (m.frame.insert name (zero i.storage))
  | .var, [o] => Exec.fail (.notCell o)
  | .var, _ => count 1
  | .mov, [src, dst] => do storeTo dst (← load src)
  | .mov, _ => count 2
  | .add, [x, y, dst] | .sub, [x, y, dst] | .mul, [x, y, dst] | .div, [x, y, dst] => do
    let a ← load x
    let b ← load y
    storeTo dst (← orFault (arith i.op a b))
  | .add, _ | .sub, _ | .mul, _ | .div, _ => count 3
  | .cmp, [x, y, dst] => do
    let a ← load x
    let b ← load y
    storeTo dst (.int (if ← orFault (compare i.relation a b) then 1 else 0))
  | .cmp, _ => count 3
  | .alloc, [n, dst] => do alloc (← load n) dst
  | .alloc, _ => count 2
  | .pmov, [x, y, z] => do
    let src ← load x
    let base ← load y
    storeThrough src base (← load z)
  | .pmov, _ => count 3
  | .deref, [addr, dst] => do
    let p ← load addr
    storeTo dst (← orAddressFault ((← get).heap.read p))
  | .deref, _ => count 2
  | .push, [x] => do push (← load x)
  | .push, _ => count 1
  | .pop, [dst] => do
    match ← pop? with
    | some v => storeTo dst v
    | none => Exec.fail .stackUnderflow
  | .pop, _ => count 1
  | .call, [o] => do
    let name ← callee o
    match (← get).functions.get? name with
    | some f => invoke f
    | none =>
      match Builtin.find? name with
      | some b => callBuiltin b
      | none => Exec.fail (.undefinedFunction name)
  | .call, _ => count 1
  | .func, _ => register i.func
  | op, _ => Exec.fail (.unknownOpcode op)

end UnitScript.Machine
