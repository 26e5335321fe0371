import UnitScript.Lowering.Context

/-!
# Compiling expressions

The value of an expression is left in a scratch cell: the struct cell for strings and structs, the
primary cell otherwise. Of a binary operation the left side is computed first; when the right side has
to be computed too, the left value waits in a secondary cell.
-/

namespace UnitScript.Lowering

/-- The instruction that combines two operands. -/
def combine (op : Operator) (a b dst : Operand) : Instruction :=
  match op with
  | .add => .arith .add a b dst
  | .sub => .arith .sub a b dst
  | .mul => .arith .mul a b dst
  | .div => .arith .div a b dst
  | .eq => .cmp .eq a b dst
  | .ne => .cmp .ne a b dst
  | .lt => .cmp .lt a b dst
  | .le => .cmp .le a b dst
  | .gt => .cmp .gt a b dst
  | .ge => .cmp .ge a b dst
  | _ => .arith .nop a b dst

/-- The operand of a binary operation that stands for itself; none for one that has to be computed.
Strings, arrays and missing nodes are refused. -/
def simpleOperand? (n : Node) : Lower (Option Operand) :=
  match n with
  | .number _ value => return some (.imm value)
  | .ident _ name => return some (.cell name)
  | .string .. | .array .. | .missing =>
    throw (.ofNode .unsupportedConstruct n (n.shape ++ " operand of a binary operation"))
  | _ => return none

/-- The code for a number: its value must be left in the primary cell. -/
def requireScalar (ctx : Context) (n : Node) (result : Code × Operand) : Lower Code :=
  if result.2 = ctx.primary then return result.1
  else throw (.ofNode .unsupportedConstruct n "string or struct operand where a number is required")

/-- Takes the result of a call that returns `k` from the stack. Null and callback results are not
there. -/
def popResult (ctx : Context) (k : Kind) : Code × Operand :=
  match k.tag with
  | .string | .struct => ([.pop ctx.structSlot], ctx.structSlot)
  | .null | .callback => ([.nop], ctx.primary)
  | _ => ([.pop ctx.primary], ctx.primary)

/-- Calls a name and takes its result. A name without a kind counts as a function that returns a
number; a callback is called through the cell that holds it. -/
def callAndPop (ctx : Context) (callee : Name) : Lower (Code × Operand) := do
  let kind := (← kindOf? callee).getD .number
  let target : Operand := if kind.isCallback then .cell callee else .func callee
  let (pops, place) := popResult ctx kind.returned
  return (.call target :: pops, place)

mutual

/-- The code that computes an expression, and the cell that it leaves the value in. -/
def expr (ctx : Context) (live : Live) : Node → Lower (Code × Operand)
  | .number _ value => return ([.mov (.imm value) ctx.primary], ctx.primary)
  | .string _ value => do
    return ([.mov (.data (← addString ctx value)) ctx.structSlot], ctx.structSlot)
  | .ident _ name => do
    let place ← placeOf ctx name
    return ([.mov (.cell name) place], place)
  | .binary pos op left right _ => do
    if !(op.isArithmetic || op.isComparison) then
      throw (.mk .unsupportedConstruct pos (Text.quoted op.text ++ " in expression position") .none)
    let dst := ctx.primary
    match ← simpleOperand? left, ← simpleOperand? right with
    | some a, some b => return ([combine op a b dst], dst)
    | some a, none =>
      let code ← requireScalar ctx right (← expr ctx live right)
      return (code ++ [combine op a dst dst], dst)
    | none, some b =>
      let code ← requireScalar ctx left (← expr ctx live left)
      return (code ++ [combine op dst b dst], dst)
    | none, none =>
      let leftCode ← requireScalar ctx left (← expr ctx live left)
      let held := Operand.cell (ctx.cellName .secondary live.secondary)
      let rightCode ← requireScalar ctx right (← expr ctx live.withSecondary right)
      return (leftCode ++ ctx.cellDeclaration .secondary live.secondary ++ [.mov dst held] ++
        rightCode ++ [combine op held dst dst], dst)
  | .call pos callee args => do
    match callee.pathName? with
    | some (name, false) =>
      let pushes ← pushAll ctx live args
      let (code, place) ← callAndPop ctx name
      return (pushes ++ code, place)
    | _ =>
      throw (.mk .malformedCallee pos ("callee " ++ callee.shape ++ " is not a name") .none)
  | .property pos object member => do
    match (Node.property pos object member).pathName? with
    | none => throw (.mk .malformedCallee pos "property path is not reducible to a name" .none)
    | some (name, true) =>
      let pushes ← pushPathArgs ctx live member
      let (code, place) ← callAndPop ctx name
      return (pushes ++ code, place)
    | some (name, false) =>
      let place ← placeOf ctx name
      return ([.mov (.cell name) place], place)
  | .index _ name index => do
    let code ← requireScalar ctx index (← expr ctx live index)
    let dst := ctx.primary
    return (code ++ [.arith .add (.cell name) dst dst, .deref dst dst], dst)
  | .array _ elements => do
    let ptr := Operand.cell (ctx.cellName .aggregate live.aggregate)
    let stores ← storeAll ctx live.withAggregate ptr 0 elements
    return (ctx.cellDeclaration .aggregate live.aggregate ++
      [.alloc .i64 (Int64.ofNat elements.length) ptr] ++ stores ++ [.mov ptr ctx.primary],
      ctx.primary)
  | n => throw (.ofNode .unsupportedConstruct n (n.shape ++ " in expression position"))

/-- Pushes the arguments of a call from left to right. -/
def pushAll (ctx : Context) (live : Live) : List Node → Lower Code
  | [] => return []
  | arg :: rest => do
    let first ←
      match ← direct? ctx arg with
      | some src => pure [Instruction.push src]
      | none => do
        let (code, place) ← expr ctx live arg
        pure (code ++ [.push place])
    return first ++ (← pushAll ctx live rest)

/-- Pushes the arguments of the call at the end of a path. -/
def pushPathArgs (ctx : Context) (live : Live) : Node → Lower Code
  | .property _ _ member => pushPathArgs ctx live member
  | .call _ _ args => pushAll ctx live args
  | _ => return []

/-- Stores the elements of an array from index `i` on. -/
def storeAll (ctx : Context) (live : Live) (ptr : Operand) (i : Nat) : List Node → Lower Code
  | [] => return []
  | element :: rest => do
    let index := Operand.imm (Int64.ofNat i)
    let first ←
      match ← direct? ctx element with
      | some src => pure [Instruction.pmov src ptr index]
      | none => do
        let (code, place) ← expr ctx live element
        pure (code ++ [.pmov place ptr index])
    return first ++ (← storeAll ctx live ptr (i + 1) rest)

end

end UnitScript.Lowering
