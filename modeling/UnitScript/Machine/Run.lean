import UnitScript.Machine.Step

/-!
# Running a unit

`exec` runs a list of instructions; jumps go to places in that list. Its first argument bounds the
length of the computation. Each instruction that is started lowers the bound by one, so a run with a
limit on its steps never meets a bound that is above the limit.
-/

namespace UnitScript

namespace Machine

/-- The instructions from a jump's target on. -/
def jump (all : List Instruction) (target : Int) : Exec (List Instruction) :=
  if target < 0 || (all.length : Int) < target then Exec.fail (.badTarget target all.length)
  else return all.drop target.toNat

/-- The two values that a conditional jump compares. -/
def compared (i : Instruction) : Exec (Value × Value) := do
  match i.args with
  | x :: y :: _ =>
    let a ← load x
    let b ← load y
    return (a, b)
  | args => Exec.fail (.needsTwo i.op args.length)

/-- Leaves the value of a return: as the result of the unit at the top level, else on the stack. -/
def leave : List Operand → Exec Unit
  | [] => return
  | o :: _ => do
    let v ← load o
    modify fun m => if m.frames.isEmpty then { m with result := v } else { m with stack := v :: m.stack }

/-- Counts a started instruction against the limit. -/
def countStep (limits : Limits) : Exec Unit := do
  modify fun m => { m with steps := m.steps + 1 }
  if 0 < limits.steps ∧ limits.steps < ((← get).steps : Int) then throw (.error .stepBudget)

/-- Runs a function in a frame of its own; `body` runs its instructions. -/
def invoke (limits : Limits) (body : List Instruction → Exec Bool) (f : Function) : Exec Unit := do
  let m ← get
  if limits.maxDepth < m.frameCount then throw (.error (.callDepth m.frameCount))
  let frame ← popParams f.record.name f.record.params.reverse .empty
  modify fun m => { m with frames := frame :: m.frames }
  let ran : Exec Bool := fun m =>
    let (r, m) := body f.body m
    (r, { m with frames := m.frames.tail })
  let _ ← Exec.wrap (.within f.record.name) ran

/-- Runs `rest`, which is the end of `all`. Tells whether a return was executed. -/
def exec (limits : Limits) : Nat → (all rest : List Instruction) → Exec Bool
  | _, _, [] => return false
  | 0, _, _ :: _ => throw .outOfFuel
  | fuel + 1, all, i :: rest => do
    countStep limits
    match i.op with
    | .jmp => exec limits fuel all (← jump all i.target)
    | .jeq | .jne =>
      let (a, b) ← compared i
      if a.same b == (i.op == .jeq) then exec limits fuel all (← jump all i.target)
      else exec limits fuel all rest
    | .scope =>
      if ← exec limits fuel i.children i.children then return true
      else exec limits fuel all rest
    | .ret =>
      leave i.args
      return true
    | _ =>
      Exec.wrap (.during i) (step (invoke limits fun body => exec limits fuel body body) i)
      exec limits fuel all rest

/-- Registers the functions among some instructions, up to the first that cannot be. -/
def registerAll : List Instruction → Exec Unit
  | [] => return
  | i :: rest => do
    if i.op = .func then register i.func
    registerAll rest

/-- The state at the start of a run: functions, heap and console are kept. -/
def restart (m : Machine) : Machine :=
  { m with globals := .empty, frames := [], stack := [], steps := 0, result := .null }

end Machine

/-- How a run ends. -/
inductive Ending where
  | value (v : Value)
  | error (e : RunError)
  | outOfFuel

namespace Machine

/-- Runs the top level of a unit with a bound on the length of the computation. The result is the
operand of a return at the top level, or null when the code runs off its end. -/
def runWithin (fuel : Nat) (limits : Limits) (u : CodeUnit) (m : Machine) : Ending × Machine :=
  let act : Exec Value := do
    registerAll (Instruction.walkAll u.code)
    let _ ← exec limits fuel u.code u.code
    return (← get).result
  match act m.restart with
  | (.ok v, m) => (.value v, m)
  | (.error (.error e), m) => (.error e, m)
  | (.error .outOfFuel, m) => (.outOfFuel, m)

/-- A bound that a run with these limits cannot meet; without a limit on the steps, one that no
computation gets to. -/
def fuelFor (limits : Limits) : Nat := if limits.steps ≤ 0 then 0x4000000000000000 else limits.steps.toNat + 1

/-- Runs the top level of a unit. -/
def run (limits : Limits) (u : CodeUnit) (m : Machine) : Ending × Machine :=
  runWithin (fuelFor limits) limits u m

end Machine

end UnitScript
