import UnitScript.Proofs.Lowering.Standalone

/-!
# A call leaves the temporaries of its callers alone

Compiled code keeps intermediate values in cells with the four base names and in spill cells named
after them. Every function declares the base cells for itself, and the code of an expression declares
each spill cell in front of its first use. So whatever a call comes to, all temporaries of the frames
that were there before it have the values that they had.
-/

namespace UnitScript

open Instruction Machine

/-- Wherever a run of a unit that was compiled from a source without imports comes to a call, the call
leaves all frames that are there as they are, and all temporaries of the top level. This holds of
every call, direct or through a cell, and whatever it ends with: the limits of the run may stop it, and
any instruction of the functions that it gets to may fail. -/
theorem CodeUnit.call_keeps_temporaries {o : CompileOptions} {source : Bytes} {u : CodeUnit}
    (hu : u.CompiledAlone o source) {m₀ : Machine} (hm₀ : Serves (u.declareScratch o.scratch) m₀)
    {limits : Limits} {all rest : List Instruction} {i : Instruction} {m : Machine}
    (hm : (u.declareScratch o.scratch).RunsInto limits m₀ all (i :: rest) m) (hop : i.op = .call)
    (fuel : Nat) :
    (perform limits fuel i m).2.frames = m.frames ∧
      ∀ x, o.scratch.withDefaults.Temporary x →
        (perform limits fuel i m).2.globals.get? x = m.globals.get? x := by
  have hcall := (hu.sound hm₀ hm).perform_call hop limits fuel
  exact ⟨hcall.frames, fun x hx => hcall.owned x hx.own⟩

/-! ## A call that fails while two values wait -/

/-- The sums wait in a base cell and in a spill cell while `h` is called. The function uses the same
two names, and then it divides by zero. -/
def waitingSource : Bytes :=
  "let x = 1; func h(): number \x7b return (1 + 2) + ((3 + 4) + (5 / 0)); \x7d " ++
    "return (x + 1) + ((x + 2) + h());"

def waitingBody : List Instruction :=
  ({} : Scratch).declarations ++
    [.arith .add (.imm 1) (.imm 2) (.cell "temp"), .mov (.cell "temp") (.cell "temp2"),
      .arith .add (.imm 3) (.imm 4) (.cell "temp"), .var .i64 "temp2.1",
      .mov (.cell "temp") (.cell "temp2.1"), .arith .div (.imm 5) (.imm 0) (.cell "temp"),
      .arith .add (.cell "temp2.1") (.cell "temp") (.cell "temp"),
      .arith .add (.cell "temp2") (.cell "temp") (.cell "temp"), .ret [.cell "temp"]]

/-- The code in front of the call, and the code behind it. -/
def waitingSetup : List Instruction :=
  [.var .i64 "x", .mov (.imm 1) (.cell "x"),
    .function ⟨"h", [], .i64, (Encoding.code waitingBody).toOption.getD []⟩,
    .arith .add (.cell "x") (.imm 1) (.cell "temp"), .mov (.cell "temp") (.cell "temp2"),
    .arith .add (.cell "x") (.imm 2) (.cell "temp"), .var .i64 "temp2.1",
    .mov (.cell "temp") (.cell "temp2.1")]

def waitingRest : List Instruction :=
  [.pop (.cell "temp"), .arith .add (.cell "temp2.1") (.cell "temp") (.cell "temp"),
    .arith .add (.cell "temp2") (.cell "temp") (.cell "temp"), .ret [.cell "temp"]]

def waitingUnit : CodeUnit where
  name := CodeUnit.defaultName
  exports := NameMap.empty.insert "h" .number
  code := waitingSetup ++ .call (.func "h") :: waitingRest

set_option maxRecDepth 20000 in
theorem waitingUnit_compiled : waitingUnit.CompiledAlone {} waitingSource where
  compiled := rfl
  alone := rfl
  few := ⟨trivial, ⟨by decide, trivial, trivial⟩, trivial, trivial⟩
  roomy := by decide

def waitingStart : Machine :=
  (registerAll (walkAll (waitingUnit.declareScratch {}).code)
    (ofUnit (waitingUnit.declareScratch {}) none).restart).2

/-- The fault that the call meets when it is started on a machine. -/
def waitingFault? (m : Machine) : Option Fault :=
  match (perform {} 20 (.call (.func "h")) m).1 with
  | .error (.error e) =>
    match e.root with
    | .fault f => some f
    | _ => none
  | _ => none

theorem waiting_registers : registerAll (walkAll (waitingUnit.declareScratch {}).code)
    (ofUnit (waitingUnit.declareScratch {}) none).restart = (.ok (), waitingStart) :=
  registerAll_of_isOk (by decide +kernel)

/-- The call is come to with 2 in the base cell and 3 in the spill cell, and it fails. -/
theorem waiting_runsInto : ∃ m, (waitingUnit.declareScratch {}).RunsInto {}
      (ofUnit (waitingUnit.declareScratch {}) none) (waitingUnit.declareScratch {}).code
      (.call (.func "h") :: waitingRest) m ∧
    m.globals.get? "temp2" = some (.int 2) ∧ m.globals.get? "temp2.1" = some (.int 3) ∧
    waitingFault? m = some .divisionByZero := by
  have hrun : (carryOut {} 10 (({} : Scratch).declarations ++ waitingSetup) waitingStart).map
      (fun m => (m.globals.get? "temp2", m.globals.get? "temp2.1", waitingFault? m)) =
        some (some (.int 2), some (.int 3), some .divisionByZero) := by
    decide +kernel
  obtain ⟨m, hcarry, hvalues⟩ := Option.map_eq_some_iff.1 hrun
  have hvisits : Visits {} (waitingUnit.declareScratch {}).code waitingStart
      (waitingUnit.declareScratch {}).code
      (({} : Scratch).declarations ++ waitingSetup ++ .call (.func "h") :: waitingRest)
      waitingStart := .start
  have hparts := Prod.mk.inj hvalues
  have hrest := Prod.mk.inj hparts.2
  exact ⟨m, ⟨waitingStart, waiting_registers, hvisits.passes (passes_of_carryOut hcarry)⟩, hparts.1,
    hrest⟩

/-- The call fails with a division by zero, and the values 2 and 3 still wait in their cells. -/
theorem waiting_call_keeps_temporaries : ∃ m,
    waitingFault? m = some .divisionByZero ∧
    (perform {} 20 (.call (.func "h")) m).2.globals.get? "temp2" = some (.int 2) ∧
    (perform {} 20 (.call (.func "h")) m).2.globals.get? "temp2.1" = some (.int 3) := by
  obtain ⟨m, hm, htwo, hthree, hfails⟩ := waiting_runsInto
  have hserves : Serves (waitingUnit.declareScratch {})
      (ofUnit (waitingUnit.declareScratch {}) none) := .new none
  have hkeeps := CodeUnit.call_keeps_temporaries waitingUnit_compiled hserves hm rfl 20
  have hbase : ({} : Scratch).withDefaults.Temporary "temp2" := ⟨.secondary, 0, rfl⟩
  have hspill : ({} : Scratch).withDefaults.Temporary "temp2.1" := ⟨.secondary, 1, rfl⟩
  exact ⟨m, hfails, (hkeeps.2 _ hbase).trans htwo, (hkeeps.2 _ hspill).trans hthree⟩

end UnitScript
