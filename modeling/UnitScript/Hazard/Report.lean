import UnitScript.Hazard.Capture
import UnitScript.Hazard.Escape

/-!
# The report on a program
-/

namespace UnitScript

/-- The hazards of a program ordered by position, and its functions. -/
structure HazardReport where
  hazards : List Hazard
  functions : List FunctionInfo

/-- At one position captures come before escapes and self calls. -/
def HazardReport.ofProgram (prelude : Prelude) (body : List Node) : HazardReport :=
  let functions := FunctionInfo.ofProgram body
  let found := functions.flatMap FunctionInfo.hazards ++ Escape.hazards prelude body
  ⟨found.mergeSort fun g h => !h.pos.isBefore g.pos, functions⟩

end UnitScript
