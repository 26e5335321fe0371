import UnitScript.Kind.Inference
import UnitScript.Lowering.Error

/-!
# The setting of compilation

What stays fixed while a stream of instructions is produced, and what changes. Two scratch roles nest:
the left operands and the arrays under construction. `Live` counts how many cells of these roles hold
a value that is still needed; a further one gets a spill cell of its own.
-/

namespace UnitScript.Lowering

abbrev Code := List Instruction

/-- The unit's name, the scratch names in effect, the source of imported units, and how many function
bodies the stream is nested in. -/
structure Context where
  unitName : Name
  scratch : Scratch
  includer : Option (Name → Except IncludeError CodeUnit)
  depth : Nat

/-- What changes while a unit is compiled: the symbols, the number of strings named so far, the data
of the stream and the exports of the unit. -/
structure State where
  symbols : Symbols
  strings : Nat
  data : List Datum
  exports : NameMap Kind

abbrev Lower := StateT State (Except CompileError)

/-- The numbers of cells in use of the two roles that nest. -/
structure Live where
  secondary : Nat
  aggregate : Nat
  deriving DecidableEq, Repr

namespace Live

def none : Live := ⟨0, 0⟩

def withSecondary (l : Live) : Live := { l with secondary := l.secondary + 1 }

def withAggregate (l : Live) : Live := { l with aggregate := l.aggregate + 1 }

end Live

namespace Context

def primary (ctx : Context) : Operand := .cell ctx.scratch.primary

def structSlot (ctx : Context) : Operand := .cell ctx.scratch.struct

/-- The cell that a value of kind `k` is left in. -/
def place (ctx : Context) (k : Kind) : Operand := if k.isStructLike then ctx.structSlot else ctx.primary

/-- The cell of a nesting role when `used` of its cells are in use. -/
def cellName (ctx : Context) (role : Role) (used : Nat) : Name :=
  if used = 0 then ctx.scratch.name role else ctx.scratch.name role ++ "." ++ Bytes.ofNat used

/-- The declaration of that cell, if it is a spill cell. -/
def cellDeclaration (ctx : Context) (role : Role) (used : Nat) : Code :=
  if used = 0 then [] else [.var role.storage (ctx.cellName role used)]

end Context

/-- Records a string constant and gives its name: the unit's name and the number of the string. -/
def addString (ctx : Context) (value : Bytes) : Lower Name := do
  let st ← get
  let name := ctx.unitName ++ ".str" ++ Bytes.ofNat st.strings
  set { st with strings := st.strings + 1, data := st.data ++ [({ name := name, value := value } : Datum)] }
  return name

/-- The operand for a node that needs no instructions: a number, a cell or a string constant. -/
def direct? (ctx : Context) : Node → Lower (Option Operand)
  | .number _ value => return some (.imm value)
  | .ident _ name => return some (.cell name)
  | .string _ value => return some (.data (← addString ctx value))
  | _ => return none

/-- The kind recorded for a name. -/
def kindOf? (name : Name) : Lower (Option Kind) := return (← get).symbols.lookup? name

/-- The cell that reading the name leaves its value in. -/
def placeOf (ctx : Context) (name : Name) : Lower Operand := do
  match ← kindOf? name with
  | some kind => return ctx.place kind
  | none => return ctx.primary

end UnitScript.Lowering
