import UnitScript.Code.CodeUnit

/-!
# Scratch cells

Compiled code keeps intermediate values in four scratch cells. Their names are free to choose as
long as they are distinct and plain; a cell without a chosen name has a default one.
-/

namespace UnitScript

/-- What a scratch cell is for. -/
inductive Role where
  /-- Results that are numbers, pointers or functions. -/
  | primary
  /-- The left operand while the right one is computed. -/
  | secondary
  /-- The array whose elements are being stored. -/
  | aggregate
  /-- Results that are strings or structs. -/
  | struct
  deriving DecidableEq, Repr

namespace Role

def all : List Role := [primary, secondary, aggregate, struct]

def code : Role → Nat
  | primary => 0
  | secondary => 1
  | aggregate => 2
  | struct => 3

def storage : Role → Storage
  | primary => .i64
  | secondary => .i64
  | aggregate => .ptr
  | struct => .struct

end Role

/-- The names of the four cells; an empty one stands for the default. -/
structure Scratch where
  primary : Name := []
  secondary : Name := []
  aggregate : Name := []
  struct : Name := []
  deriving DecidableEq, Repr

inductive ScratchError where
  | notPlain (name : Name)
  | sharedName (name : Name) (first second : Role)
  deriving DecidableEq, Repr

def ScratchError.message : ScratchError → Bytes
  | notPlain name => "scratch slot name " ++ Text.quoted name ++ " must be a plain identifier"
  | sharedName name first second =>
    "scratch slot name " ++ Text.quoted name ++ " used for roles " ++ Bytes.ofNat first.code ++
      " and " ++ Bytes.ofNat second.code

namespace Scratch

def default : Scratch :=
  { primary := Bytes.ofString "temp"
    secondary := Bytes.ofString "temp2"
    aggregate := Bytes.ofString "tempptr"
    struct := Bytes.ofString "tempstruct" }

def name (s : Scratch) : Role → Name
  | .primary => s.primary
  | .secondary => s.secondary
  | .aggregate => s.aggregate
  | .struct => s.struct

def orDefault (name fallback : Name) : Name := if name.isEmpty then fallback else name

def withDefaults (s : Scratch) : Scratch :=
  { primary := orDefault s.primary default.primary
    secondary := orDefault s.secondary default.secondary
    aggregate := orDefault s.aggregate default.aggregate
    struct := orDefault s.struct default.struct }

/-- The names in effect, in the order of the roles. -/
def names (s : Scratch) : List Name := Role.all.map s.withDefaults.name

/-- A name without dots and blanks. -/
def isPlain (name : Name) : Bool := !name.any fun b => b == 46 || b == 32 || b == 9 || b == 10

/-- Checks the names of `roles` in turn; `seen` holds the roles before them. -/
def validateFrom (s : Scratch) (seen : List Role) : List Role → Except ScratchError Unit
  | [] => .ok ()
  | r :: rest =>
    if !isPlain (s.name r) then .error (.notPlain (s.name r))
    else
      match seen.find? fun q => s.name q = s.name r with
      | some q => .error (.sharedName (s.name r) q r)
      | none => validateFrom s (seen ++ [r]) rest

/-- The names in effect must be plain and distinct. -/
def validate (s : Scratch) : Except ScratchError Unit := validateFrom s.withDefaults [] Role.all

/-- Whether a name is one of the cells in effect. -/
def isReserved (s : Scratch) (name : Name) : Bool := Role.all.any fun r => s.withDefaults.name r = name

/-- The declarations of the four cells. -/
def declarations (s : Scratch) : List Instruction :=
  Role.all.map fun r => .var r.storage (s.withDefaults.name r)

end Scratch

/-- The unit with its scratch cells declared in front, as it runs on its own. -/
def CodeUnit.declareScratch (u : CodeUnit) (s : Scratch) : CodeUnit :=
  { u with code := s.declarations ++ u.code }

end UnitScript
