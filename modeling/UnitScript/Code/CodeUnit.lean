import UnitScript.Code.Instruction

/-!
# Units

A unit is a compiled program or library: its string data, the kinds of the functions it exports, and
its instructions.
-/

namespace UnitScript

/-- A named string constant. -/
structure Datum where
  name : Name
  value : Bytes
  deriving DecidableEq, Repr

structure CodeUnit where
  name : Name
  data : List Datum := []
  exports : NameMap Kind := .empty
  code : List Instruction := []
  deriving DecidableEq, Repr

namespace Datum

/-- The string under a name; of two entries with the same name the first counts. -/
def find? (data : List Datum) (name : Name) : Option Bytes :=
  (data.find? (·.name = name)).map Datum.value

/-- Adds the entries that are not there yet, up to the first that is there with another string,
whose name is given back. -/
def merge (data : List Datum) : List Datum → List Datum × Option Name
  | [] => (data, none)
  | d :: rest =>
    match find? data d.name with
    | some value => if value = d.value then merge data rest else (data, some d.name)
    | none => merge (data ++ [d]) rest

def conflictText (name : Name) : Bytes := "conflicting data entry " ++ Text.quoted name

end Datum

end UnitScript
