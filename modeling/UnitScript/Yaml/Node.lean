import UnitScript.Bytes

/-!
# Nodes of structured text

Scalars and mappings. A mapping keeps its entries in the order in which they were written.
-/

namespace UnitScript.Yaml

inductive Node where
  /-- A text; one without quotes is plain. -/
  | scalar (text : Bytes) (isPlain : Bool)
  | mapping (entries : List (Node × Node))
  deriving Inhabited

namespace Node

def null : Node := .scalar [] true

/-- The plain texts that stand for nothing. -/
def nulls : List Bytes :=
  [[], Bytes.ofString "~", Bytes.ofString "null", Bytes.ofString "Null", Bytes.ofString "NULL"]

def isNull : Node → Bool
  | scalar text isPlain => isPlain && text ∈ nulls
  | mapping _ => false

/-- The text of a scalar. -/
def text? : Node → Option Bytes
  | scalar text _ => some text
  | mapping _ => none

end Node

end UnitScript.Yaml
