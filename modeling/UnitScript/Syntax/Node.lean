import UnitScript.Position

/-!
# Syntax trees

Statements and expressions share one type of node: a block is a list of nodes and any node may stand
anywhere. A tree that was built rather than parsed may also hold type annotations, parameters or
whole programs as nodes, and `missing` stands where a node is absent.
-/

namespace UnitScript

/-- The operators of binary nodes; assignment and declaration are among them. A number without an
operator is kept as it is. -/
inductive Operator where
  | add | sub | mul | div
  | eq | ne | lt | le | gt | ge
  | assign | declare
  | other (code : Int)
  deriving DecidableEq, Repr

namespace Operator

def text : Operator → Bytes
  | add => "+"
  | sub => "-"
  | mul => "*"
  | div => "/"
  | eq => "=="
  | ne => "!="
  | lt => "<"
  | le => "<="
  | gt => ">"
  | ge => ">="
  | assign => "="
  | declare => "let"
  | other _ => "?"

def isArithmetic : Operator → Bool
  | add | sub | mul | div => true
  | _ => false

def isComparison : Operator → Bool
  | eq | ne | lt | le | gt | ge => true
  | _ => false

/-- The operators in the order of their numbers. -/
def all : List Operator := [add, sub, mul, div, eq, ne, lt, le, gt, ge, assign, declare]

def ofCode (code : Int) : Operator :=
  match (if 0 ≤ code then all[code.toNat]? else none) with
  | some op => op
  | none => other code

end Operator

/-- A written type: a plain name, `func`, or `func<result>`. -/
inductive TypeExpr where
  | named (pos : Position) (name : Name)
  | callback (pos : Position)
  | callbackOf (pos : Position) (result : TypeExpr)
  deriving DecidableEq, Repr

namespace TypeExpr

def pos : TypeExpr → Position
  | named p _ => p
  | callback p => p
  | callbackOf p _ => p

/-- The type as it is written in a program. -/
def text : TypeExpr → Bytes
  | named _ name => name
  | callback _ => "func"
  | callbackOf _ result => "func<" ++ result.text ++ ">"

/-- An absent annotation shows as `undefined`. -/
def textOf : Option TypeExpr → Bytes
  | some t => t.text
  | none => "undefined"

end TypeExpr

/-- A function parameter; without a type it is a number. -/
structure Param where
  pos : Position
  name : Name
  type : Option TypeExpr
  deriving DecidableEq, Repr

inductive Node where
  | number (pos : Position) (value : Int64)
  | string (pos : Position) (value : Bytes)
  | array (pos : Position) (elements : List Node)
  | ident (pos : Position) (name : Name)
  | binary (pos : Position) (op : Operator) (left right : Node) (type : Option TypeExpr)
  | index (pos : Position) (name : Name) (index : Node)
  /-- `object.member`; in a parsed tree the member may be a call, an index read or a longer path. -/
  | property (pos : Position) (object member : Node)
  | call (pos : Position) (callee : Node) (args : List Node)
  | cond (pos : Position) (test : Node) (yes no : List Node)
  | loop (pos : Position) (test : Node) (body : List Node)
  /-- A bare return has a missing value. -/
  | ret (pos : Position) (value : Node)
  | pass (pos : Position)
  | func (pos : Position) (name : Name) (params : List Param) (result : Option TypeExpr)
      (body : List Node)
  | importUnit (pos : Position) (name : Name)
  | param (param : Param)
  | type (type : TypeExpr)
  | program (body : List Node)
  | missing
  deriving Repr, Inhabited

namespace Node

/-- The place of the token that the node is named after: an operator for binary nodes, the opening
parenthesis for calls, the dot for property paths. -/
def pos : Node → Position
  | number p _ => p
  | string p _ => p
  | array p _ => p
  | ident p _ => p
  | binary p .. => p
  | index p .. => p
  | property p .. => p
  | call p .. => p
  | cond p .. => p
  | loop p .. => p
  | ret p _ => p
  | pass p => p
  | func p .. => p
  | importUnit p _ => p
  | param p => p.pos
  | type t => t.pos
  | program (first :: _) => first.pos
  | program [] => .unknown
  | missing => .unknown

/-- The name of a node's shape in messages. -/
def shape : Node → Bytes
  | number .. => "*ast.NumberLit"
  | string .. => "*ast.StringLit"
  | array .. => "*ast.ArrayLit"
  | ident .. => "*ast.Ident"
  | binary .. => "*ast.BinaryExpr"
  | index .. => "*ast.IndexExpr"
  | property .. => "*ast.PropertyExpr"
  | call .. => "*ast.CallExpr"
  | cond .. => "*ast.IfStmt"
  | loop .. => "*ast.WhileStmt"
  | ret .. => "*ast.ReturnStmt"
  | pass _ => "*ast.PassStmt"
  | func .. => "*ast.FuncDecl"
  | importUnit .. => "*ast.ImportStmt"
  | param _ => "*ast.Param"
  | type (.named ..) => "*ast.SimpleType"
  | type _ => "*ast.FuncType"
  | program _ => "*ast.Program"
  | missing => "<nil>"

def isMissing : Node → Bool
  | missing => true
  | _ => false

end Node

end UnitScript
