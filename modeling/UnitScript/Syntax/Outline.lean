import UnitScript.Syntax.Node
import UnitScript.Text.Quoted

/-!
# Outlines of syntax trees

A readable form of a tree: one line a node, two blanks for each level, nothing for a missing node.
-/

namespace UnitScript.Node

/-- A line at the given depth. -/
def outlineLine (depth : Nat) (text : Bytes) : Bytes := Bytes.replicate depth "  " ++ text ++ "\n"

def outlineParams (depth : Nat) (params : List Param) : Bytes :=
  params.flatMap fun p => outlineLine depth ("Param " ++ p.name ++ ": " ++ TypeExpr.textOf p.type)

mutual

/-- The outline of a node at the given depth. -/
def outlineAt (depth : Nat) : Node → Bytes
  | missing => []
  | program body => outlineLine depth "Program" ++ outlineAll (depth + 1) body
  | importUnit _ name => outlineLine depth ("Import name=" ++ name)
  | func _ name params result body =>
    outlineLine depth ("FuncDecl name=" ++ name ++ " result=" ++ TypeExpr.textOf result) ++
      outlineParams (depth + 1) params ++ outlineLine (depth + 1) "Body:" ++
      outlineAll (depth + 2) body
  | cond _ test yes no =>
    outlineLine depth "If" ++ outlineLine (depth + 1) "Cond:" ++ outlineAt (depth + 2) test ++
      outlineLine (depth + 1) "Then:" ++ outlineAll (depth + 2) yes ++
      (if no.isEmpty then [] else outlineLine (depth + 1) "Else:" ++ outlineAll (depth + 2) no)
  | loop _ test body =>
    outlineLine depth "While" ++ outlineLine (depth + 1) "Cond:" ++ outlineAt (depth + 2) test ++
      outlineLine (depth + 1) "Body:" ++ outlineAll (depth + 2) body
  | ret _ value => outlineLine depth "Return" ++ outlineAt (depth + 1) value
  | pass _ => outlineLine depth "Pass"
  | number _ value => outlineLine depth ("Number " ++ Bytes.ofInt64 value)
  | string _ value => outlineLine depth ("String " ++ Text.quoted value)
  | array _ elements =>
    outlineLine depth ("Array len=" ++ Bytes.ofNat elements.length) ++
      outlineAll (depth + 1) elements
  | ident _ name => outlineLine depth ("Ident " ++ name)
  | binary _ op left right annotation =>
    (if op = .declare then
        outlineLine depth ("Binary " ++ op.text ++ " type=" ++ TypeExpr.textOf annotation)
      else outlineLine depth ("Binary " ++ op.text)) ++
      outlineAt (depth + 1) left ++ outlineAt (depth + 1) right
  | index _ name place => outlineLine depth ("Index " ++ name) ++ outlineAt (depth + 1) place
  | property _ object member =>
    outlineLine depth "Property" ++ outlineAt (depth + 1) object ++ outlineAt (depth + 1) member
  | call _ callee args =>
    outlineLine depth ("Call args=" ++ Bytes.ofNat args.length) ++ outlineAt (depth + 1) callee ++
      outlineAll (depth + 1) args
  | type t => outlineLine depth ("Type " ++ t.text)
  | param p => outlineLine depth ("<unknown " ++ (param p).shape ++ ">")

def outlineAll (depth : Nat) : List Node → Bytes
  | [] => []
  | n :: rest => outlineAt depth n ++ outlineAll depth rest

end

def outline (n : Node) : Bytes := outlineAt 0 n

end UnitScript.Node
