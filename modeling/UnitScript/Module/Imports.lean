import UnitScript.Syntax.Node

/-!
# The imports of a program
-/

namespace UnitScript

namespace Node

/-- The name that a statement imports. -/
def imported? : Node → Option Name
  | importUnit _ name => some name
  | _ => none

mutual

/-- The names that a statement imports, inside of it as well. -/
def imports : Node → List Name
  | importUnit _ name => [name]
  | cond _ _ yes no => importsOfAll yes ++ importsOfAll no
  | loop _ _ body => importsOfAll body
  | func _ _ _ _ body => importsOfAll body
  | program body => importsOfAll body
  | _ => []

def importsOfAll : List Node → List Name
  | [] => []
  | n :: rest => imports n ++ importsOfAll rest

end

end Node

namespace Program

/-- The names that are not among `seen`, each once, in the order of their first occurrence. -/
def newNames (seen : List Name) : List Name → List Name
  | [] => []
  | name :: rest =>
    if name ∈ seen then newNames seen rest else name :: newNames (name :: seen) rest

/-- The names imported at the top level, in the order of the program. -/
def topImports (body : List Node) : List Name := newNames [] (body.filterMap Node.imported?)

/-- A program with imports in front of it, except of what it imports by itself. -/
def withImports (names : List Name) (body : List Node) : List Node :=
  (newNames (topImports body) names).map (Node.importUnit .unknown) ++ body

end Program

end UnitScript
