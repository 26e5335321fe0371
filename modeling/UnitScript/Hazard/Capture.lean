import UnitScript.Hazard

/-!
# Captured locals

The locals of a function are its parameters and the names declared in its own body. A function that
uses a local of an enclosing function, and has no local of that name itself, captures it.
-/

namespace UnitScript

/-- A local of an enclosing function that a function uses. -/
structure Capture where
  name : Name
  /-- The nearest enclosing function that has the local. -/
  owner : Name
  pos : Position
  deriving DecidableEq, Repr

/-- A function and its locals. -/
structure FunctionLocals where
  name : Name
  pos : Position
  locals : List Name
  body : List Node

namespace Node

mutual

/-- The names that a statement declares in the function around it, in order. -/
def declared : Node → List Name
  | binary _ .declare (ident _ name) _ _ => [name]
  | cond _ _ yes no => declaredAll yes ++ declaredAll no
  | loop _ _ body => declaredAll body
  | func _ name _ _ _ => [name]
  | _ => []

def declaredAll : List Node → List Name
  | [] => []
  | n :: rest => declared n ++ declaredAll rest

end

end Node

namespace FunctionLocals

/-- Adds the names that are not there yet. -/
def extend (names : List Name) : List Name → List Name
  | [] => names
  | name :: rest => extend (if name ∈ names then names else names ++ [name]) rest

def of (name : Name) (pos : Position) (params : List Param) (body : List Node) : FunctionLocals :=
  ⟨name, pos, extend (params.map Param.name) (Node.declaredAll body), body⟩

/-- The uses in a body, the first one of each name. -/
def firstUses (seen : List Name) : List Use → List Use
  | [] => []
  | u :: rest =>
    if u.name ∈ seen then firstUses seen rest else u :: firstUses (u.name :: seen) rest

/-- The captures of a function inside the functions `outer`, the nearest one first. -/
def captures (f : FunctionLocals) (outer : List FunctionLocals) : List Capture :=
  (firstUses [] (Node.usesAll f.body)).filterMap fun u =>
    if u.name ∈ f.locals ∨ u.name = f.name then none
    else (outer.find? fun g => u.name ∈ g.locals).map fun g => ⟨u.name, g.name, u.pos⟩

end FunctionLocals

/-- What is known of one function declaration. -/
structure FunctionInfo where
  name : Name
  pos : Position
  locals : List Name
  captures : List Capture
  deriving DecidableEq, Repr

namespace FunctionInfo

mutual

/-- The functions declared by a node inside the functions `outer`, in the order of the text. -/
def ofNode (outer : List FunctionLocals) : Node → List FunctionInfo
  | .func pos name params _ body =>
    let f := FunctionLocals.of name pos params body
    ⟨name, pos, f.locals, f.captures outer⟩ :: ofNodes (f :: outer) body
  | .cond _ _ yes no => ofNodes outer yes ++ ofNodes outer no
  | .loop _ _ body => ofNodes outer body
  | _ => []

def ofNodes (outer : List FunctionLocals) : List Node → List FunctionInfo
  | [] => []
  | n :: rest => ofNode outer n ++ ofNodes outer rest

end

/-- The functions of a program, ordered by position. -/
def ofProgram (body : List Node) : List FunctionInfo :=
  (ofNodes [] body).mergeSort fun f g => !g.pos.isBefore f.pos

/-- The hazards of a function's captures. -/
def hazards (f : FunctionInfo) : List Hazard :=
  f.captures.map fun c => .captured f.name c.owner c.name c.pos

end FunctionInfo

end UnitScript
