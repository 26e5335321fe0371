import UnitScript.Kind.Symbols

/-!
# Kinds of expressions

The kind of an initializer without a written type. A dotted path of names is one symbol, named by
its members with dots between them.
-/

namespace UnitScript

namespace Node

/-- The members of a path of names and whether its last member is called. -/
def path? : Node → Option (List Name × Bool)
  | property _ (ident _ object) member => (path? member).map fun p => (object :: p.1, p.2)
  | ident _ name => some ([name], false)
  | call _ (ident _ name) _ => some ([name], true)
  | _ => none

/-- The symbol that a path stands for and whether it is called. -/
def pathName? (n : Node) : Option (Name × Bool) := n.path?.map fun p => (Bytes.join "." p.1, p.2)

/-- The arguments of the call at the end of a path. -/
def pathArgs : Node → List Node
  | property _ _ member => pathArgs member
  | call _ _ args => args
  | _ => []

end Node

namespace Symbols

/-- Literals, array reads and the results of operators have their own kinds; names and calls are
looked up. -/
def infer (s : Symbols) (n : Node) : Except SymbolError Kind :=
  match n with
  | .number .. => .ok .number
  | .string .. => .ok .string
  | .array .. => .ok .number
  | .index .. => .ok .number
  | .ident _ name => s.lookup name
  | .binary _ op _ _ _ =>
    if op.isArithmetic || op.isComparison then .ok .number else .error (.uninferable n.shape)
  | .call _ (.ident _ name) _ => (s.lookup name).map Kind.returned
  | .property .. =>
    match n.pathName? with
    | some (name, true) => (s.lookup name).map Kind.returned
    | some (name, false) => s.lookup name
    | none => .error (.uninferable n.shape)
  | _ => .error (.uninferable n.shape)

end Symbols

end UnitScript
