import UnitScript.Kind

/-!
# Symbols of a unit under compilation

Lookup is flat: once declared, a name keeps its kind for the rest of the unit, also behind the block
that declared it, and the latest declaration wins. Blocks only bound the check for duplicates.
-/

namespace UnitScript

inductive SymbolError where
  | unresolved (name : Name)
  | duplicate (name : Name)
  /-- The kind of a node of this shape cannot be inferred. -/
  | uninferable (shape : Bytes)
  deriving DecidableEq, Repr

namespace SymbolError

def message : SymbolError → Bytes
  | unresolved name => "unresolved symbol: " ++ Text.quoted name
  | duplicate name => "duplicate declaration: " ++ Text.quoted name
  | uninferable shape => "unresolved symbol: cannot infer kind of " ++ shape

def isDuplicate : SymbolError → Bool
  | duplicate _ => true
  | _ => false

end SymbolError

/-- The known kinds, the names declared in the innermost block, and those of the blocks around it. -/
structure Symbols where
  kinds : NameMap Kind
  block : NameMap Unit
  outer : List (NameMap Unit)
  deriving Repr

namespace Symbols

def ofPrelude (prelude : Prelude) : Symbols := ⟨prelude, .empty, []⟩

def lookup? (s : Symbols) (name : Name) : Option Kind := s.kinds.get? name

def lookup (s : Symbols) (name : Name) : Except SymbolError Kind :=
  match s.lookup? name with
  | some kind => .ok kind
  | none => .error (.unresolved name)

/-- Declares a name in the innermost block, which must not have declared it before. -/
def declare (s : Symbols) (name : Name) (kind : Kind) : Except SymbolError Symbols :=
  if s.block.has name then .error (.duplicate name)
  else .ok { s with kinds := s.kinds.insert name kind, block := s.block.insert name () }

def enter (s : Symbols) : Symbols := { s with block := .empty, outer := s.block :: s.outer }

/-- Leaves a block; the outermost one is never left. -/
def leave (s : Symbols) : Symbols :=
  match s.outer with
  | [] => s
  | block :: outer => { s with block := block, outer := outer }

end Symbols

end UnitScript
