import UnitScript.Kind.Symbols
import UnitScript.Module.Fault
import UnitScript.Syntax.Node

/-!
# What can go wrong in compilation

A compile error has a kind, the place of the offending node, and often a cause: a symbol table that
refused a name, data that clashed, code that cannot be encoded, or an included unit that is not to be
had, which may itself have failed to compile.
-/

namespace UnitScript

inductive ErrorKind where
  | unresolvedSymbol
  | invalidAssignmentTarget
  | invalidDeclarationTarget
  | unsupportedConstruct
  | malformedCallee
  | duplicateDeclaration
  deriving DecidableEq, Repr

namespace ErrorKind

def text : ErrorKind → Bytes
  | unresolvedSymbol => "unresolved symbol"
  | invalidAssignmentTarget => "invalid assignment target"
  | invalidDeclarationTarget => "invalid declaration target"
  | unsupportedConstruct => "unsupported construct"
  | malformedCallee => "malformed callee"
  | duplicateDeclaration => "duplicate declaration"

def all : List ErrorKind :=
  [unresolvedSymbol, invalidAssignmentTarget, invalidDeclarationTarget, unsupportedConstruct,
    malformedCallee, duplicateDeclaration]

end ErrorKind

mutual

inductive CompileError where
  | mk (kind : ErrorKind) (pos : Position) (detail : Bytes) (cause : Cause)

inductive Cause where
  | none
  | symbol (e : SymbolError)
  | data (name : Name)
  | encoding (e : EncodeError)
  | inclusion (e : IncludeError)

/-- Why an imported unit is not to be had. -/
inductive IncludeError where
  /-- A reason of the source of imports. -/
  | note (text : Bytes)
  | fault (f : ModuleFault)
  /-- The import is not at hand and has to be loaded first. -/
  | notLoaded (name : Name)
  | compile (e : CompileError)
  | within (place : Bytes) (e : IncludeError)

end

instance : Inhabited IncludeError := ⟨.note []⟩

namespace CompileError

def kind : CompileError → ErrorKind
  | mk kind _ _ _ => kind

def pos : CompileError → Position
  | mk _ pos _ _ => pos

def cause : CompileError → Cause
  | mk _ _ _ cause => cause

def message : CompileError → Bytes
  | mk kind pos detail _ =>
    pos.note (if detail.isEmpty then kind.text else kind.text ++ ": " ++ detail)

/-- An error about a node. -/
def ofNode (kind : ErrorKind) (n : Node) (detail : Bytes) : CompileError := .mk kind n.pos detail .none

end CompileError

def IncludeError.message : IncludeError → Bytes
  | .note text => text
  | .fault f => f.message
  | .notLoaded name => "module " ++ Text.quoted name ++ " is not loaded"
  | .compile e => e.message
  | .within place e => place ++ ": " ++ e.message

/-- The text of a cause, if there is one. -/
def Cause.text? : Cause → Option Bytes
  | .none => Option.none
  | .symbol e => some e.message
  | .data name => some (Datum.conflictText name)
  | .encoding e => some e.message
  | .inclusion e => some e.message

/-- An error at a place with the text of its cause. -/
def CompileError.because (kind : ErrorKind) (pos : Position) (cause : Cause) : CompileError :=
  .mk kind pos (cause.text?.getD []) cause

mutual

/-- The kinds of an error and of the errors that caused it. -/
def CompileError.kinds : CompileError → List ErrorKind
  | .mk kind _ _ cause => kind :: cause.kinds

def Cause.kinds : Cause → List ErrorKind
  | .inclusion e => e.kinds
  | _ => []

def IncludeError.kinds : IncludeError → List ErrorKind
  | .compile e => e.kinds
  | .within _ e => e.kinds
  | _ => []

end

mutual

/-- The symbol errors among the causes of an error. -/
def CompileError.symbolErrors : CompileError → List SymbolError
  | .mk _ _ _ cause => cause.symbolErrors

def Cause.symbolErrors : Cause → List SymbolError
  | .symbol e => [e]
  | .inclusion e => e.symbolErrors
  | _ => []

def IncludeError.symbolErrors : IncludeError → List SymbolError
  | .compile e => e.symbolErrors
  | .within _ e => e.symbolErrors
  | _ => []

end

/-- The outermost compile error inside a failure. -/
def IncludeError.compileError? : IncludeError → Option CompileError
  | .compile e => some e
  | .within _ e => e.compileError?
  | _ => none

end UnitScript
