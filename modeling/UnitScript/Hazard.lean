import UnitScript.Kind.Inference

/-!
# Lexical hazards

Names live in one flat namespace and a function sees only its own cells and those of the top level.
A hazard is a use of a name that reads as if it were otherwise. Hazards are reported, never refused.
-/

namespace UnitScript

inductive HazardKind where
  /-- A name used after the block that declared it has ended. -/
  | escapedName
  /-- A local of an enclosing function used inside a nested one. -/
  | capturedLocal
  /-- A function used in its own body, before its kind is known. -/
  | selfCall
  deriving DecidableEq, Repr

namespace HazardKind

/-- The kinds in the order of their numbers. -/
def all : List HazardKind := [escapedName, capturedLocal, selfCall]

def text : HazardKind → Bytes
  | escapedName => "escaped-name"
  | capturedLocal => "captured-local"
  | selfCall => "self-call"

def textOfCode (code : Int) : Bytes :=
  match (if 0 ≤ code then all[code.toNat]? else none) with
  | some kind => kind.text
  | none => "Kind(" ++ Bytes.ofInt code ++ ")"

end HazardKind

structure Hazard where
  kind : HazardKind
  name : Name
  pos : Position
  message : Bytes
  deriving DecidableEq, Repr

namespace Hazard

def text (h : Hazard) : Bytes := h.pos.note (h.message ++ " (" ++ h.kind.text ++ ")")

def escaped (name : Name) (pos : Position) : Hazard :=
  ⟨.escapedName, name, pos, Text.quoted name ++ " is used outside the block that declared it"⟩

def captured (function owner name : Name) (pos : Position) : Hazard :=
  ⟨.capturedLocal, name, pos, function ++ " uses " ++ Text.quoted name ++
    ", a local of enclosing function " ++ owner ++ " that is not visible from its frame"⟩

def self (name : Name) (pos : Position) : Hazard :=
  ⟨.selfCall, name, pos, name ++
    " refers to itself before its declaration completes; calls use the number convention"⟩

end Hazard

/-- A name and the place where it is used. -/
structure Use where
  name : Name
  pos : Position
  deriving DecidableEq, Repr

namespace Node

mutual

/-- The names that a node reads, assigns or calls, in order. Bodies of functions are left out, and a
declared name is not used by its declaration. A dotted path is one name. -/
def uses : Node → List Use
  | ident p name => [⟨name, p⟩]
  | binary _ op left right _ => (if op = .declare then [] else uses left) ++ uses right
  | index p name i => ⟨name, p⟩ :: uses i
  | call _ callee args => uses callee ++ usesAll args
  | property p object member =>
    (match (property p object member).pathName? with
      | some (name, _) => [⟨name, p⟩]
      | none => []) ++ pathUses member
  | array _ elements => usesAll elements
  | ret _ value => uses value
  | cond _ test yes no => uses test ++ usesAll yes ++ usesAll no
  | loop _ test body => uses test ++ usesAll body
  | _ => []

def usesAll : List Node → List Use
  | [] => []
  | n :: rest => uses n ++ usesAll rest

/-- The uses in the arguments of the call at the end of a path. -/
def pathUses : Node → List Use
  | property _ _ member => pathUses member
  | call _ _ args => usesAll args
  | _ => []

end

end Node

end UnitScript
