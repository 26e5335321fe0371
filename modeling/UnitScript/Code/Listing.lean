import UnitScript.Code.Decoding

/-!
# Listings

A readable form of a unit. The instructions of a scope are numbered by the indices that jumps refer
to, and function bodies are decoded and shown in place.
-/

namespace UnitScript.Listing

def indent (depth : Nat) : Bytes := Bytes.replicate depth "  "

/-- The head of a function: its name, parameters and result. -/
def signature (f : FunctionRecord) : Bytes :=
  "func " ++ f.name ++ "(" ++
    Bytes.join ", " (f.params.map fun p => p.name ++ " " ++ p.storage.text) ++ ") " ++ f.result.text

mutual

/-- The lines of an instruction behind `lead`; `body` lists a function body at a depth. -/
def instruction (body : Nat → Bytes → Bytes) (depth : Nat) (lead : Bytes) : Instruction → Bytes
  | ⟨op, args, storage, relation, target, children, func⟩ =>
    match op, func with
    | .scope, _ => lead ++ "scope\n" ++ numbered body (depth + 1) 0 children
    | .func, some f => lead ++ signature f ++ "\n" ++ body depth f.body
    | _, _ => lead ++ (Instruction.mk op args storage relation target children func).text ++ "\n"

/-- The instructions of a scope from index `i` on. -/
def numbered (body : Nat → Bytes → Bytes) (depth i : Nat) : List Instruction → Bytes
  | [] => []
  | inst :: rest =>
    instruction body depth (indent depth ++ Bytes.ofNat i ++ ": ") inst ++
      numbered body depth (i + 1) rest

end

/-- Instructions outside scopes, which have no numbers. -/
def plain (body : Nat → Bytes → Bytes) (depth : Nat) (is : List Instruction) : Bytes :=
  is.flatMap (instruction body depth (indent depth))

/-- The lines of an encoded function body below its head at `depth`. A body is longer than the bodies
in it, so a body of `n` bytes has at most `n` levels. -/
def bodyWithin : (levels depth : Nat) → Bytes → Bytes
  | 0, _, _ => []
  | levels + 1, depth, s =>
    match Decoding.runCode s with
    | .error e => indent depth ++ "  <undecodable body: " ++ e.message ++ ">\n"
    | .ok is => plain (bodyWithin levels) (depth + 1) is

def body (depth : Nat) (s : Bytes) : Bytes := bodyWithin (s.length + 1) depth s

/-- The listing of a bare list of instructions. -/
def code (is : List Instruction) : Bytes := plain body 0 is

def dataLine (d : Datum) : Bytes := "  " ++ d.name ++ " = " ++ Text.quoted d.value ++ "\n"

def exportLine (e : Name × Kind) : Bytes := "  " ++ e.1 ++ ": " ++ e.2.text ++ "\n"

/-- A heading and the lines below it; nothing when there are none. -/
def lines {α : Type} (heading : Bytes) (line : α → Bytes) (items : List α) : Bytes :=
  if items.isEmpty then [] else heading ++ items.flatMap line

end UnitScript.Listing

namespace UnitScript

/-- The listing of a unit. -/
def CodeUnit.listing (u : CodeUnit) : Bytes :=
  "unit " ++ u.name ++ "\n" ++ Listing.lines "data\n" Listing.dataLine u.data ++
    Listing.lines "exports\n" Listing.exportLine u.exports.entries ++ "code\n" ++
    Listing.plain Listing.body 1 u.code

end UnitScript
