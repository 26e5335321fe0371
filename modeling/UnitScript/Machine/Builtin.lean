import UnitScript.Kind
import UnitScript.Machine.Console
import UnitScript.Machine.Value

/-!
# Builtins

The functions that every program may call. Their results' kinds are known to the compiler through
`Builtin.prelude`; a result of kind null or callback is not left on the stack.
-/

namespace UnitScript

inductive Builtin where
  | print | println | input
  | strLen | strConcat | strEq
  | mathMax | mathMin | mathAbs
  deriving DecidableEq, Repr

inductive BuiltinError where
  | unknown (name : Name)
  /-- The check in front of every call: the number of arguments that `name` expects and got. -/
  | count (name : Name) (expected got : Nat)
  /-- The check of a builtin itself. -/
  | ownCount (name : Name) (expected got : Nat)
  | noConsole
  | input (text : Bytes)
  | notString (kind : Bytes)
  | notStrings (first second : Bytes)
  | notInt (name : Name) (place : Nat) (kind : Bytes)
  deriving DecidableEq, Repr

namespace BuiltinError

def countText (name : Name) (expected : Nat) (noun : Bytes) (got : Nat) : Bytes :=
  name ++ " expects " ++ Bytes.ofNat expected ++ noun ++ Bytes.ofNat got

def message : BuiltinError → Bytes
  | unknown name => "unknown builtin " ++ Text.quoted name
  | count name expected got => countText name expected " argument(s), got " got
  | ownCount name expected got =>
    countText name expected (if expected = 1 then " argument, got " else " arguments, got ") got
  | noConsole => "runtime env IO is nil"
  | input text => "input failed: failed to read input: " ++ text
  | notString kind => "str.len called on non-string type " ++ kind
  | notStrings first second => "str.eq expects strings, got " ++ first ++ " and " ++ second
  | notInt name place kind =>
    name ++ ": argument " ++ Bytes.ofNat place ++ " is " ++ kind ++ ", not int"

end BuiltinError

namespace Builtin

/-- The builtins in the order of their numbers. -/
def all : List Builtin :=
  [print, println, input, strLen, strConcat, strEq, mathMax, mathMin, mathAbs]

def id : Builtin → Nat
  | print => 0
  | println => 1
  | input => 2
  | strLen => 3
  | strConcat => 4
  | strEq => 5
  | mathMax => 6
  | mathMin => 7
  | mathAbs => 8

def name : Builtin → Name
  | print => "io.print"
  | println => "io.println"
  | input => "io.input"
  | strLen => "str.len"
  | strConcat => "str.concat"
  | strEq => "str.eq"
  | mathMax => "math.max"
  | mathMin => "math.min"
  | mathAbs => "math.abs"

def params : Builtin → List Name
  | print => [Bytes.ofString "value"]
  | println => [Bytes.ofString "value"]
  | input => []
  | strLen => [Bytes.ofString "s"]
  | strConcat => [Bytes.ofString "a", Bytes.ofString "b"]
  | strEq => [Bytes.ofString "a", Bytes.ofString "b"]
  | mathMax => [Bytes.ofString "a", Bytes.ofString "b"]
  | mathMin => [Bytes.ofString "a", Bytes.ofString "b"]
  | mathAbs => [Bytes.ofString "n"]

def arity (b : Builtin) : Nat := b.params.length

def result : Builtin → Kind
  | print => .null
  | println => .null
  | input => .string
  | strLen => .number
  | strConcat => .string
  | strEq => .number
  | mathMax => .number
  | mathMin => .number
  | mathAbs => .number

/-- Whether a call leaves its result on the stack. -/
def pushes (b : Builtin) : Bool := b.result.tag ≠ .null && b.result.tag ≠ .callback

def find? (name : Name) : Option Builtin := all.find? (·.name = name)

def ofId? (id : Int) : Option Builtin := all.find? fun b => (b.id : Int) = id

/-- The kinds of the builtins' results. -/
def prelude : Prelude := NameMap.ofList (all.map fun b => (b.name, b.result))

/-- The builtins ordered by name. -/
def sorted : List Builtin := prelude.names.filterMap find?

/-- Prints a text, when there is a console. -/
def printText (console : Option Console) (text : Bytes) :
    Except BuiltinError Value × Option Console :=
  match console with
  | none => (.error .noConsole, none)
  | some c => (.ok .null, some (c.print text))

def readLine (console : Option Console) : Except BuiltinError Value × Option Console :=
  match console with
  | none => (.error .noConsole, none)
  | some c =>
    match c.readLine with
    | (.ok line, c) => (.ok (.string line), some c)
    | (.error text, c) => (.error (.input text), some c)

def length : Value → Except BuiltinError Value
  | .string s => .ok (.int (Int64.ofNat (Utf8.count s)))
  | v => .error (.notString v.kindText)

def equalStrings : Value → Value → Except BuiltinError Value
  | .string a, .string b => .ok (.int (if a = b then 1 else 0))
  | a, b => .error (.notStrings a.kindText b.kindText)

/-- A function of two numbers. -/
def onTwo (b : Builtin) (f : Int64 → Int64 → Int64) : List Value → Except BuiltinError Value
  | [.int x, .int y] => .ok (.int (f x y))
  | [.int _, w] => .error (.notInt b.name 2 w.kindText)
  | [v, _] => .error (.notInt b.name 1 v.kindText)
  | args => .error (.count b.name 2 args.length)

/-- A function of one number. -/
def onOne (b : Builtin) (f : Int64 → Int64) : List Value → Except BuiltinError Value
  | [.int x] => .ok (.int (f x))
  | [v] => .error (.notInt b.name 1 v.kindText)
  | args => .error (.count b.name 1 args.length)

/-- The distance from zero; the least number has none and stays. -/
def magnitude (v : Int64) : Int64 := if v < 0 then -v else v

/-- What a builtin does with its arguments, in the order of its parameters. -/
def apply (b : Builtin) (h : Heap) (args : List Value) (console : Option Console) :
    Except BuiltinError Value × Option Console :=
  match b, args with
  | print, [v] => printText console (v.text h)
  | println, [v] => printText console (v.text h ++ [10])
  | input, [] => readLine console
  | strLen, [v] => (length v, console)
  | strConcat, [v, w] => (.ok (.string (v.text h ++ w.text h)), console)
  | strEq, [v, w] => (equalStrings v w, console)
  | mathMax, args => (b.onTwo (fun x y => if x < y then y else x) args, console)
  | mathMin, args => (b.onTwo (fun x y => if x < y then x else y) args, console)
  | mathAbs, args => (b.onOne magnitude args, console)
  | _, args => (.error (.ownCount b.name b.arity args.length), console)

/-- Calls a builtin by name, with a check of the number of arguments. -/
def call (name : Name) (h : Heap) (args : List Value) (console : Option Console) :
    Except BuiltinError Value × Option Console :=
  match find? name with
  | none => (.error (.unknown name), console)
  | some b =>
    if args.length ≠ b.arity then (.error (.count name b.arity args.length), console)
    else b.apply h args console

/-- The description of a function that might be added to the builtins. -/
structure Candidate where
  id : Int
  name : Name
  arity : Int
  params : List Name
  result : Kind
  isImplemented : Bool

/-- Why a function cannot be added. -/
inductive CandidateError where
  | paramCount (name : Name) (id : Int) (params : Nat) (arity : Int)
  | notImplemented (name : Name) (id : Int)
  | noResult (name : Name) (id : Int)
  | takenId (id : Int) (name : Name)
  | takenName (name : Name)
  deriving DecidableEq, Repr

def CandidateError.message : CandidateError → Bytes
  | paramCount name id params arity =>
    "builtin " ++ name ++ " (ID " ++ Bytes.ofInt id ++ "): ParamNames length (" ++
      Bytes.ofNat params ++ ") != Arity (" ++ Bytes.ofInt arity ++ ")"
  | notImplemented name id =>
    "builtin " ++ name ++ " (ID " ++ Bytes.ofInt id ++ ") has no implementation"
  | noResult name id =>
    "builtin " ++ name ++ " (ID " ++ Bytes.ofInt id ++ ") has an undefined result kind"
  | takenId id name => "builtin ID " ++ Bytes.ofInt id ++ " (" ++ name ++ ") is already registered"
  | takenName name => "builtin name " ++ Text.quoted name ++ " is already registered"

/-- A function can be added when its description is complete and neither its number nor its name is
taken. -/
def Candidate.check (c : Candidate) : Except CandidateError Unit :=
  if (c.params.length : Int) ≠ c.arity then
    .error (.paramCount c.name c.id c.params.length c.arity)
  else if !c.isImplemented then .error (.notImplemented c.name c.id)
  else if c.result.tag = .undefined then .error (.noResult c.name c.id)
  else if (ofId? c.id).isSome then .error (.takenId c.id c.name)
  else if (find? c.name).isSome then .error (.takenName c.name)
  else .ok ()

end Builtin

end UnitScript
