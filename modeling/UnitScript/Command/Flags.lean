import UnitScript.Decimal
import UnitScript.Text.Quoted

/-!
# Flags of the command line

Flags stand in front of the other arguments. A flag starts with one or two dashes; its value follows
behind an equals sign or, unless the flag is a switch, as the next argument. Two dashes alone end the
flags.
-/

namespace UnitScript

inductive Flag where
  | verbose
  | includeDir
  | prelude
  | noCache
  | maxSteps
  | out
  | standalone
  deriving DecidableEq, Repr

structure FlagValues where
  verbose : Int := 0
  includeDirs : List Bytes := []
  preludes : List Bytes := []
  noCache : Bool := false
  maxSteps : Int := 0
  /-- The file to write; none is given if it is empty. -/
  out : Bytes := []
  standalone : Bool := true

/-- Why a value does not suit a flag. -/
inductive FlagValueError where
  | malformed
  | outOfRange
  | badVerbosity (text : Bytes)
  deriving DecidableEq, Repr

def FlagValueError.message : FlagValueError → Bytes
  | malformed => "parse error"
  | outOfRange => "value out of range"
  | badVerbosity text => "invalid verbosity " ++ Text.quoted text

inductive FlagError where
  | badForm (arg : Bytes)
  | unknown (name : Bytes)
  | helpAsked
  | noValue (name : Bytes)
  | badSwitch (name value : Bytes) (cause : FlagValueError)
  | badValue (name value : Bytes) (cause : FlagValueError)
  deriving DecidableEq, Repr

def FlagError.message : FlagError → Bytes
  | badForm arg => "bad flag syntax: " ++ arg
  | unknown name => "flag provided but not defined: -" ++ name
  | helpAsked => "flag: help requested"
  | noValue name => "flag needs an argument: -" ++ name
  | badSwitch name value cause =>
    "invalid boolean value " ++ Text.quoted value ++ " for -" ++ name ++ ": " ++ cause.message
  | badValue name value cause =>
    "invalid value " ++ Text.quoted value ++ " for flag -" ++ name ++ ": " ++ cause.message

namespace Flag

def name : Flag → Bytes
  | verbose => "v"
  | includeDir => "I"
  | prelude => "prelude"
  | noCache => "no-cache"
  | maxSteps => "max-steps"
  | out => "o"
  | standalone => "standalone"

/-- The flags of all commands. -/
def common : List Flag := [verbose, includeDir, prelude, noCache]

/-- A switch needs no value. -/
def isSwitch : Flag → Bool
  | verbose => true
  | noCache => true
  | standalone => true
  | _ => false

def bool? (s : Bytes) : Option Bool :=
  if ["1", "t", "T", "TRUE", "true", "True"].any (Bytes.ofString · = s) then some true
  else if ["0", "f", "F", "FALSE", "false", "False"].any (Bytes.ofString · = s) then some false
  else none

def digit? (base : Nat) (b : UInt8) : Option Nat :=
  let n := b.toNat
  let d :=
    if 48 ≤ n && n ≤ 57 then n - 48
    else if 97 ≤ n && n ≤ 122 then n - 87
    else if 65 ≤ n && n ≤ 90 then n - 55
    else base
  if d < base then some d else none

/-- The value of digits in a base. Underscores are passed over, and a number that leaves 64 bits is
out of range whatever follows. -/
def digits (base : Nat) : (value : Nat) → Bytes → Except FlagValueError Nat
  | value, [] => .ok value
  | value, b :: rest =>
    if b = 95 then digits base value rest
    else
      match digit? base b with
      | none => .error .malformed
      | some d =>
        let value := value * base + d
        if value < 0x10000000000000000 then digits base value rest else .error .outOfRange

/-- Underscores stand between digits; the lead of a base counts as one. -/
def underscoresOk : (afterDigit : Bool) → Bytes → Bool
  | _, [] => true
  | afterDigit, b :: rest =>
    if b = 95 then afterDigit && !rest.isEmpty && rest.head? ≠ some 95 && underscoresOk false rest
    else underscoresOk true rest

/-- The base that a number is written in, and its digits. A zero in front stands for base eight. -/
def based (s : Bytes) : Nat × Bytes :=
  match s with
  | 48 :: b :: c :: rest =>
    if b = 98 || b = 66 then (2, c :: rest)
    else if b = 111 || b = 79 then (8, c :: rest)
    else if b = 120 || b = 88 then (16, c :: rest)
    else (8, b :: c :: rest)
  | 48 :: rest => (8, rest)
  | s => (10, s)

/-- A number without its sign. -/
def magnitude (s : Bytes) : Except FlagValueError Nat := do
  if s.isEmpty then throw .malformed
  let (base, ds) := based s
  let n ← digits base 0 ds
  if ds.any (· = 95) && !underscoresOk (ds.length < s.length) ds then throw .malformed
  return n

/-- A number of 64 bits in any of the usual notations. -/
def number (s : Bytes) : Except FlagValueError Int := do
  let (negative, body) :=
    match s with
    | 45 :: rest => (true, rest)
    | 43 :: rest => (false, rest)
    | s => (false, s)
  let n ← magnitude body
  if n ≤ Decimal.maxMagnitude negative then return if negative then -n else n
  else throw .outOfRange

/-- What giving a value to a flag does. The bare switch for more messages counts up. -/
def set (f : Flag) (value : Bytes) (v : FlagValues) : Except FlagValueError FlagValues :=
  let switch (put : Bool → FlagValues) : Except FlagValueError FlagValues :=
    match bool? value with
    | some b => .ok (put b)
    | none => .error .malformed
  match f with
  | verbose =>
    if value = Bytes.ofString "true" then .ok { v with verbose := v.verbose + 1 }
    else
      match Decimal.readSigned? value with
      | some n => .ok { v with verbose := n.toInt }
      | none => .error (.badVerbosity value)
  | includeDir => .ok { v with includeDirs := v.includeDirs ++ [value] }
  | prelude => .ok { v with preludes := v.preludes ++ [value] }
  | noCache => switch fun b => { v with noCache := b }
  | maxSteps => (number value).map fun n => { v with maxSteps := n }
  | out => .ok { v with out := value }
  | standalone => switch fun b => { v with standalone := b }

end Flag

namespace FlagValues

/-- The name of a flag and the value behind its equals sign; the sign is not the first character. -/
def cut (arg : Bytes) : Bytes × Option Bytes :=
  let tail := arg.drop 1
  let lead := arg.take 1 ++ tail.takeWhile (· ≠ 61)
  match tail.dropWhile (· ≠ 61) with
  | [] => (lead, none)
  | _ :: value => (lead, some value)

/-- The text of a flag without its dashes; none for other arguments. -/
def flagText? (arg : Bytes) : Option Bytes :=
  match arg with
  | 45 :: 45 :: rest => some rest
  | 45 :: b :: rest => some (b :: rest)
  | _ => none

def helpNames : List Bytes := [Bytes.ofString "h", Bytes.ofString "help"]

def lookup (flags : List Flag) (name : Bytes) : Except FlagError Flag :=
  match flags.find? fun f => f.name = name with
  | some f => .ok f
  | none => .error (if name ∈ helpNames then .helpAsked else .unknown name)

def setSwitch (f : Flag) (value : Option Bytes) (v : FlagValues) : Except FlagError FlagValues :=
  let value := value.getD (Bytes.ofString "true")
  match f.set value v with
  | .ok v => .ok v
  | .error e => .error (.badSwitch f.name value e)

def setValue (f : Flag) (value : Bytes) (v : FlagValues) : Except FlagError FlagValues :=
  match f.set value v with
  | .ok v => .ok v
  | .error e => .error (.badValue f.name value e)

/-- Reads the flags in front of the arguments, and gives the other arguments. -/
def parse (flags : List Flag) (v : FlagValues) : List Bytes → Except FlagError (FlagValues × List Bytes)
  | [] => .ok (v, [])
  | arg :: rest =>
    match flagText? arg with
    | none => .ok (v, arg :: rest)
    | some [] => .ok (v, rest)
    | some text =>
      if text.head? = some 45 || text.head? = some 61 then .error (.badForm arg)
      else
        let (name, value) := cut text
        match lookup flags name with
        | .error e => .error e
        | .ok f =>
          if f.isSwitch then
            match setSwitch f value v with
            | .error e => .error e
            | .ok v => parse flags v rest
          else
            match value, rest with
            | some value, rest =>
              match setValue f value v with
              | .error e => .error e
              | .ok v => parse flags v rest
            | none, [] => .error (.noValue name)
            | none, value :: rest =>
              match setValue f value v with
              | .error e => .error e
              | .ok v => parse flags v rest

end FlagValues

end UnitScript
