import UnitScript.Toml.Document
import UnitScript.Toml.Parser

/-!
# Reading settings

A schema says which keys a document may have and what their values do to a record of settings. Case
does not matter in the names of the keys.
-/

namespace UnitScript.Toml

inductive Schema (σ : Type) where
  /-- A value, with what it does to the settings; none if it has the wrong type. -/
  | leaf (put : Value → σ → Option σ)
  | group (fields : List (Name × Schema σ))
  /-- A table of strings under any names. -/
  | strings (put : List (Name × Bytes) → σ → σ)

inductive ReadError where
  /-- The text is malformed, or a value has the wrong type. -/
  | malformed
  | unknownKey (key : Key)
  deriving DecidableEq, Repr

/-- A character with case taken away, as far as ASCII letters can match it. -/
def foldCase (c : Char) : Char :=
  if c.toNat = 0x17F then 's' else if c.toNat = 0x212A then 'k' else c.toLower

def sameName (a b : Name) : Bool := (Utf8.decode a).map foldCase == (Utf8.decode b).map foldCase

namespace Schema

variable {σ : Type}

/-- The field with exactly this name, or else one whose name differs in case only. -/
def field? (fields : List (Name × Schema σ)) (k : Name) : Option (Schema σ) :=
  match fields.find? fun f => f.1 = k with
  | some f => some f.2
  | none => (fields.find? fun f => sameName f.1 k).map (·.2)

def string? : Value → Option Bytes
  | .string s => some s
  | _ => none

/-- Settings from single values. -/
def string (put : Bytes → σ → σ) : Schema σ := .leaf fun v c => (string? v).map (put · c)

def bool (put : Bool → σ → σ) : Schema σ :=
  .leaf fun v c =>
    match v with
    | .bool b => some (put b c)
    | _ => none

def int (put : Int → σ → σ) : Schema σ :=
  .leaf fun v c =>
    match v with
    | .int n => some (put n c)
    | _ => none

def stringList (put : List Bytes → σ → σ) : Schema σ :=
  .leaf fun v c =>
    match v with
    | .array items => (items.mapM string?).map (put · c)
    | _ => none

/-- The entries of a table of strings; what is no table has none. -/
def stringEntries : Value → Option (List (Name × Bytes))
  | .table entries => entries.mapM fun e => (string? e.2).map (e.1, ·)
  | _ => some []

mutual

def read (s : Schema σ) : Value → σ → Option σ
  | .table entries, c =>
    match s with
    | .leaf put => put (.table entries) c
    | .group fields => readEntries fields entries c
    | .strings put => (stringEntries (.table entries)).map (put · c)
  | v, c =>
    match s with
    | .leaf put => put v c
    | .group _ => none
    | .strings put => (stringEntries v).map (put · c)

/-- Entries that the schema does not know are left alone. -/
def readEntries (fields : List (Name × Schema σ)) : List (Name × Value) → σ → Option σ
  | [], c => some c
  | (k, v) :: rest, c =>
    match field? fields k with
    | none => readEntries fields rest c
    | some s => do readEntries fields rest (← read s v c)

end

/-- Whether reading `v` makes use of what is under a key. -/
def uses (s : Schema σ) (v : Value) : Key → Bool
  | [] => true
  | k :: rest =>
    match s, v with
    | .group fields, .table entries =>
      match field? fields k, Table.find? entries k with
      | some s, some v => uses s v rest
      | _, _ => false
    | .strings _, .table entries => rest = [] && (Table.find? entries k).isSome
    | _, _ => false

/-- Reads a settings file; every key in it must be of use. -/
def readFile (s : Schema σ) (text : Bytes) (c : σ) : Except ReadError σ :=
  match (parse text).bind Document.ofLines with
  | none => .error .malformed
  | some doc =>
    match s.read (.table doc.root) c with
    | none => .error .malformed
    | some c =>
      match doc.keys.find? fun k => !s.uses (.table doc.root) k with
      | some k => .error (.unknownKey k)
      | none => .ok c

end Schema

end UnitScript.Toml
