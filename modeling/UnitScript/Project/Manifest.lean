import UnitScript.File.Tree
import UnitScript.Kind
import UnitScript.Toml.Schema
import UnitScript.Yaml.Parser

/-!
# Prelude manifests

A manifest lists symbols of the surroundings with their kinds. It is a settings file, or structured
text if the name of the file says so.
-/

namespace UnitScript

inductive ManifestError where
  | emptyPath
  | unreadable (path : Path) (cause : FileError)
  | empty (path : Path)
  | malformed (path : Path)
  | unknownKey (path : Path) (key : Toml.Key)
  | badKind (path : Path) (cause : PreludeError)
  | noKind (path : Path) (name : Name)

namespace ManifestError

/-- The message behind the words that all of them start with. -/
def detail : ManifestError → Bytes
  | emptyPath => "empty path"
  | unreadable path cause => "open " ++ path ++ ": " ++ cause.message
  | empty path => path ++ " is empty"
  | malformed path => "parse " ++ path
  | unknownKey path key => path ++ ": unknown key " ++ key.text
  | badKind path cause => path ++ ": " ++ cause.message
  | noKind path name => path ++ ": symbol " ++ Text.quoted name ++ " has no kind"

def message (e : ManifestError) : Bytes := "prelude: " ++ e.detail

end ManifestError

namespace Manifest

/-- Names with the texts of their kinds. -/
abbrev SymbolTexts := NameMap Bytes

def schema : Toml.Schema SymbolTexts :=
  .group [("symbols", .strings fun entries symbols => symbols.merge (NameMap.ofList entries))]

/-- No key may be written twice. -/
def hasTwice : List (Yaml.Node × Yaml.Node) → Bool
  | [] => false
  | e :: rest => (rest.any fun f => f.1.text? = e.1.text?) || hasTwice rest

def isMerge : Yaml.Node → Bool
  | .scalar text isPlain => isPlain && text = [60, 60]
  | .mapping _ => false

/-- The symbols of a mapping; entries with a null key do not count. -/
def symbolEntries : List (Yaml.Node × Yaml.Node) → Option (List (Name × Bytes))
  | [] => some []
  | (key, value) :: rest => do
    if isMerge key then failure
    if key.isNull then symbolEntries rest
    else
      let text ← if value.isNull then some [] else value.text?
      return (← key.text?, text) :: (← symbolEntries rest)

def symbolsOfNode : Yaml.Node → Option (List (Name × Bytes))
  | .mapping entries => if hasTwice entries then none else symbolEntries entries
  | n => if n.isNull then some [] else none

/-- The symbols of the entries of a document, which may only have the one key. -/
def documentEntries : List (Yaml.Node × Yaml.Node) → Option (List (Name × Bytes))
  | [] => some []
  | (key, value) :: rest => do
    if isMerge key then failure
    if key.isNull then documentEntries rest
    else if key.text? = some (Bytes.ofString "symbols") then
      return (← symbolsOfNode value) ++ (← documentEntries rest)
    else none

def ofNode : Yaml.Node → Option (List (Name × Bytes))
  | .mapping entries => if hasTwice entries then none else documentEntries entries
  | n => if n.isNull then some [] else none

def isStructured (path : Path) : Bool :=
  let ext := Bytes.lower (Path.extension path)
  ext = Bytes.ofString ".yml" || ext = Bytes.ofString ".yaml"

def readStructured (path : Path) (text : Bytes) : Except ManifestError SymbolTexts :=
  match Yaml.parse text with
  | .nothing => .error (.empty path)
  | .malformed => .error (.malformed path)
  | .node n =>
    match ofNode n with
    | none => .error (.malformed path)
    | some entries => .ok (NameMap.ofList entries)

def readSettings (path : Path) (text : Bytes) : Except ManifestError SymbolTexts :=
  match schema.readFile text .empty with
  | .error .malformed => .error (.malformed path)
  | .error (.unknownKey key) => .error (.unknownKey path key)
  | .ok symbols => .ok symbols

/-- Reads the kinds of the symbols; each must have one. -/
def kindsOf (path : Path) (symbols : SymbolTexts) : Except ManifestError Prelude :=
  match Prelude.parse symbols.entries with
  | .error e => .error (.badKind path e)
  | .ok p =>
    match p.entries.find? fun e => e.2.tag = .undefined with
    | some e => .error (.noKind path e.1)
    | none => .ok p

/-- Reads one manifest. -/
def load (files : FileTree) (path : Path) : Except ManifestError Prelude := do
  if path.isEmpty then throw .emptyPath
  match files.read path with
  | .error e => throw (if e.fault = .isFolder then .malformed path else .unreadable path e)
  | .ok text =>
    kindsOf path (← if isStructured path then readStructured path text else readSettings path text)

/-- Adds the symbols of manifests one after the other; later ones win. -/
def loadAll (files : FileTree) (base : Prelude) : List Path → Except ManifestError Prelude
  | [] => .ok base
  | path :: rest => do loadAll files (base.merge (← load files path)) rest

end Manifest

end UnitScript
