import UnitScript.File.Path
import UnitScript.NameMap

/-!
# File trees

A snapshot of the files that a program sees. Entries are kept under their clean absolute paths; the
root folder is always there.
-/

namespace UnitScript

inductive FileEntry where
  | file (content : Bytes)
  | folder
  deriving DecidableEq, Repr

/-- Why a path does not lead to what is asked for. -/
inductive FileFault where
  | notFound
  | notFolder
  | isFolder
  | nameTooLong
  | invalid
  deriving DecidableEq, Repr

def FileFault.text : FileFault → Bytes
  | notFound => "no such file or directory"
  | notFolder => "not a directory"
  | isFolder => "is a directory"
  | nameTooLong => "file name too long"
  | invalid => "invalid argument"

/-- An operation on a path that failed. -/
structure FileError where
  operation : Bytes
  path : Path
  fault : FileFault
  deriving DecidableEq, Repr

def FileError.message (e : FileError) : Bytes :=
  e.operation ++ " " ++ e.path ++ ": " ++ e.fault.text

structure FileTree where
  entries : NameMap FileEntry := .empty
  /-- Where relative paths start. -/
  workDir : Path := [Path.slash]

namespace FileTree

/-- The absolute path of a place: the names on the way to it, the last one first. -/
def pathOf (place : List Name) : Path := Path.slash :: Bytes.join [Path.slash] place.reverse

def entry? (t : FileTree) (place : List Name) : Option FileEntry :=
  if place = [] then some .folder else t.entries.get? (pathOf place)

/-- The longest name that a file may have. -/
def maxName : Nat := 255

/-- Follows the parts of a path from a place. Every place that is passed must be a folder; the last
one need not exist. -/
def follow (t : FileTree) (place : List Name) : List Name → Except FileFault (List Name)
  | [] => .ok place
  | part :: rest =>
    match t.entry? place with
    | none => .error .notFound
    | some (.file _) => .error .notFolder
    | some .folder =>
      if part = [] ∨ part = Path.dot then follow t place rest
      else if part = Path.dotDot then follow t place.tail rest
      else if part.length > maxName then .error .nameTooLong
      else follow t (part :: place) rest

/-- The place that a path leads to. -/
def locate (t : FileTree) (p : Path) : Except FileFault (List Name) :=
  if p = [] then .error .notFound
  else if p.any (· = 0) then .error .invalid
  else follow t [] (Path.parts (if Path.isAbsolute p then p else t.workDir ++ [Path.slash] ++ p))

def stat (t : FileTree) (p : Path) : Except FileFault FileEntry :=
  match t.locate p with
  | .error e => .error e
  | .ok place =>
    match t.entry? place with
    | none => .error .notFound
    | some e => .ok e

/-- Whether there is a file, and not a folder, at a path. -/
def hasFile (t : FileTree) (p : Path) : Bool :=
  match t.stat p with
  | .ok (.file _) => true
  | _ => false

/-- Whether there is anything at a path. -/
def exists? (t : FileTree) (p : Path) : Bool := (t.stat p).toOption.isSome

/-- The content of a file. -/
def read (t : FileTree) (p : Path) : Except FileError Bytes :=
  match t.stat p with
  | .error e => .error ⟨Bytes.ofString "open", p, e⟩
  | .ok .folder => .error ⟨Bytes.ofString "read", p, .isFolder⟩
  | .ok (.file content) => .ok content

/-- Writes a file into a folder that is there. -/
def write (t : FileTree) (p : Path) (content : Bytes) : Except FileError FileTree :=
  match t.locate p with
  | .error e => .error ⟨Bytes.ofString "open", p, e⟩
  | .ok place =>
    match t.entry? place with
    | some .folder => .error ⟨Bytes.ofString "open", p, .isFolder⟩
    | _ => .ok { t with entries := t.entries.insert (pathOf place) (.file content) }

/-- Adds the folders on the way along `parts`, unless a file is in the way. -/
def addFolders (t : FileTree) (place : List Name) : List Name → Option FileTree
  | [] => some t
  | part :: rest =>
    if part = [] ∨ part = Path.dot then addFolders t place rest
    else if part = Path.dotDot then addFolders t place.tail rest
    else
      match t.entry? (part :: place) with
      | some (.file _) => none
      | some .folder => addFolders t (part :: place) rest
      | none =>
        addFolders { t with entries := t.entries.insert (pathOf (part :: place)) .folder }
          (part :: place) rest

/-- Makes a folder and those around it. -/
def makeFolder (t : FileTree) (p : Path) : Option FileTree :=
  t.addFolders [] (Path.parts (Path.absolute t.workDir p))

/-- Writes a file and makes the folders around it. -/
def place (t : FileTree) (p : Path) (content : Bytes) : FileTree :=
  match t.makeFolder (Path.folder (Path.absolute t.workDir p)) with
  | none => t
  | some t => (t.write p content).toOption.getD t

/-- Takes away a file, or a folder with all that is in it. -/
def remove (t : FileTree) (p : Path) : FileTree :=
  let gone := Path.absolute t.workDir p
  { t with
    entries := (t.entries.names.filter fun q =>
      q = gone || (gone ++ [Path.slash]).isPrefixOf q).foldl NameMap.erase t.entries }

/-- The number of bytes in all files. -/
def totalSize (t : FileTree) : Nat :=
  t.entries.entries.foldl (fun n e =>
    match e.2 with
    | .file content => n + content.length
    | .folder => n) 0

end FileTree

end UnitScript
