import UnitScript.Command

/-!
# The program

The outer layer: it takes a picture of the files that a command may need, lets the command work on the
picture, and carries out what the command left behind. Standard input is read to its end before a
program runs.
-/

namespace UnitScript.Outer

def toPath (s : String) : Path := Bytes.ofString s

def ofPath (p : Path) : String := String.ofList (Utf8.decode p)

/-- Adds a file, if it can be read. -/
def addFile (files : FileTree) (p : Path) : IO FileTree := do
  try
    return files.place p (← IO.FS.readBinFile (ofPath p)).toList
  catch _ => return files

/-- Adds a folder with all that is in it, down to a number of levels. -/
def addTree (files : FileTree) (p : Path) : (levels : Nat) → IO FileTree
  | 0 => return files
  | levels + 1 => do
    let here := (← IO.currentDir) / ofPath p
    if ← here.isDir then
      let mut files := (files.makeFolder p).getD files
      for e in ← here.readDir do
        files ← addTree files (Path.join [p, toPath e.fileName]) levels
      return files
    else addFile files p

def maxLevels : Nat := 32

/-- Adds the settings files in a folder and in those around it. -/
def addSettings (files : FileTree) (dir : Path) : IO FileTree :=
  (Path.upwards dir).foldlM (fun files d => addFile files (Path.join [d, ProjectConfig.fileName])) files

/-- The paths that the settings of a folder lead to. -/
def settingsPaths (files : FileTree) (dir : Path) : List Path :=
  match ProjectConfig.find files dir with
  | .ok (some c) => c.includePaths ++ c.preludePaths
  | _ => []

/-- The files in the working folder and in those that the arguments lead to. -/
def picture (args : List Path) : IO FileTree := do
  let workDir := toPath (← IO.currentDir).toString
  let mut files : FileTree := { workDir }
  files ← addTree files workDir maxLevels
  for p in args.map (Path.absolute workDir) do
    let dir := Path.folder p
    files ← addSettings files dir
    unless (workDir ++ [Path.slash]).isPrefixOf p || dir = [Path.slash] do
      files ← addTree files dir maxLevels
    for q in settingsPaths files dir do
      files ← addTree files q maxLevels
  return files

/-- Writes the files that differ from what they were. -/
def writeChanges (before after : FileTree) : IO Unit := do
  for (p, e) in after.entries.entries do
    match e with
    | .folder => pure ()
    | .file content =>
      unless before.entries.get? p = some e do
        IO.FS.writeBinFile (ofPath p) ⟨content.toArray⟩

def put (stream : IO.FS.Stream) (s : Bytes) : IO Unit := stream.write ⟨s.toArray⟩

partial def readAll (stream : IO.FS.Stream) (sofar : ByteArray) : IO ByteArray := do
  let chunk ← stream.read 65536
  if chunk.isEmpty then return sofar else readAll stream (sofar ++ chunk)

end UnitScript.Outer

open UnitScript in
def main (args : List String) : IO UInt32 := do
  let args := args.map Outer.toPath
  let files ← Outer.picture args.tail
  let input ← if args.head? = some (Bytes.ofString "run") then Outer.readAll (← IO.getStdin) .empty
    else pure .empty
  let r := Command.execute { files } args input.toList
  Outer.writeChanges files r.world.files
  Outer.put (← IO.getStdout) r.output
  let errors ← IO.getStderr
  for e in r.log do
    if e.level = .warning then Outer.put errors (e.text BuildId.text ++ "\n")
  Outer.put errors (r.notice ++ r.errors)
  return UInt32.ofNat r.status
