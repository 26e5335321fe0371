import UnitScript.Code.Scratch
import UnitScript.File.Tree
import UnitScript.Toml.Schema

/-!
# Project settings

A project may have a settings file in its folder. Relative paths in it start in that folder.
-/

namespace UnitScript

structure ProjectConfig where
  name : Bytes := []
  entry : Bytes := []
  includeDirs : List Path := []
  preludes : List Path := []
  /-- Modules that every entry file imports. -/
  stdImports : List Name := []
  scratch : Scratch := {}
  cacheEnabled : Bool := false
  /-- The name of the store of compiled units. -/
  cacheName : Bytes := []
  verbosity : Int := 0
  logFile : Path := []
  /-- The folder of the project. -/
  dir : Path := []

inductive ConfigError where
  | unreadable (path : Path) (cause : FileError)
  | malformed (path : Path)
  | unknownKey (path : Path) (key : Toml.Key)
  | scratch (path : Path) (cause : ScratchError)

def ConfigError.message : ConfigError → Bytes
  | unreadable path cause => "cannot read " ++ path ++ ": " ++ cause.message
  | malformed path => "parse error in " ++ path
  | unknownKey path key => path ++ ": unknown key " ++ key.text
  | scratch path cause => path ++ ": " ++ cause.message

namespace ProjectConfig

def fileName : Name := Bytes.ofString "myst.toml"

open Toml (Schema)

def scratchSchema : Schema ProjectConfig :=
  .group [
    ("primary", .string fun s c => { c with scratch := { c.scratch with primary := s } }),
    ("secondary", .string fun s c => { c with scratch := { c.scratch with secondary := s } }),
    ("aggregate", .string fun s c => { c with scratch := { c.scratch with aggregate := s } }),
    ("struct", .string fun s c => { c with scratch := { c.scratch with struct := s } })]

/-- The keys of a settings file. -/
def schema : Schema ProjectConfig :=
  .group [
    ("project", .group [
      ("name", .string fun s c => { c with name := s }),
      ("entry", .string fun s c => { c with entry := s })]),
    ("compile", .group [
      ("include_dirs", .stringList fun xs c => { c with includeDirs := xs }),
      ("preludes", .stringList fun xs c => { c with preludes := xs }),
      ("std_imports", .stringList fun xs c => { c with stdImports := xs }),
      ("scratch", scratchSchema)]),
    ("cache", .group [
      ("enabled", .bool fun b c => { c with cacheEnabled := b }),
      ("dsn", .string fun s c => { c with cacheName := s })]),
    ("log", .group [
      ("verbosity", .int fun n c => { c with verbosity := n }),
      ("file", .string fun s c => { c with logFile := s })])]

/-- Where units are stored if nothing else is said. -/
def defaultCacheName : Bytes := Bytes.ofString ".myst/cache.db"

def withDefaults (c : ProjectConfig) : ProjectConfig :=
  { c with
    includeDirs := if c.includeDirs.isEmpty then [Path.dot] else c.includeDirs
    cacheName := if c.cacheEnabled && c.cacheName.isEmpty then defaultCacheName else c.cacheName }

/-- The settings of a project without a settings file. -/
def default (dir : Path) : ProjectConfig := ({ dir } : ProjectConfig).withDefaults

/-- Reads the settings file in a folder. -/
def load (files : FileTree) (dir : Path) : Except ConfigError ProjectConfig :=
  let path := Path.join [dir, fileName]
  match files.read path with
  | .error e => .error (.unreadable path e)
  | .ok text =>
    match schema.readFile text {} with
    | .error .malformed => .error (.malformed path)
    | .error (.unknownKey key) => .error (.unknownKey path key)
    | .ok c =>
      let c := { c with dir := Path.absolute files.workDir dir }.withDefaults
      match c.scratch.validate with
      | .error e => .error (.scratch path e)
      | .ok () => .ok c

/-- Reads the nearest settings file in a folder or one around it. -/
def find (files : FileTree) (start : Path) : Except ConfigError (Option ProjectConfig) :=
  match (Path.upwards (Path.absolute files.workDir start)).find? fun dir =>
      files.exists? (Path.join [dir, fileName]) with
  | none => .ok none
  | some dir => (load files dir).map some

/-- A path of the settings, seen from the folder of the project. -/
def resolve (c : ProjectConfig) (p : Path) : Path :=
  if Path.isAbsolute p then p else Path.join [c.dir, p]

def includePaths (c : ProjectConfig) : List Path := c.includeDirs.map c.resolve

def preludePaths (c : ProjectConfig) : List Path := c.preludes.map c.resolve

/-- No path means that messages go to the standard error output. -/
def logPath (c : ProjectConfig) : Path := if c.logFile.isEmpty then [] else c.resolve c.logFile

/-- Whether a name has a colon, but not in front and not behind a slash, a backslash or a dot. -/
def hasScheme (name : Bytes) : Bool :=
  let isEnd (b : UInt8) : Bool := b = 58 || b = 47 || b = 92 || b = 46
  let lead := name.takeWhile fun b => !isEnd b
  !lead.isEmpty && name[lead.length]? = some 58

/-- The name of the store with relative paths resolved; empty if units are not stored. -/
def cacheTarget (c : ProjectConfig) : Bytes :=
  if !c.cacheEnabled then []
  else if Path.isAbsolute c.cacheName || hasScheme c.cacheName then c.cacheName
  else Path.join [c.dir, c.cacheName]

end ProjectConfig

/-- How much is logged: what the command line asks for, or else what the settings say. -/
def verbosityOf (asked configured : Int) : Int := if asked > 0 then asked else configured

end UnitScript
