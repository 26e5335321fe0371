import UnitScript.Command.Flags
import UnitScript.Command.World
import UnitScript.Machine.Builtin
import UnitScript.Machine.State
import UnitScript.Module.Loader
import UnitScript.Project.Config
import UnitScript.Project.Manifest

/-!
# Sessions

What a command needs to compile an input file: the settings of the project around it, and a loader.
-/

namespace UnitScript

/-- Why a command fails. -/
inductive CommandError where
  | flag (e : FlagError)
  | noInput (command : Bytes)
  | config (e : ConfigError)
  /-- The log file cannot be opened. -/
  | log (e : FileError)
  | manifest (e : ManifestError)
  | fault (f : ModuleFault)
  | load (e : IncludeError)
  | unreadableUnit (e : FileError)
  | badUnit (e : DecodeError)
  | unsupported (ext : Name)
  | notSource
  | run (e : RunError)
  | unfinished
  | notEncodable (e : EncodeError)
  | notWritable (e : FileError)

def CommandError.message : CommandError → Bytes
  | flag e => e.message
  | noInput command => command ++ ": missing input file"
  | config e => e.message
  | log e => "log file error: " ++ e.message
  | manifest e => e.message
  | fault f => f.message
  | load e => e.message
  | unreadableUnit e => "failed to read unit: " ++ e.message
  | badUnit e => "failed to read unit: " ++ e.message
  | unsupported ext =>
    "unsupported file extension " ++ Text.quoted ext ++ " (use " ++ Loader.sourceExtension ++ " or " ++
      Loader.unitExtension ++ ")"
  | notSource => "build: input must be a " ++ Loader.sourceExtension ++ " source file"
  | run e => e.message
  | unfinished => "computation too long"
  | notEncodable e => "failed to write unit: " ++ e.message
  | notWritable e => "failed to write unit: " ++ e.message

structure Session where
  config : ProjectConfig
  loader : Loader
  /-- The store that is open. -/
  target : Option StoreTarget
  world : World

namespace Session

/-- Opens the log file, if the settings name one. -/
def openLog (config : ProjectConfig) (verbosity : Int) (files : FileTree) :
    Except CommandError FileTree :=
  if verbosity < 0 || config.logPath.isEmpty || files.hasFile config.logPath then .ok files
  else
    match files.write config.logPath [] with
    | .error e => .error (.log e)
    | .ok files => .ok files

/-- The settings for an input file. -/
def findConfig (files : FileTree) (dir : Path) : Except CommandError ProjectConfig :=
  match ProjectConfig.find files dir with
  | .error e => .error (.config e)
  | .ok none => .ok (.default dir)
  | .ok (some c) => .ok c

def loadPreludes (files : FileTree) (paths : List Path) : Except CommandError Prelude :=
  match Manifest.loadAll files Builtin.prelude paths with
  | .error e => .error (.manifest e)
  | .ok p => .ok p

/-- Opens the store that the settings name. A store that cannot be opened is done without. -/
def openCache (w : World) (config : ProjectConfig) (flags : FlagValues) :
    World × Option (StoreTarget × UnitStore) :=
  if flags.noCache || config.cacheTarget.isEmpty then (w, none)
  else
    let target := StoreTarget.ofName config.cacheTarget
    match w.openStore target with
    | none => (w, none)
    | some (store, w) => (w, some (target, store))

/-- Starts a session for an input file. -/
def start (w : World) (flags : FlagValues) (input : Path) : Except CommandError Session := do
  let dir := Path.folder (Path.absolute w.files.workDir input)
  let config ← findConfig w.files dir
  let files ← openLog config (verbosityOf flags.verbose config.verbosity) w.files
  let prelude ← loadPreludes files (config.preludePaths ++ flags.preludes)
  let (w, cache) := openCache { w with files } config flags
  let settings : LoaderSettings := {
    includeDirs := flags.includeDirs ++ config.includePaths ++ [dir]
    prelude
    stdImports := config.stdImports
    scratch := config.scratch }
  return {
    config
    loader := { settings, files := w.files, store := cache.map (·.2), nextId := w.nextId }
    target := cache.map (·.1)
    world := w }

/-- The world after a session. -/
def finish (s : Session) : World :=
  let w := { s.world with nextId := s.loader.nextId }
  match s.target, s.loader.store with
  | some target, some store => w.keepStore target store
  | _, _ => w

/-- Compiles a source file or reads a unit. -/
def unit (s : Session) (input : Path) : Except CommandError CodeUnit × Session :=
  let ext := Path.extension input
  if ext = Loader.sourceExtension then
    match s.loader.compileFile (Path.dropTail ext (Path.base input)) input with
    | (.ok u, loader) => (.ok u, { s with loader })
    | (.error e, loader) => (.error (.load e), { s with loader })
  else if ext = Loader.unitExtension then
    match s.world.files.read input with
    | .error e => (.error (.unreadableUnit e), s)
    | .ok text =>
      match CodeUnit.decode text with
      | .error e => (.error (.badUnit e), s)
      | .ok u => (.ok u, s)
  else (.error (.unsupported ext), s)

end Session

end UnitScript
