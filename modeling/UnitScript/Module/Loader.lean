import UnitScript.Hazard.Report
import UnitScript.Lowering.Compile
import UnitScript.Module.Imports
import UnitScript.Module.Log
import UnitScript.Syntax.Parser

/-!
# Loading modules

A loader finds modules by their dotted names, compiles them with all that they import, and keeps the
units. The imports at the top level of a module are loaded before it is compiled, so that their
exports are known. An import further inside is loaded when compilation comes to it: the compiler then
reports that the unit is not at hand, and is started again once it is.

A store, if there is one, provides units that were compiled before from the same inputs.
-/

namespace UnitScript

structure LoaderSettings where
  /-- The folders in which modules are looked for, in order. -/
  includeDirs : List Path := []
  /-- The kinds of the names from outside of all modules. -/
  prelude : Prelude := .empty
  /-- Modules that every entry file imports. -/
  stdImports : List Name := []
  scratch : Scratch := {}

structure Loader where
  settings : LoaderSettings
  files : FileTree
  store : Option UnitStore := none
  units : NameMap CodeUnit := .empty
  /-- The modules that are being loaded. -/
  loading : List Name := []
  /-- The loaded modules in the order of completion. -/
  order : List Name := []
  log : List LogEntry := []
  /-- The id of the next unit that is stored. -/
  nextId : Nat := 0

/-- What is done to a loader is kept when an action fails. -/
abbrev Load := ExceptT IncludeError (StateM Loader)

namespace Loader

def sourceExtension : Name := Bytes.ofString ".myst"

def unitExtension : Name := Bytes.ofString ".mystc"

/-- The places of a module in a folder: a unit, a source file, and a source file in a folder of its
own. -/
def candidates (name : Name) (dir : Path) : List Path :=
  let parts := Bytes.splitOn 46 name
  let relative := Path.join parts
  [Path.join [dir, relative ++ unitExtension], Path.join [dir, relative ++ sourceExtension],
    Path.join [dir, relative, parts.getLastD [] ++ sourceExtension]]

/-- The file of a module. -/
def find (l : Loader) (name : Name) : Except ModuleFault Path :=
  if name.isEmpty then .error .emptyName
  else
    let tried := l.settings.includeDirs.flatMap (candidates name)
    match tried.find? l.files.hasFile with
    | some path => .ok path
    | none => .error (.notFound name tried)

/-- Reads a unit from its file. -/
def readUnit (files : FileTree) (path : Path) : Except ModuleFault CodeUnit :=
  match files.read path with
  | .error e => .error (.unreadableUnit path e)
  | .ok s =>
    match CodeUnit.decode s with
    | .error e => .error (.badUnit path e)
    | .ok u => .ok u

/-- Reads a program from its source file; the source comes along. -/
def readSource (files : FileTree) (path : Path) : Except ModuleFault (Bytes × List Node) :=
  match files.read path with
  | .error e => .error (.unreadableSource path e)
  | .ok source =>
    match Program.ofSource source with
    | (body, []) => .ok (source, body)
    | (_, messages) => .error (.badSource path messages)

def noteAll (es : List LogEntry) : Load Unit := modify fun l => { l with log := l.log ++ es }

def note (e : LogEntry) : Load Unit := noteAll [e]

def orFault {α : Type} (r : Except ModuleFault α) : Load α :=
  match r with
  | .ok a => return a
  | .error f => throw (.fault f)

/-- Names the place of an error. -/
def within {α : Type} (place : Bytes) (act : Load α) : Load α :=
  tryCatch act fun e => throw (.within place e)

/-- Marks a module as being loaded for the time of an action. -/
def whileLoading {α : Type} (name : Name) (act : Load α) : Load α := do
  modify fun l => { l with loading := name :: l.loading }
  let unmark : Load Unit := modify fun l => { l with loading := l.loading.filter (· ≠ name) }
  let a ← tryCatch act fun e => do
    unmark
    throw e
  unmark
  return a

/-- A unit as an import: it comes with its digest if there is a store. -/
def digested (name : Name) (u : CodeUnit) : Load (CodeUnit × List Bytes) := do
  match (← get).store with
  | none => return (u, [])
  | some store =>
    match u.digestBy store.hash with
    | .ok d => return (u, [name ++ "@" ++ d])
    | .error e => throw (.fault (.noDigest e))

/-- What the imports of a program provide: the kinds of their exports, and their digests if there is
a store. -/
def loadImports (load : Name → Load CodeUnit) (path : Path) :
    (prelude : Prelude) → List Name → Load (Prelude × List Bytes)
  | prelude, [] => return (prelude, [])
  | prelude, name :: rest => do
    let (u, digest) ← within (path ++ ": import " ++ name) (load name >>= digested name)
    let (prelude, deps) ← loadImports load path (prelude.merge u.exports) rest
    return (prelude, digest ++ deps)

/-- The unit under a key of the store, if it may be used. -/
def fromStore (name key : Bytes) (deps : List Bytes) : Load (Option CodeUnit) := do
  match (← get).store with
  | none => return none
  | some store =>
    match store.get key with
    | .error .notFound => return none
    | .error e =>
      note (.lookupFailed name e)
      return none
    | .ok a =>
      match a.check deps >>= fun _ => a.unit with
      | .error e =>
        note (.discarded name e)
        return none
      | .ok u =>
        note (.hit name a.buildId)
        return some u

/-- Puts a unit into the store. Failing to do so is no error. -/
def toStore (name key : Bytes) (u : CodeUnit) (path : Path) (deps : List Bytes) : Load Unit := do
  let l ← get
  match l.store with
  | none => return ()
  | some store =>
    match Artifact.ofUnit (.ofNat l.nextId) key u path deps with
    | .error e => note (.notEncoded name e)
    | .ok a =>
      match store.put a with
      | .error e => note (.notStored name e)
      | .ok store => set { l with store := some store, nextId := l.nextId + 1 }

/-- The units at hand as a source of imports. -/
def includer (units : NameMap CodeUnit) (name : Name) : Except IncludeError CodeUnit :=
  match units.get? name with
  | some u => .ok u
  | none => .error (.notLoaded name)

end Loader

namespace CompileFailure

/-- The import that is not at hand, and its place. -/
def missingImport? : CompileFailure → Option (Position × Name)
  | .error (.mk _ pos _ (.inclusion (.notLoaded name))) => some (pos, name)
  | _ => none

def asImport : CompileFailure → IncludeError
  | .error e => .compile e
  | .scratch e => .fault (.scratch e)
  | e => .note e.message

end CompileFailure

namespace Loader

/-- Compiles a program. Every failure for lack of an import is followed by loading it, so `rounds`
need not be more than the number of imports. -/
def lower (load : Name → Load CodeUnit) (o : CompileOptions) (body : List Node) :
    (rounds : Nat) → Load CodeUnit
  | 0 => throw (.fault .unfinished)
  | rounds + 1 => do
    match CodeUnit.compile { o with includer := some (includer (← get).units) } (.program body) with
    | .ok u => return u
    | .error failure =>
      match failure.missingImport? with
      | none => throw failure.asImport
      | some (pos, name) =>
        let _ ← tryCatch (load name) fun e =>
          throw (.compile (.because .unresolvedSymbol pos (.inclusion e)))
        lower load o body rounds

/-- The unit of a program whose imports are loaded: from the store, or else compiled and stored. -/
def provide (load : Name → Load CodeUnit) (inputs : KeyInputs) (scratch : Scratch) (path : Path)
    (body : List Node) : Load CodeUnit := do
  let key := ((← get).store.map fun store => inputs.keyBy store.hash).getD []
  match ← fromStore inputs.name key inputs.deps with
  | some u => return u
  | none =>
    let options : CompileOptions := { name := inputs.name, prelude := inputs.prelude, scratch }
    let u ← within path (lower load options body ((Node.importsOfAll body).length + 1))
    toStore inputs.name key u path inputs.deps
    return u

/-- Compiles a program that was read from a file. -/
def compileProgram (load : Name → Load CodeUnit) (name : Name) (path : Path) (source : Bytes)
    (body : List Node) : Load CodeUnit := do
  let settings := (← get).settings
  let (prelude, deps) ← loadImports load path settings.prelude (Program.topImports body)
  noteAll ((HazardReport.ofProgram prelude body).hazards.map (.hazard path))
  provide load { name, source, prelude, scratch := settings.scratch.names, deps } settings.scratch
    path body

/-- Compiles a file; an entry file gets the standard imports. -/
def compileAt (load : Name → Load CodeUnit) (isEntry : Bool) (name : Name) (path : Path) :
    Load CodeUnit := do
  let l ← get
  let (source, body) ← orFault (readSource l.files path)
  compileProgram load name path source
    (if isEntry then Program.withImports l.settings.stdImports body else body)

/-- The unit of a module, which is loaded on first use. Nested imports are followed down to `depth`
modules. -/
def loadWithin : (depth : Nat) → Name → Load CodeUnit
  | 0, _ => throw (.fault .unfinished)
  | depth + 1, name => do
    let l ← get
    match l.units.get? name with
    | some u => return u
    | none =>
      if name ∈ l.loading then throw (.fault (.cycle name))
      let path ← orFault (l.find name)
      let u ← whileLoading name <|
        if unitExtension.isSuffixOf path then orFault (readUnit l.files path)
        else compileAt (loadWithin depth) false name path
      modify fun l => { l with units := l.units.insert name u, order := l.order ++ [name] }
      note (.loaded name path u.exports.size)
      return u

/-- More modules than can be imported one by the other: each of them but the first is named in some
file or in the settings. -/
def maxDepth (l : Loader) : Nat := l.files.totalSize + l.settings.stdImports.length + 2

/-- Loads a module. -/
def load (l : Loader) (name : Name) : Except IncludeError CodeUnit × Loader :=
  (loadWithin l.maxDepth name).run.run l

/-- Compiles an entry file. -/
def compileFile (l : Loader) (name : Name) (path : Path) : Except IncludeError CodeUnit × Loader :=
  (compileAt (loadWithin l.maxDepth) true name path).run.run l

/-- The exports of all loaded modules; later ones win. -/
def exports (l : Loader) : Prelude :=
  l.order.foldl (fun p name => p.merge ((l.units.get? name).map (·.exports) |>.getD .empty)) .empty

/-- A loader that has loaded nothing, with the same settings and store. -/
def fresh (l : Loader) : Loader :=
  { settings := l.settings, files := l.files, store := l.store, nextId := l.nextId }

end Loader

end UnitScript
