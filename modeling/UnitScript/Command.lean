import UnitScript.Code.Listing
import UnitScript.Command.Session
import UnitScript.Machine.Run
import UnitScript.Syntax.Outline

/-!
# Commands

What the program does with its arguments: it compiles and runs files, writes units, and prints
listings and syntax trees. A command is a function of the world, the arguments and the standard
input.
-/

namespace UnitScript

/-- What a command leaves behind. -/
structure Outcome where
  /-- The exit status, below 256. -/
  status : Nat := 0
  output : Bytes := []
  /-- Why there is no log. -/
  notice : Bytes := []
  errors : Bytes := []
  log : List LogEntry := []
  world : World

namespace Command

def version : Bytes := Bytes.ofString "myst 0.1.0\n"

def usage : Bytes := Bytes.ofString "myst compiler

Usage:
  myst run [-v] [-I dir] [-prelude file] <file.myst|file.mystc>
  myst build [-o out.mystc] [-I dir] [-prelude file] <file.myst>
  myst dump <file.myst|file.mystc>
  myst ast <file.myst>

Commands:
  version  Print the myst version
  run      Compile and run .myst source or run a .mystc unit
  build    Compile .myst source into a .mystc unit
  dump     Print the instruction listing of a unit
  ast      Print the parsed syntax tree

Common flags:
  -v        Increase log verbosity (repeatable)
  -I        Add an include directory (repeatable)
  -prelude  Add a prelude manifest, TOML or YAML (repeatable)
  -no-cache Do not use the compiled-unit cache
"

/-- A command that fails. A log file that cannot be opened is no matter of the command itself. -/
def fail (w : World) : CommandError → Outcome
  | .log e => { status := 1, notice := (CommandError.log e).message ++ "\n", world := w }
  | e => { status := 1, errors := "error: " ++ e.message ++ "\n", world := w }

/-- Reads the flags of a command and its input file. -/
def readArgs (name : Bytes) (flags : List Flag) (args : List Bytes) :
    Except CommandError (FlagValues × Path) :=
  match FlagValues.parse flags {} args with
  | .error e => .error (.flag e)
  | .ok (_, []) => .error (.noInput name)
  | .ok (values, input :: _) => .ok (values, input)

/-- Starts a session and compiles or reads the input file. -/
def withUnit (w : World) (flags : FlagValues) (input : Path)
    (act : Session → CodeUnit → Outcome) : Outcome :=
  match Session.start w flags input with
  | .error e => fail w e
  | .ok s =>
    match s.unit input with
    | (.error e, s) => { fail s.finish e with log := s.loader.log }
    | (.ok u, s) => { act s u with log := s.loader.log }

/-- The printed result of a run, and the exit status that it implies. -/
def report (heap : Heap) (v : Value) : Bytes × Nat :=
  match v with
  | .null => ([], 0)
  | .int n => (v.text heap ++ "\n", (n.toInt % 256).toNat)
  | v => (v.text heap ++ "\n", 0)

def runUnit (flags : FlagValues) (input : Path) (stdin : Bytes) (s : Session) (u : CodeUnit) : Outcome :=
  let u := if Path.extension input = Loader.sourceExtension then u.declareScratch s.config.scratch else u
  let m := Machine.ofUnit u (some { input := stdin })
  let (ending, m) := m.run { steps := flags.maxSteps } u
  let output : Bytes := (m.console.map fun c => c.output.toList).getD []
  match ending with
  | .value v =>
    let (text, status) := report m.heap v
    { status, output := output ++ text, world := s.finish }
  | .error e => { fail s.finish (.run e) with output }
  | .outOfFuel => { fail s.finish .unfinished with output }

def run (w : World) (args : List Bytes) (stdin : Bytes) : Outcome :=
  match readArgs (Bytes.ofString "run") (.maxSteps :: Flag.common) args with
  | .error e => fail w e
  | .ok (flags, input) => withUnit w flags input (runUnit flags input stdin)

/-- Writes a unit to a file, which is there even if the unit cannot be encoded. -/
def writeUnit (w : World) (out : Path) (u : CodeUnit) : Outcome :=
  match u.encode with
  | .ok s =>
    match w.files.write out s with
    | .error e => fail w (.notWritable e)
    | .ok files => { world := { w with files } }
  | .error cause =>
    match w.files.write out [] with
    | .error e => fail w (.notWritable e)
    | .ok files => fail { w with files } (.notEncodable cause)

def build (w : World) (args : List Bytes) : Outcome :=
  match readArgs (Bytes.ofString "build") ([.out, .standalone] ++ Flag.common) args with
  | .error e => fail w e
  | .ok (flags, input) =>
    if Path.extension input ≠ Loader.sourceExtension then fail w .notSource
    else
      let out :=
        if flags.out.isEmpty then Path.dropTail Loader.sourceExtension input ++ Loader.unitExtension
        else flags.out
      withUnit w flags input fun s u =>
        writeUnit s.finish out (if flags.standalone then u.declareScratch s.config.scratch else u)

def dump (w : World) (args : List Bytes) : Outcome :=
  match readArgs (Bytes.ofString "dump") Flag.common args with
  | .error e => fail w e
  | .ok (flags, input) =>
    withUnit w flags input fun s u => { output := u.listing, world := s.finish }

/-- Prints the syntax tree of a source file, whatever its name. -/
def showTree (w : World) : List Bytes → Outcome
  | [] => fail w (.noInput "ast")
  | input :: _ =>
    match Loader.readSource w.files input with
    | .error f => fail w (.fault f)
    | .ok (_, body) => { output := (Node.program body).outline, world := w }

/-- Carries out the command that the arguments ask for. -/
def execute (w : World) (args : List Bytes) (stdin : Bytes) : Outcome :=
  match args with
  | [] => { status := 1, output := usage, world := w }
  | name :: args =>
    let isNamed (names : List String) : Bool := names.any (Bytes.ofString · = name)
    if isNamed ["run"] then run w args stdin
    else if isNamed ["build"] then build w args
    else if isNamed ["dump"] then dump w args
    else if isNamed ["ast"] then showTree w args
    else if isNamed ["help", "-h", "--help"] then { output := usage, world := w }
    else if isNamed ["version", "--version"] then { output := version, world := w }
    else
      { status := 1, output := usage, errors := "unknown command: " ++ name ++ "\n", world := w }

end Command

end UnitScript
