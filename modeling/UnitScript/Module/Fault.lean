import UnitScript.Code.Decoding
import UnitScript.Code.Encoding
import UnitScript.Code.Scratch
import UnitScript.File.Tree

/-!
# What can go wrong with modules

The reasons, apart from compile errors, for which a module cannot be loaded.
-/

namespace UnitScript

inductive ModuleFault where
  | emptyName
  /-- The module is being loaded already. -/
  | cycle (name : Name)
  | notFound (name : Name) (tried : List Path)
  | unreadableUnit (path : Path) (cause : FileError)
  | badUnit (path : Path) (cause : DecodeError)
  | unreadableSource (path : Path) (cause : FileError)
  | badSource (path : Path) (messages : List Bytes)
  /-- An imported unit that cannot be encoded has no digest. -/
  | noDigest (cause : UnitEncodeError)
  | scratch (cause : ScratchError)
  /-- The bound on nested imports was too small. -/
  | unfinished
  deriving DecidableEq, Repr

namespace ModuleFault

def message : ModuleFault → Bytes
  | emptyName => "empty module name"
  | cycle name => "import cycle detected involving module " ++ Text.quoted name
  | notFound name [] => "cannot find module " ++ Text.quoted name ++ ": no include directories"
  | notFound name tried =>
    "cannot find module " ++ Text.quoted name ++ " (looked for " ++ Bytes.join ", " tried ++ ")"
  | unreadableUnit path cause => "cannot read " ++ path ++ ": " ++ cause.message
  | badUnit path cause => "cannot read " ++ path ++ ": " ++ cause.message
  | unreadableSource path cause => "cannot read file " ++ path ++ ": " ++ cause.message
  | badSource path messages => Bytes.join "\n" (messages.map fun m => path ++ ": " ++ m)
  | noDigest cause => cause.message
  | scratch cause => cause.message
  | unfinished => "imports are nested too deeply"

end ModuleFault

end UnitScript
