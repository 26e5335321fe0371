import UnitScript.Cache.Store
import UnitScript.Hazard

/-!
# The log of a loader
-/

namespace UnitScript

inductive LogLevel where
  | warning
  | debug
  deriving DecidableEq, Repr

def LogLevel.text : LogLevel → Bytes
  | warning => "warning"
  | debug => "debug"

inductive LogEntry where
  | hazard (path : Path) (h : Hazard)
  | hit (name : Name) (id : BuildId)
  | discarded (name : Name) (cause : StaleError)
  | lookupFailed (name : Name) (cause : StoreError)
  | notEncoded (name : Name) (cause : UnitEncodeError)
  | notStored (name : Name) (cause : StoreError)
  | loaded (name : Name) (path : Path) (exports : Nat)

namespace LogEntry

def level : LogEntry → LogLevel
  | hit .. => .debug
  | loaded .. => .debug
  | _ => .warning

/-- The message; `idText` writes build ids. -/
def text (idText : BuildId → Bytes) : LogEntry → Bytes
  | hazard path h => path ++ ":" ++ h.text
  | hit name id => "cache hit for " ++ name ++ " (build " ++ idText id ++ ")"
  | discarded name cause => "discarding cached " ++ name ++ ": " ++ cause.message
  | lookupFailed name cause => "cache lookup for " ++ name ++ " failed: " ++ cause.message
  | notEncoded name cause => "caching " ++ name ++ " failed: " ++ cause.message
  | notStored name cause => "caching " ++ name ++ " failed: " ++ cause.message
  | loaded name path exports =>
    "loaded " ++ name ++ " from " ++ path ++ " (" ++ Bytes.ofNat exports ++ " exports)"

end LogEntry

end UnitScript
