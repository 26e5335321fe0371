import UnitScript.Cache.BuildId
import UnitScript.Cache.Key
import UnitScript.Cache.Meta
import UnitScript.Cache.Target
import UnitScript.Code.Decoding

/-!
# Stores of compiled units

A store maps keys to compiled units and their descriptions. A closed store refuses every request.
-/

namespace UnitScript

/-- A row as it is kept; nothing is known about what the texts hold. -/
structure StoreRow where
  buildId : Bytes
  name : Name
  code : Bytes
  description : Bytes
  deriving DecidableEq, Repr

/-- A compiled unit for a store or from one. -/
structure Artifact where
  key : Bytes
  buildId : BuildId
  name : Name
  code : Bytes
  description : UnitMeta
  deriving DecidableEq, Repr

structure UnitStore where
  rows : NameMap StoreRow := .empty
  isOpen : Bool := true
  /-- What keys and the digests of units are made with. -/
  hash : Bytes → Bytes := Blake2b.hash

inductive StoreOperation where
  | get
  | put
  | delete
  deriving DecidableEq, Repr

def StoreOperation.text : StoreOperation → Bytes
  | get => "querying"
  | put => "saving"
  | delete => "deleting"

inductive StoreError where
  | unnamed
  | notFound
  | closed (op : StoreOperation) (key : Bytes)
  | badBuildId (key text : Bytes) (cause : BuildIdError)
  | badDescription
  deriving DecidableEq, Repr

def StoreError.message : StoreError → Bytes
  | unnamed => "empty cache DSN"
  | notFound => "artifact not found"
  | closed op key => op.text ++ " artifact " ++ key ++ ": sql: database is closed"
  | badBuildId key text cause =>
    "artifact " ++ key ++ ": bad build id " ++ Text.quoted text ++ ": " ++ cause.message
  | badDescription => "cache: unmarshal meta"

/-- Why a stored unit must not be used. -/
inductive StaleError where
  | format (key found : Bytes)
  | imports (key : Bytes)
  | code (key : Bytes) (cause : DecodeError)
  deriving DecidableEq, Repr

namespace Artifact

/-- The form of encoded units. -/
def format : Bytes := Bytes.ofString "MYS1"

/-- A unit made ready for a store. -/
def ofUnit (id : BuildId) (key : Bytes) (u : CodeUnit) (source : Bytes) (deps : List Bytes) :
    Except UnitEncodeError Artifact := do
  let code ← u.encoded
  return {
    key, buildId := id, name := u.name, code
    description := {
      exports := NameMap.ofList (u.exports.entries.map fun e => (e.1, e.2.text))
      source, data := u.data.length, format, deps } }

/-- Whether the unit has the current form and was compiled against the given imports. -/
def check (a : Artifact) (deps : List Bytes) : Except StaleError Unit :=
  if a.description.format ≠ format then .error (.format a.key a.description.format)
  else if a.description.deps ≠ deps then .error (.imports a.key)
  else .ok ()

/-- The stored unit. -/
def unit (a : Artifact) : Except StaleError CodeUnit :=
  match CodeUnit.decode a.code with
  | .ok u => .ok u
  | .error e => .error (.code a.key e)

end Artifact

def StaleError.message : StaleError → Bytes
  | format key found =>
    "stale artifact: " ++ key ++ " has format " ++ Text.quoted found ++ ", want " ++
      Text.quoted Artifact.format
  | imports key => "stale artifact: " ++ key ++ " was built against different imports"
  | code key cause => "decoding cached unit " ++ key ++ ": " ++ cause.message

namespace StoreRow

def ofArtifact (a : Artifact) : StoreRow :=
  { buildId := a.buildId.text, name := a.name, code := a.code, description := a.description.encode }

def artifact (key : Bytes) (r : StoreRow) : Except StoreError Artifact :=
  match BuildId.parse r.buildId with
  | .error e => .error (.badBuildId key r.buildId e)
  | .ok id =>
    match UnitMeta.decode r.description with
    | none => .error .badDescription
    | some m => .ok { key, buildId := id, name := r.name, code := r.code, description := m }

end StoreRow

namespace UnitStore

def close (s : UnitStore) : UnitStore := { s with isOpen := false }

/-- The store that is found when `target` is opened again. -/
def reopen (s : UnitStore) (target : StoreTarget) : UnitStore :=
  if target.isLasting then { s with isOpen := true } else { hash := s.hash }

def get (s : UnitStore) (key : Bytes) : Except StoreError Artifact :=
  if !s.isOpen then .error (.closed .get key)
  else
    match s.rows.get? key with
    | none => .error .notFound
    | some r => r.artifact key

/-- Stores a unit in place of what was under its key. -/
def put (s : UnitStore) (a : Artifact) : Except StoreError UnitStore :=
  if s.isOpen then .ok { s with rows := s.rows.insert a.key (.ofArtifact a) }
  else .error (.closed .put a.key)

/-- Takes away what is under a key, if there is anything. -/
def delete (s : UnitStore) (key : Bytes) : Except StoreError UnitStore :=
  if s.isOpen then .ok { s with rows := s.rows.erase key } else .error (.closed .delete key)

/-- Changes a row without any of the checks. -/
def alter (s : UnitStore) (key : Bytes) (f : StoreRow → StoreRow) : UnitStore :=
  match s.rows.get? key with
  | none => s
  | some r => { s with rows := s.rows.insert key (f r) }

end UnitStore

end UnitScript
