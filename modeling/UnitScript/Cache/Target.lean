import UnitScript.File.Path
import UnitScript.Text.Utf8

/-!
# Where stores are kept

A store of compiled units is named by a text: the address of a database server, or a file of an
embedded database. The two speak slightly different dialects of the query language.
-/

namespace UnitScript

/-- How a kind of database is spoken to. -/
structure Dialect where
  driver : Bytes
  /-- The type of a column of bytes. -/
  blob : Bytes
  /-- Puts a row in place of the one with the same key. -/
  upsert : Bytes
  /-- Whether the places for values in a query are numbered. -/
  numbered : Bool
  deriving DecidableEq, Repr

namespace Dialect

def embedded : Dialect where
  driver := "sqlite"
  blob := "BLOB"
  upsert := "INSERT OR REPLACE INTO units (unit_key, build_id, name, code, meta, created_at) " ++
    "VALUES (?, ?, ?, ?, ?, ?)"
  numbered := false

def server : Dialect where
  driver := "postgres"
  blob := "BYTEA"
  upsert := "INSERT INTO units (unit_key, build_id, name, code, meta, created_at) " ++
    "VALUES (?, ?, ?, ?, ?, ?) ON CONFLICT (unit_key) DO UPDATE SET " ++
    "build_id = EXCLUDED.build_id, name = EXCLUDED.name, code = EXCLUDED.code, " ++
    "meta = EXCLUDED.meta, created_at = EXCLUDED.created_at"
  numbered := true

/-- Numbers the question marks from `n + 1` on. -/
def number (n : Nat) : List Char → Bytes
  | [] => []
  | c :: rest =>
    if c = '?' then "$" ++ Bytes.ofNat (n + 1) ++ number (n + 1) rest
    else String.utf8EncodeChar c ++ number n rest

/-- A query with the places for values written as the dialect asks. -/
def rebind (d : Dialect) (query : Bytes) : Bytes :=
  if d.numbered then number 0 (Utf8.decode query) else query

end Dialect

/-- What the name of a store stands for. -/
inductive StoreTarget where
  /-- A database server. -/
  | server (address : Bytes)
  /-- A file address that the embedded database reads by itself. -/
  | address (text : Bytes)
  /-- A store that is gone when it is closed. -/
  | memory
  | file (path : Path)
  deriving DecidableEq, Repr

namespace StoreTarget

def serverLeads : List Bytes := [Bytes.ofString "postgres://", Bytes.ofString "postgresql://"]

def embeddedLead : Bytes := Bytes.ofString "sqlite:"

def addressLead : Bytes := Bytes.ofString "file:"

def memoryName : Bytes := Bytes.ofString ":memory:"

/-- What the embedded database is asked to open. -/
def ofEmbedded (source : Bytes) : StoreTarget :=
  if addressLead.isPrefixOf source then .address source
  else if source = memoryName then .memory
  else .file source

def ofName (name : Bytes) : StoreTarget :=
  if serverLeads.any (·.isPrefixOf name) then .server name
  else ofEmbedded ((Bytes.dropLead? embeddedLead name).getD name)

def dialect : StoreTarget → Dialect
  | server _ => .server
  | _ => .embedded

/-- What the database itself is given. -/
def source : StoreTarget → Bytes
  | server a => a
  | address a => a
  | memory => memoryName
  | file p => p

/-- Whether what is stored is still there after the store was closed. -/
def isLasting : StoreTarget → Bool
  | memory => false
  | file p => !p.isEmpty
  | _ => true

/-- Whether the name of a store is nothing but the path of a file. -/
def IsPlainFile (name : Bytes) : Prop := ofName name = .file name

instance (name : Bytes) : Decidable (IsPlainFile name) := inferInstanceAs (Decidable (_ = _))

end StoreTarget

end UnitScript
