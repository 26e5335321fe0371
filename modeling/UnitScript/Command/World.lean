import UnitScript.Cache.Store
import UnitScript.File.Tree

/-!
# What commands work on

The files, and the stores of compiled units that earlier commands left behind.
-/

namespace UnitScript

structure World where
  files : FileTree
  /-- What the stores hold, by the paths or addresses of the stores. -/
  stores : NameMap (NameMap StoreRow) := .empty
  /-- Tells the ids of stored units apart. -/
  nextId : Nat := 0

namespace World

/-- Under which name the content of a store is remembered; none if it is not. -/
def storeName? (w : World) : StoreTarget → Option Bytes
  | .file path => if path.isEmpty then none else some (Path.absolute w.files.workDir path)
  | .address text => some text
  | _ => none

/-- Whether an embedded database can be opened at a path: nothing but an earlier one is there. -/
def canHold (w : World) (path : Path) : Bool :=
  match w.files.stat path with
  | .ok (.file content) => content.isEmpty || w.stores.contains (Path.absolute w.files.workDir path)
  | .ok .folder => path.isEmpty
  | .error .notFound => true
  | .error _ => false

/-- Opens a store and makes the folder around its file. Servers are out of reach. -/
def openStore (w : World) (target : StoreTarget) : Option (UnitStore × World) :=
  let found : UnitStore :=
    { rows := ((w.storeName? target).bind w.stores.get?).getD .empty }
  match target with
  | .server _ => none
  | .file path =>
    match w.files.makeFolder (Path.folder path) with
    | none => none
    | some files => if w.canHold path then some (found, { w with files }) else none
  | _ => some (found, w)

/-- Remembers what a store holds. -/
def keepStore (w : World) (target : StoreTarget) (s : UnitStore) : World :=
  match w.storeName? target with
  | none => w
  | some name => { w with stores := w.stores.insert name s.rows }

end World

end UnitScript
