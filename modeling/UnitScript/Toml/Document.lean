import UnitScript.Toml.Written

/-!
# Documents

The tree of tables that the lines of a settings file build up, and the keys in the order in which
they were written. A table that only the keys of others name may be given its own header once; any
other key may be set once, except that a plain array gives way to what is set later.
-/

namespace UnitScript.Toml

inductive Value where
  | string (s : Bytes)
  | int (n : Int)
  | bool (b : Bool)
  /-- A number with a fraction, a date or a time. -/
  | other
  | array (items : List Value)
  | table (entries : List (Name × Value))
  /-- A list of tables; keys lead into the last one. -/
  | tables (before : List (List (Name × Value))) (last : List (Name × Value))
  deriving Inhabited

abbrev Table := List (Name × Value)

structure Document where
  root : Table := []
  /-- All keys that were written, in order. -/
  keys : List Key := []

namespace Table

def find? (t : Table) (k : Name) : Option Value := (List.find? (fun e => e.1 = k) t).map (·.2)

def set (k : Name) (v : Value) : Table → Table
  | [] => [(k, v)]
  | e :: rest => if e.1 = k then (k, v) :: rest else e :: set k v rest

/-- The table that a key leads to. -/
def follow (t : Table) : Key → Option Table
  | [] => some t
  | k :: rest =>
    match t.find? k with
    | some (.table s) => follow s rest
    | some (.tables _ s) => follow s rest
    | _ => none

/-- Changes the table that a key leads to. -/
def alter (f : Table → Table) (t : Table) : Key → Option Table
  | [] => some (f t)
  | k :: rest => do
    match t.find? k with
    | some (.table s) => return t.set k (.table (← alter f s rest))
    | some (.tables before s) => return t.set k (.tables before (← alter f s rest))
    | _ => none

/-- Sets a value under a dotted key and makes the tables on the way. -/
def setDeep (v : Value) (t : Table) : Key → Option Table
  | [] => none
  | [k] => some (t.set k v)
  | k :: rest => do
    match t.find? k with
    | none => return t.set k (.table (← setDeep v [] rest))
    | some (.table s) => return t.set k (.table (← setDeep v s rest))
    | some _ => none

end Table

/-- What is known while the lines are taken in. -/
structure Progress where
  doc : Document := {}
  /-- The tables that only keys of others name. -/
  implicits : List Key := []
  /-- The keys that hold plain arrays. -/
  arrays : List Key := []

abbrev Build := StateT Progress Option

namespace Build

def addImplicit (k : Key) : Build Unit := modify fun p => { p with implicits := k :: p.implicits }

def removeImplicit (k : Key) : Build Unit :=
  modify fun p => { p with implicits := p.implicits.filter (· ≠ k) }

def addKey (k : Key) : Build Unit :=
  modify fun p => { p with doc := { p.doc with keys := p.doc.keys ++ [k] } }

/-- Notes whether a key holds a plain array. An empty name counts for the table that it is in. -/
def noteArray (context : Key) (k : Name) (isArray : Bool) : Build Unit :=
  let full := if k ≠ [] then context ++ [k] else if context = [] then [[]] else context
  modify fun p =>
    { p with arrays := if isArray then full :: p.arrays else p.arrays.filter (· ≠ full) }

def tableAt (context : Key) : Build Table := do (← get).doc.root.follow context

def alterAt (context : Key) (f : Table → Table) : Build Unit := do
  let p ← get
  set { p with doc := { p.doc with root := ← p.doc.root.alter f context } }

/-- Sets a key that is new, or holds a plain array; an implicit table stays what it is. -/
def setValue (context : Key) (k : Name) (v : Value) : Build Unit := do
  let full := context ++ [k]
  if ((← tableAt context).find? k).isNone then alterAt context (Table.set k v)
  else if full ∈ (← get).arrays then
    removeImplicit full
    alterAt context (Table.set k v)
  else if full ∈ (← get).implicits then removeImplicit full
  else failure

/-- Makes the tables on the way to a key. -/
def addParents (context : Key) : Key → Build Unit
  | [] => return ()
  | k :: rest => do
    if ((← tableAt context).find? k).isNone then
      addImplicit (context ++ [k])
      alterAt context (Table.set k (.table []))
    let _ ← tableAt (context ++ [k])
    addParents (context ++ [k]) rest

/-- Adds one more table to a list of tables. -/
def addToTables (context : Key) (k : Name) : Build Unit := do
  match (← tableAt context).find? k with
  | none => alterAt context (Table.set k (.tables [] []))
  | some (.tables before last) => alterAt context (Table.set k (.tables (before ++ [last]) []))
  | some _ => failure

/-- Opens the table, or the next of the tables, under a key. -/
def openTable (k : Key) (isList : Bool) : Build Unit := do
  match k.getLast? with
  | none => failure
  | some last =>
    addParents [] k.dropLast
    if isList then addToTables k.dropLast last else setValue k.dropLast last (.table [])

/-- Opens the tables that the parts of a dotted key name, one in the other. -/
def openParts (context : Key) : Key → Build Key
  | [] => return context
  | k :: rest => do
    addImplicit (context ++ [k])
    openTable (context ++ [k]) false
    openParts (context ++ [k]) rest

mutual

/-- Takes in what is written as the value of a key. -/
def value (context : Key) (k : Name) (inArray : Bool) : Written → Build Value
  | .string s => return .string s
  | .int n => return .int n
  | .bool b => return .bool b
  | .other => return .other
  | .array items => do
    noteArray context k true
    return .array (← values context k items)
  | .inline entries => do
    addImplicit (context ++ [k])
    openTable (context ++ [k]) inArray
    return .table (← inlineEntries (context ++ [k]) [] entries)

def values (context : Key) (k : Name) : List Written → Build (List Value)
  | [] => return []
  | w :: rest => do
    let v ← value context k true w
    return v :: (← values context k rest)

/-- Takes in the entries of an inline table, which are added to `t` as well. -/
def inlineEntries (context : Key) (t : Table) : List (Key × Written) → Build Table
  | [] => return t
  | (key, w) :: rest => do
    let inner ← openParts context key.dropLast
    let last := key.getLastD []
    addKey (inner ++ [last])
    let v ← value inner last false w
    setValue inner last v
    noteArray inner last w.isArray
    inlineEntries context (← t.setDeep v key) rest

end

def entry (context key : Key) (w : Written) : Build Unit := do
  let inner ← openParts context key.dropLast
  let last := key.getLastD []
  addKey (inner ++ [last])
  let v ← value inner last false w
  setValue inner last v
  noteArray inner last w.isArray

/-- Takes in lines; `context` is the table that entries go to. -/
def lines (context : Key) : List Line → Build Unit
  | [] => return ()
  | .table key :: rest => do
    openTable key false
    noteArray key [] false
    addKey key
    lines key rest
  | .tableOf key :: rest => do
    openTable key true
    noteArray key [] false
    addKey key
    lines key rest
  | .entry key w :: rest => do
    entry context key w
    lines context rest

end Build

/-- The document that lines build up. -/
def Document.ofLines (ls : List Line) : Option Document :=
  ((Build.lines [] ls).run {}).map fun r => r.2.doc

end UnitScript.Toml
