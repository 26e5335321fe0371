import UnitScript.NameMap
import UnitScript.Syntax.Node
import UnitScript.Text.Blank
import UnitScript.Text.Quoted

/-!
# Kinds

A kind is the little that compilation needs to know of a value: which storage holds it, how a call
returns it, and whether a call through it goes to a function it points at. Kinds are written as text
in unit exports and in manifests.
-/

namespace UnitScript

/-- The coarse sort of a value. A number without a tag is kept as it is. -/
inductive Tag where
  | undefined | number | string | struct | callback | null
  | other (code : Int)
  deriving DecidableEq, Repr

namespace Tag

def text : Tag → Bytes
  | undefined => "undefined"
  | number => "number"
  | string => "string"
  | struct => "struct"
  | callback => "callback"
  | null => "null"
  | other code => "Tag(" ++ Bytes.ofInt code ++ ")"

def code : Tag → Int
  | undefined => 0
  | number => 1
  | string => 2
  | struct => 3
  | callback => 4
  | null => 5
  | other code => code

def ofCode (code : Int) : Tag :=
  if code = 0 then undefined
  else if code = 1 then number
  else if code = 2 then string
  else if code = 3 then struct
  else if code = 4 then callback
  else if code = 5 then null
  else other code

/-- Reads a tag; `func` is another word for `callback`, and no text at all is `undefined`. -/
def parse? (s : Bytes) : Option Tag :=
  if s = Bytes.ofString "number" then some number
  else if s = Bytes.ofString "string" then some string
  else if s = Bytes.ofString "struct" then some struct
  else if s = Bytes.ofString "callback" then some callback
  else if s = Bytes.ofString "func" then some callback
  else if s = Bytes.ofString "null" then some null
  else if s = Bytes.ofString "undefined" then some undefined
  else if s = [] then some undefined
  else none

end Tag

/-- A tag and, for a callback, the tag of what the callback returns. -/
structure Kind where
  tag : Tag
  result : Tag := .undefined
  deriving DecidableEq, Repr

/-- What is wrong with the text of a kind. -/
inductive KindError where
  | unknown (text : Bytes)
  | badResult (text : Bytes)
  deriving DecidableEq, Repr

def KindError.message : KindError → Bytes
  | unknown text => "unknown kind " ++ Text.quoted text
  | badResult text => "invalid callback result kind " ++ Text.quoted text

namespace Kind

def undefined : Kind := { tag := .undefined }
def number : Kind := { tag := .number }
def string : Kind := { tag := .string }
def struct : Kind := { tag := .struct }
def callback : Kind := { tag := .callback }
def null : Kind := { tag := .null }

def isCallback (k : Kind) : Bool := k.tag = .callback

/-- Values of this kind travel through the struct slot; strings share the form of structs. -/
def isStructLike (k : Kind) : Bool := k.tag = .string || k.tag = .struct

def hasResult (k : Kind) : Bool := k.tag = .callback && k.result ≠ .undefined

def text (k : Kind) : Bytes :=
  if k.hasResult then "callback:" ++ k.result.text else k.tag.text

/-- What a call through a name of kind `k` gives: the kind itself, or the known result of a
callback. -/
def returned (k : Kind) : Kind := if k.hasResult then { tag := k.result } else k

/-- Reads the text of a kind, with blanks around it ignored. -/
def parse (s : Bytes) : Except KindError Kind :=
  let s := Text.trim s
  match Bytes.dropLead? "callback:" s with
  | some rest =>
    match Tag.parse? rest with
    | none => .error (.unknown rest)
    | some .callback => .error (.badResult rest)
    | some .undefined => .error (.badResult rest)
    | some tag => .ok { tag := .callback, result := tag }
  | none =>
    match Tag.parse? s with
    | none => .error (.unknown s)
    | some tag => .ok { tag := tag }

/-- The kind that a written type names; a name that is none is `undefined`. -/
def ofTypeExpr : TypeExpr → Kind
  | .named _ name => { tag := (Tag.parse? name).getD .undefined }
  | .callback _ => callback
  | .callbackOf _ result => { tag := .callback, result := (ofTypeExpr result).tag }

/-- An absent annotation is `undefined`. -/
def ofWritten : Option TypeExpr → Kind
  | some t => ofTypeExpr t
  | none => undefined

/-- The kind of an annotation that defaults to a number. -/
def orNumber (t : Option TypeExpr) : Kind :=
  if (ofWritten t).tag = .undefined then number else ofWritten t

end Kind

/-- The kinds of the names that a unit may use without defining them. -/
abbrev Prelude := NameMap Kind

/-- A bad kind in a table of kinds. -/
structure PreludeError where
  name : Name
  cause : KindError
  deriving DecidableEq, Repr

def PreludeError.message (e : PreludeError) : Bytes :=
  "prelude entry " ++ Text.quoted e.name ++ ": " ++ e.cause.message

namespace Prelude

/-- Reads a table of names and the texts of their kinds. -/
def parse : List (Name × Bytes) → Except PreludeError Prelude
  | [] => .ok NameMap.empty
  | (name, text) :: rest =>
    match Kind.parse text with
    | .error e => .error ⟨name, e⟩
    | .ok kind =>
      match parse rest with
      | .error e => .error e
      | .ok more => .ok (if more.contains name then more else more.insert name kind)

end Prelude

end UnitScript
