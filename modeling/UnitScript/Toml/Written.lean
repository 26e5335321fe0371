import UnitScript.Text.Utf8

/-!
# Settings files as they are written

The lines of a settings file: headers of tables, and keys with their values.
-/

namespace UnitScript.Toml

/-- A dotted key. -/
abbrev Key := List Name

inductive Written where
  | string (s : Bytes)
  | int (n : Int)
  | bool (b : Bool)
  /-- A number with a fraction, a date or a time. -/
  | other
  | array (items : List Written)
  | inline (entries : List (Key × Written))
  deriving Inhabited

def Written.isArray : Written → Bool
  | array _ => true
  | _ => false

inductive Line where
  | table (key : Key)
  /-- The next table of a list of tables. -/
  | tableOf (key : Key)
  | entry (key : Key) (value : Written)

def isBare (c : Char) : Bool := c.isAlphanum || c = '_' || c = '-'

/-- A character of a quoted part of a key. -/
def quotedKeyChar (c : Char) : Bytes :=
  if c = '"' then "\\\""
  else if c = '\\' then "\\\\"
  else if c = '\t' then "\\t"
  else if c = '\n' then "\\n"
  else if c = '\r' then "\\r"
  else if c.toNat = 8 then "\\b"
  else if c.toNat = 12 then "\\f"
  else if c.toNat < 32 ∨ c.toNat = 127 then "\\u" ++ Bytes.hexOfNat 4 c.toNat
  else String.utf8EncodeChar c

def keyPartText (part : Name) : Bytes :=
  let cs := Utf8.decode part
  if !cs.isEmpty && cs.all isBare then part else "\"" ++ cs.flatMap quotedKeyChar ++ "\""

/-- A key in the form it is written in. -/
def Key.text (k : Key) : Bytes := Bytes.join "." (k.map keyPartText)

end UnitScript.Toml
