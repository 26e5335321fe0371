import UnitScript.Text.Scan
import UnitScript.Text.Utf8
import UnitScript.Toml.Written

/-!
# Reading settings files

Text is read line by line into headers and entries. What the keys of the lines mean together is
decided later.
-/

namespace UnitScript.Toml.Parser

open UnitScript.Scan

def isSpace (c : Char) : Bool := c = ' ' || c = '\t'

/-- Drops blanks, line ends and comments. -/
def dropLoose : (inComment : Bool) → List Char → List Char
  | _, [] => []
  | true, c :: rest => dropLoose (c ≠ '\n') rest
  | false, c :: rest =>
    if isSpace c || c = '\n' || c = '\r' then dropLoose false rest
    else if c = '#' then dropLoose true rest
    else c :: rest

def skipLoose : Scan Unit := modify (dropLoose false)

/-- The character after a backslash, or those that its digits denote. -/
def escape : Scan Char := do
  match ← next with
  | 'b' => return Char.ofNat 8
  | 't' => return '\t'
  | 'n' => return '\n'
  | 'f' => return Char.ofNat 12
  | 'r' => return '\r'
  | 'e' => return Char.ofNat 27
  | '"' => return '"'
  | '\\' => return '\\'
  | 'x' => hexChar 2
  | 'u' => hexChar 4
  | 'U' => hexChar 8
  | _ => failure

/-- The rest of a string in double quotes on one line. -/
def basic : (limit : Nat) → Scan (List Char)
  | 0 => failure
  | limit + 1 => do
    match ← next with
    | '"' => return []
    | '\\' =>
      let c ← escape
      return c :: (← basic limit)
    | '\n' | '\r' => failure
    | c => return c :: (← basic limit)

/-- The rest of a string in single quotes on one line; it has no escapes. -/
def literal : Scan (List Char) := do
  let s ← takeRun fun c => c ≠ '\x27' && c ≠ '\n' && c ≠ '\r'
  expect ['\x27']
  return s

/-- Takes the run of quote marks at the front. Three or more end a string, and those before the last
three belong to it; six or more right at its start are an error. -/
def closing (mark : Char) (isStart : Bool) : Scan (List Char × Bool) := do
  let marks ← takeRun (· = mark)
  if marks.length < 3 then return (marks, false)
  else if isStart && marks.length ≥ 6 then failure
  else return (marks.drop 3, true)

/-- A backslash at the end of a line drops the line end and all blanks after it. -/
def lineContinues : Scan Bool := fun s =>
  let rest := s.dropWhile isSpace
  if rest.head? = some '\n' ∨ rest.head? = some '\r' then
    some (true, rest.dropWhile fun c => isSpace c || c = '\n' || c = '\r')
  else some (false, s)

/-- The rest of a string between three double quotes. -/
def multiBasic : (limit : Nat) → (isStart : Bool) → Scan (List Char)
  | 0, _ => failure
  | limit + 1, isStart => do
    match ← peek with
    | some '"' =>
      let (marks, ended) ← closing '"' isStart
      if ended then return marks else return marks ++ (← multiBasic limit false)
    | some '\\' =>
      expect ['\\']
      if ← lineContinues then multiBasic limit false
      else
        let c ← escape
        return c :: (← multiBasic limit false)
    | _ =>
      let c ← next
      return c :: (← multiBasic limit false)

/-- The rest of a string between three single quotes. -/
def multiLiteral : (limit : Nat) → (isStart : Bool) → Scan (List Char)
  | 0, _ => failure
  | limit + 1, isStart => do
    match ← peek with
    | some '\x27' =>
      let (marks, ended) ← closing '\x27' isStart
      if ended then return marks else return marks ++ (← multiLiteral limit false)
    | _ =>
      let c ← next
      return c :: (← multiLiteral limit false)

/-- A line end right after the opening quotes is not part of the string. -/
def skipFirstLineEnd : Scan Unit := do
  if ← accept ['\r', '\n'] then return ()
  if ← accept ['\n'] then return ()

def remaining : Scan Nat := return (← get).length

def string : Scan (List Char) := do
  if ← accept ['"', '"', '"'] then
    skipFirstLineEnd
    multiBasic ((← remaining) + 1) true
  else if ← accept ['\x27', '\x27', '\x27'] then
    skipFirstLineEnd
    multiLiteral ((← remaining) + 1) true
  else if ← accept ['"'] then basic ((← remaining) + 1)
  else
    expect ['\x27']
    literal

def keyPart : Scan Name := do
  if ← accept ['"'] then return Bytes.ofChars (← basic ((← remaining) + 1))
  else if ← accept ['\x27'] then return Bytes.ofChars (← literal)
  else
    match ← takeRun isBare with
    | [] => failure
    | cs => return Bytes.ofChars cs

/-- Parts with dots between them, and blanks around. -/
def keyParts : (limit : Nat) → Scan Key
  | 0 => failure
  | limit + 1 => do
    skip isSpace
    let part ← keyPart
    skip isSpace
    if ← accept ['.'] then return part :: (← keyParts limit) else return [part]

def key : Scan Key := do keyParts ((← remaining) + 1)

/-- Underscores stand between digits only. -/
def underscoresOk : (afterDigit : Bool) → List Char → Bool
  | afterDigit, [] => afterDigit
  | afterDigit, c :: rest =>
    if c = '_' then afterDigit && underscoresOk false rest
    else underscoresOk (c.isDigit || ('a' ≤ c && c ≤ 'f') || ('A' ≤ c && c ≤ 'F')) rest

def digitValue (c : Char) : Nat :=
  if c.isDigit then c.toNat - 48 else if 'a' ≤ c then c.toNat - 87 else c.toNat - 55

/-- The value of digits in a base; underscores do not count. -/
def digitsIn (base : Nat) (cs : List Char) : Option Nat :=
  let cs := cs.filter (· ≠ '_')
  if cs.isEmpty || !cs.all (fun c => (c.isDigit || ('a' ≤ c && c ≤ 'f') || ('A' ≤ c && c ≤ 'F')) &&
      digitValue c < base) then none
  else some (cs.foldl (fun n c => n * base + digitValue c) 0)

def hasLeadingZero : List Char → Bool
  | '0' :: _ :: _ => true
  | _ => false

def unsigned? (cs : List Char) : Option Nat :=
  if !underscoresOk false cs then none
  else
    match cs with
    | '0' :: 'x' :: rest => digitsIn 16 rest
    | '0' :: 'o' :: rest => digitsIn 8 rest
    | '0' :: 'b' :: rest => digitsIn 2 rest
    | cs => if hasLeadingZero cs then none else digitsIn 10 cs

def isBased : List Char → Bool
  | '0' :: c :: _ => c = 'x' || c = 'o' || c = 'b'
  | _ => false

/-- A whole number of 64 bits; only plain digits take a sign. -/
def int? (cs : List Char) : Option Int := do
  let (sign, body) : Int × List Char :=
    match cs with
    | '-' :: rest => (-1, rest)
    | '+' :: rest => (1, rest)
    | cs => (1, cs)
  if body.length < cs.length && isBased body then none
  let n := sign * (← unsigned? body)
  if -0x8000000000000000 ≤ n ∧ n < 0x8000000000000000 then some n else none

def dropSign : List Char → List Char
  | '-' :: rest => rest
  | '+' :: rest => rest
  | cs => cs

def isDigits (cs : List Char) : Bool :=
  underscoresOk false cs && cs.all fun c => c.isDigit || c = '_'

def isExponent (cs : List Char) : Bool := isDigits (dropSign cs)

/-- What follows the first of the given characters, and what stands before it. -/
def cutAt (p : Char → Bool) (cs : List Char) : List Char × Option (List Char) :=
  match cs.dropWhile (!p ·) with
  | [] => (cs, none)
  | _ :: rest => (cs.takeWhile (!p ·), some rest)

def isFloat (cs : List Char) : Bool :=
  let cs := dropSign cs
  let (mantissa, exponent) := cutAt (fun c => c = 'e' || c = 'E') cs
  let (whole, fraction) := cutAt (· = '.') mantissa
  cs = ['i', 'n', 'f'] || cs = ['n', 'a', 'n'] ||
    (isDigits whole && !hasLeadingZero whole && fraction.all isDigits && exponent.all isExponent &&
      (fraction.isSome || exponent.isSome))

/-- Takes the digits and marks of a pattern from the front; `0` stands for any digit. -/
def dropPattern : List Char → List Char → Option (List Char)
  | [], cs => some cs
  | _ :: _, [] => none
  | p :: ps, c :: cs => if (if p = '0' then c.isDigit else c = p) then dropPattern ps cs else none

def isOffset (cs : List Char) : Bool :=
  cs = [] || cs = ['Z'] || cs = ['z'] ||
    dropPattern "+00:00".toList cs = some [] || dropPattern "-00:00".toList cs = some []

/-- The end of a time: seconds, their fraction, an offset. -/
def isTimeRest (cs : List Char) : Bool :=
  match dropPattern ":00".toList cs with
  | none => isOffset cs
  | some ('.' :: rest) => rest.head?.any Char.isDigit && isOffset (rest.dropWhile Char.isDigit)
  | some rest => isOffset rest

def isTime (cs : List Char) : Bool :=
  match dropPattern "00:00".toList cs with
  | none => false
  | some rest => isTimeRest rest

def isDate (cs : List Char) : Bool :=
  match dropPattern "0000-00-00".toList cs with
  | none => false
  | some [] => true
  | some (c :: rest) => (c = 'T' || c = 't' || c = ' ') && isTime rest

def isTokenChar (c : Char) : Bool := c.isAlphanum || c = '+' || c = '-' || c = '_' || c = '.' || c = ':'

/-- A run of characters without blanks; a blank may stand between a date and its time. -/
def token : Scan (List Char) := do
  let cs ← takeRun isTokenChar
  let rest ← get
  match rest with
  | ' ' :: c :: _ =>
    if dropPattern "0000-00-00".toList cs = some [] ∧ c.isDigit then
      let _ ← next
      return cs ++ [' '] ++ (← takeRun isTokenChar)
    else return cs
  | _ => return cs

def atom : Scan Written := do
  let cs ← token
  if cs = "true".toList then return .bool true
  else if cs = "false".toList then return .bool false
  else
    match int? cs with
    | some n => return .int n
    | none => if isFloat cs || isDate cs || isTime cs then return .other else failure

/-- Items with commas between them; a comma may follow the last one. -/
def items {α : Type} (item : Scan α) (close : Char) : (limit : Nat) → Scan (List α)
  | 0 => failure
  | limit + 1 => do
    skipLoose
    if ← accept [close] then return []
    let x ← item
    skipLoose
    if ← accept [','] then return x :: (← items item close limit)
    expect [close]
    return [x]

/-- A key, an equals sign and a value. -/
def entry (value : Scan Written) : Scan (Key × Written) := do
  let k ← key
  expect ['=']
  skip isSpace
  return (k, ← value)

/-- A value with at most `levels` levels of values in it. -/
def value : (levels : Nat) → Scan Written
  | 0 => failure
  | levels + 1 => do
    match ← peek with
    | some '"' => return .string (Bytes.ofChars (← string))
    | some '\x27' => return .string (Bytes.ofChars (← string))
    | some '[' =>
      expect ['[']
      return .array (← items (value levels) ']' ((← remaining) + 1))
    | some '\x7b' =>
      expect ['\x7b']
      return .inline (← items (entry (value levels)) '\x7d' ((← remaining) + 1))
    | _ => atom

def line : Scan Line := do
  if ← accept ['[', '['] then
    let k ← key
    expect [']', ']']
    return .tableOf k
  else if ← accept ['['] then
    let k ← key
    expect [']']
    return .table k
  else
    let (k, v) ← entry (value ((← remaining) + 1))
    return .entry k v

/-- Nothing but a comment follows on a line. -/
def lineEnd : Scan Unit := do
  skip isSpace
  match ← peek with
  | none => return ()
  | some '#' => return ()
  | some '\n' => return ()
  | some '\r' => return ()
  | _ => failure

def lines : (limit : Nat) → Scan (List Line)
  | 0 => failure
  | limit + 1 => do
    skipLoose
    if (← peek).isNone then return []
    let l ← line
    lineEnd
    return l :: (← lines limit)

/-- Only blanks and line ends are allowed of the control characters, and a return only in front of a
line feed. -/
def isClean : List Char → Bool
  | [] => true
  | '\r' :: rest => rest.head? = some '\n' && isClean rest
  | c :: rest => (c = '\t' || c = '\n' || !(c.toNat < 32 || c.toNat = 127)) && isClean rest

/-- The text without the mark that some editors put in front. -/
def dropMark (s : Bytes) : Bytes :=
  match s with
  | 0xEF :: 0xBB :: 0xBF :: rest => rest
  | 0xFF :: 0xFE :: rest => rest
  | 0xFE :: 0xFF :: rest => rest
  | s => s

end UnitScript.Toml.Parser

namespace UnitScript.Toml

/-- The lines of a settings file. -/
def parse (s : Bytes) : Option (List Line) :=
  let s := Parser.dropMark s
  let cs := Utf8.decode s
  if Utf8.isValid s && Parser.isClean cs then (StateT.run (Parser.lines (cs.length + 1)) cs).map (·.1) else none

end UnitScript.Toml
