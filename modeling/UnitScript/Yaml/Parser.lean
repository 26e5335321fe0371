import UnitScript.Text.Scan
import UnitScript.Text.Utf8
import UnitScript.Yaml.Node

/-!
# Reading structured text

Mappings are written one entry a line, with the entries of a mapping in the same column, or between
braces. Scalars are plain or quoted. Of a file with several documents only the first is read.
-/

namespace UnitScript.Yaml.Parser

/-- Where reading stands. `column` is known for the first thing on a line only. -/
structure Cursor where
  column : Option Nat
  rest : List Char

abbrev Read := StateT Cursor Option

def isSpace (c : Char) : Bool := c = ' ' || c = '\t'

/-- Whether a text is at its end or starts with a blank or a line end. -/
def startsBlank : List Char → Bool
  | [] => true
  | c :: _ => isSpace c || c = '\n'

/-- Three dashes or three dots in the first column stand between documents. -/
def isMarker (cur : Cursor) : Bool :=
  cur.column = some 0 &&
    (("---".toList.isPrefixOf cur.rest || "...".toList.isPrefixOf cur.rest) &&
      startsBlank (cur.rest.drop 3))

def isDone (cur : Cursor) : Bool := cur.rest.isEmpty || isMarker cur

/-- Skips blanks, line ends and comments. Outside of braces no tab may stand in front of a line. -/
def skipFrom (inFlow : Bool) : (inComment : Bool) → (column : Option Nat) → List Char → Option Cursor
  | _, column, [] => some ⟨column, []⟩
  | true, column, c :: rest =>
    if c = '\n' then skipFrom inFlow false (some 0) rest else skipFrom inFlow true column rest
  | false, column, c :: rest =>
    if c = '\n' then skipFrom inFlow false (some 0) rest
    else if c = ' ' then skipFrom inFlow false (column.map (· + 1)) rest
    else if c = '\t' then
      if column.isSome && !inFlow then none else skipFrom inFlow false column rest
    else if c = '#' then skipFrom inFlow true column rest
    else some ⟨column, c :: rest⟩

def skip (inFlow : Bool) : Read Unit := do
  let cur ← get
  set (← (skipFrom inFlow false cur.column cur.rest : Option Cursor))

/-- Applies a scanner in the middle of a line. -/
def inLine {α : Type} (scan : Scan α) : Read α := fun cur => do
  let (x, rest) ← scan.run cur.rest
  return (x, ⟨none, rest⟩)

/-! ## Scalars -/

/-- Line ends in a scalar: one is read as a blank, and of several one is left out. -/
def folded : (lineEnds : Nat) → List Char
  | 0 => []
  | 1 => [' ']
  | n + 2 => List.replicate (n + 1) '\n'

/-- The blanks and line ends at the front of a text inside of quotes, as they are read. No marker may
stand at the start of a line. -/
def breaks (s : List Char) : Option (List Char × List Char) :=
  let white := s.takeWhile fun c => isSpace c || c = '\n'
  let rest := s.dropWhile fun c => isSpace c || c = '\n'
  let ends := white.count '\n'
  if ends = 0 then some (white, rest)
  else if white.getLast? = some '\n' && isMarker ⟨some 0, rest⟩ then none
  else some (folded ends, rest)

def escape : Scan (List Char) := do
  let one (n : Nat) : Scan (List Char) := return [Char.ofNat n]
  match ← Scan.next with
  | '0' => one 0
  | 'a' => one 7
  | 'b' => one 8
  | 't' => one 9
  | '\t' => one 9
  | 'n' => one 10
  | 'v' => one 11
  | 'f' => one 12
  | 'r' => one 13
  | 'e' => one 27
  | ' ' => one 32
  | '"' => one 34
  | '/' => one 47
  | '\\' => one 92
  | 'N' => one 0x85
  | '_' => one 0xA0
  | 'L' => one 0x2028
  | 'P' => one 0x2029
  | 'x' => return [← Scan.hexChar 2]
  | 'u' => return [← Scan.hexChar 4]
  | 'U' => return [← Scan.hexChar 8]
  | '\n' => fun s => do
    -- The line goes on with what follows its end; further line ends are kept.
    let white := s.takeWhile fun c => isSpace c || c = '\n'
    return (List.replicate (white.count '\n') '\n', s.drop white.length)
  | _ => failure

/-- The rest of a text in double quotes. -/
def doubleQuoted : (limit : Nat) → Scan (List Char)
  | 0 => failure
  | limit + 1 => do
    match ← Scan.peek with
    | none => failure
    | some '"' =>
      Scan.expect ['"']
      return []
    | some '\\' =>
      Scan.expect ['\\']
      let cs ← escape
      return cs ++ (← doubleQuoted limit)
    | some c =>
      if isSpace c || c = '\n' then
        let cs ← breaks
        return cs ++ (← doubleQuoted limit)
      else
        let c ← Scan.next
        return c :: (← doubleQuoted limit)

/-- The rest of a text in single quotes, in which two quotes stand for one. -/
def singleQuoted : (limit : Nat) → Scan (List Char)
  | 0 => failure
  | limit + 1 => do
    match ← Scan.peek with
    | none => failure
    | some '\x27' =>
      if ← Scan.accept ['\x27', '\x27'] then return '\x27' :: (← singleQuoted limit)
      else
        Scan.expect ['\x27']
        return []
    | some c =>
      if isSpace c || c = '\n' then
        let cs ← breaks
        return cs ++ (← singleQuoted limit)
      else
        let c ← Scan.next
        return c :: (← singleQuoted limit)

def quoted : Scan (List Char) := do
  if ← Scan.accept ['"'] then doubleQuoted ((← get).length + 1)
  else
    Scan.expect ['\x27']
    singleQuoted ((← get).length + 1)

def isFlowMark (c : Char) : Bool := c = ',' || c = '[' || c = ']' || c = '\x7b' || c = '\x7d'

/-- The characters that no plain scalar starts with, unless a further character says otherwise. -/
def isIndicator (c : Char) : Bool :=
  isFlowMark c || "-?:#&*!|>%@".toList.contains c || c = '\x27' || c = '"' || c = '\x60'

def startsPlain (inFlow : Bool) : List Char → Bool
  | [] => false
  | c :: rest =>
    !(startsBlank (c :: rest) || isIndicator c) || (c = '-' && !startsBlank rest) ||
      (!inFlow && (c = '?' || c = ':') && !startsBlank rest)

/-- Whether a plain scalar ends in front of a text. -/
def endsPlain (inFlow afterBlank : Bool) : List Char → Bool
  | [] => true
  | c :: rest =>
    c = '\n' || (c = ':' && startsBlank rest) || (c = '#' && afterBlank) ||
      (inFlow && (isFlowMark c || (c = '?' && startsBlank rest)))

/-- The part of a plain scalar on one line, and what follows. -/
def plainPart (inFlow : Bool) : (afterBlank : Bool) → List Char → List Char × List Char
  | _, [] => ([], [])
  | afterBlank, c :: rest =>
    if endsPlain inFlow afterBlank (c :: rest) then ([], c :: rest)
    else
      let (part, after) := plainPart inFlow (isSpace c) rest
      (c :: part, after)

/-- A line's part of a plain scalar without the blanks at its end, which are left. -/
def plainLine (inFlow : Bool) : Scan (List Char) := fun s =>
  let (part, after) := plainPart inFlow false s
  let blanks := part.reverse.takeWhile isSpace
  some (part.take (part.length - blanks.length), blanks ++ after)

/-- What follows the line ends at the front of `s`, when a plain scalar goes on there: it stands in
the column `least` or behind it, or between braces. -/
def continuation (inFlow : Bool) (least : Nat) (s : List Char) : Option (List Char × List Char) :=
  let white := s.takeWhile fun c => isSpace c || c = '\n'
  let rest := s.drop white.length
  let column := (white.reverse.takeWhile (· ≠ '\n')).length
  if white.count '\n' = 0 || rest.isEmpty || rest.head? = some '#' ||
      isMarker ⟨some column, rest⟩ || (!inFlow && column < least) ||
      endsPlain inFlow true rest then none
  else some (folded (white.count '\n'), rest)

/-- The further lines of a plain scalar. -/
def plainLines (inFlow : Bool) (least : Nat) : (limit : Nat) → Scan (List Char)
  | 0 => return []
  | limit + 1 => do
    match continuation inFlow least (← get) with
    | none => return []
    | some (gap, rest) =>
      set rest
      let part ← plainLine inFlow
      return gap ++ part ++ (← plainLines inFlow least limit)

def plain (inFlow : Bool) (least : Nat) : Scan (List Char) := do
  if !startsPlain inFlow (← get) then failure
  let first ← plainLine inFlow
  return first ++ (← plainLines inFlow least (← get).length)

def isQuote : Option Char → Bool
  | some '"' => true
  | some '\x27' => true
  | _ => false

def scalar (inFlow : Bool) (least : Nat) : Scan Node := do
  if isQuote (← Scan.peek) then return .scalar (Bytes.ofChars (← quoted)) false
  else return .scalar (Bytes.ofChars (← plain inFlow least)) true

/-- A scalar on one line with a colon behind it. -/
def keyScalar (inFlow : Bool) : Scan Node := do
  let before ← get
  let node ←
    if isQuote (← Scan.peek) then do pure (Node.scalar (Bytes.ofChars (← quoted)) false)
    else if startsPlain inFlow before then do
      pure (Node.scalar (Bytes.ofChars (← plainLine inFlow)) true)
    else failure
  let taken := before.take (before.length - (← get).length)
  if taken.contains '\n' then failure
  Scan.skip isSpace
  Scan.expect [':']
  if inFlow || startsBlank (← get) then return node else failure

/-! ## Mappings -/

/-- An entry between braces. The value may be missing, with its colon or without. -/
def flowEntry (value : Read Node) : Read (Node × Node) := do
  match StateT.run (keyScalar true) (← get).rest with
  | none => return (← inLine (scalar true 0), .null)
  | some (key, rest) =>
    set ({ column := none, rest } : Cursor)
    skip true
    let c := (← get).rest.head?
    if c = some ',' || c = some '\x7d' then return (key, .null) else return (key, ← value)

/-- The entries up to the closing brace. -/
def flowEntries (value : Read Node) : (limit : Nat) → Read (List (Node × Node))
  | 0 => failure
  | limit + 1 => do
    skip true
    if isMarker (← get) then failure
    if ← inLine (Scan.accept ['\x7d']) then return []
    let e ← flowEntry value
    skip true
    if ← inLine (Scan.accept [',']) then return e :: (← flowEntries value limit)
    inLine (Scan.expect ['\x7d'])
    return [e]

/-- A node between braces or a scalar, with at most `levels` levels of mappings. -/
def flowNode (inFlow : Bool) (least : Nat) : (levels : Nat) → Read Node
  | 0 => inLine (scalar inFlow least)
  | levels + 1 => do
    if ← inLine (Scan.accept ['\x7b']) then
      return .mapping (← flowEntries (flowNode true 0 levels) ((← get).rest.length + 1))
    else inLine (scalar inFlow least)

/-- Nothing but a comment may follow a node on its line. -/
def endLine : Read Unit := do
  skip false
  let cur ← get
  if cur.column.isNone && !cur.rest.isEmpty then failure

/-- The value of an entry whose key is in column `c`: on the same line, or further right on the
following ones. -/
def blockValue (levels c : Nat) (node : Nat → Read Node) : Read Node := do
  skip false
  let cur ← get
  if isDone cur then return .null
  match cur.column with
  | none =>
    let v ← flowNode false (c + 1) levels
    endLine
    return v
  | some column => if column > c then node column else return .null

/-- The entries of the mapping in column `c`. -/
def blockEntries (c : Nat) (value : Read Node) : (limit : Nat) → Read (List (Node × Node))
  | 0 => failure
  | limit + 1 => do
    let key ← inLine (keyScalar false)
    let v ← value
    let cur ← get
    if isDone cur then return [(key, v)]
    match cur.column with
    | none => failure
    | some column =>
      if column = c then return (key, v) :: (← blockEntries c value limit)
      else if column < c then return [(key, v)]
      else failure

/-- The node that starts in column `c`, at the start of a line; a scalar goes on down to the column
`least`. -/
def blockNode : (levels least c : Nat) → Read Node
  | levels, least, c => do
    match levels, StateT.run (keyScalar false) (← get).rest with
    | levels + 1, some _ =>
      let value := blockValue levels c fun column => blockNode levels (c + 1) column
      return .mapping (← blockEntries c value ((← get).rest.length + 1))
    | levels, _ =>
      let v ← flowNode false least levels
      endLine
      return v

/-- Three dashes may open a document; what follows them on the line is no block mapping. -/
def document (levels : Nat) : Read (Option Node) := do
  skip false
  if (← get).rest.isEmpty then return none
  let isOpened := isMarker (← get) && "---".toList.isPrefixOf (← get).rest
  if isOpened then
    inLine (Scan.expect "---".toList)
    skip false
  let cur ← get
  if isDone cur then
    if isOpened then return some .null else failure
  let node ←
    match cur.column with
    | none => do
      let v ← flowNode false 0 levels
      endLine
      pure v
    | some c => blockNode levels 0 c
  if isDone (← get) then return some node else failure

/-- Line ends are read alike in all their forms. -/
def lineEnds : List Char → List Char
  | [] => []
  | '\r' :: '\n' :: rest => '\n' :: lineEnds rest
  | '\r' :: rest => '\n' :: lineEnds rest
  | c :: rest => c :: lineEnds rest

/-- The characters that may stand in a file. -/
def isAllowed (c : Char) : Bool :=
  let n := c.toNat
  n = 9 || n = 10 || n = 13 || (32 ≤ n && n ≤ 126) || n = 0x85 ||
    (0xA0 ≤ n && n ≤ 0xD7FF) || (0xE000 ≤ n && n ≤ 0xFFFD && n ≠ 0xFEFF) || 0x10000 ≤ n

/-- The text without the mark that some editors put in front. -/
def dropMark : Bytes → Bytes
  | 0xEF :: 0xBB :: 0xBF :: rest => rest
  | s => s

end UnitScript.Yaml.Parser

namespace UnitScript.Yaml

/-- How deep mappings may be nested in the files that are read. -/
def maxLevels : Nat := 100

/-- What a file holds. -/
inductive Content where
  | nothing
  | node (n : Node)
  | malformed

/-- The first document of a file. -/
def parse (s : Bytes) : Content :=
  let s := Parser.dropMark s
  let cs := Utf8.decode s
  if !(Utf8.isValid s && cs.all Parser.isAllowed) then .malformed
  else
    match StateT.run (Parser.document maxLevels) ⟨some 0, Parser.lineEnds cs⟩ with
    | none => .malformed
    | some (none, _) => .nothing
    | some (some n, _) => .node n

end UnitScript.Yaml
