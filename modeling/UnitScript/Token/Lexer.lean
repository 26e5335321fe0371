import UnitScript.Token
import UnitScript.Text.Blank
import UnitScript.Text.Letter
import UnitScript.Text.Mark
import UnitScript.Text.Normal
import UnitScript.Text.Quoted

/-!
# From characters to tokens

`Token.scan` cuts a source text into tokens. A NUL character ends the text like its real end. A
place in the text is a `Cursor`; every token takes at least one character, so the length of the
text bounds the number of tokens.
-/

namespace UnitScript

/-- What is wrong with a text that is no token. -/
inductive LexFault where
  | loneBang
  | badCharacter (c : Char)
  | unterminatedString
  | badEscape
  deriving DecidableEq, Repr

structure LexError where
  pos : Position
  fault : LexFault
  deriving DecidableEq, Repr

namespace LexFault

def text : LexFault → Bytes
  | loneBang => "unexpected '!'"
  | badCharacter c => "unexpected character " ++ Text.quotedCharacter c
  | unterminatedString => "unterminated string literal"
  | badEscape => "invalid escape sequence"

end LexFault

def LexError.message (e : LexError) : Bytes := e.pos.note e.fault.text

/-- The characters still to be read and the place of the first of them. At the end of the text the
place stays that of the last character. -/
structure Cursor where
  rest : List Char
  line : Nat
  column : Nat
  deriving DecidableEq, Repr

namespace Cursor

/-- The cursor on `cs` when the character before it stands at the given place. -/
def after (line column : Nat) (cs : List Char) : Cursor :=
  match cs with
  | [] => ⟨[], line, column⟩
  | c :: _ => if c = '\n' then ⟨cs, line + 1, 0⟩ else ⟨cs, line, column + 1⟩

def start (cs : List Char) : Cursor := after 1 0 cs

def pos (c : Cursor) : Position := ⟨c.line, c.column⟩

/-- One character further; the end stays the end. -/
def advance (c : Cursor) : Cursor :=
  match c.rest with
  | [] => c
  | _ :: rest => after c.line c.column rest

def advanceBy : Nat → Cursor → Cursor
  | 0, c => c
  | n + 1, c => advanceBy n c.advance

/-- The character at the cursor; none at the end and at a NUL. -/
def current? (c : Cursor) : Option Char :=
  match c.rest with
  | [] => none
  | x :: _ => if x = '\x00' then none else some x

/-- Skips blanks and comments. A comment runs up to the end of its line. -/
def skipFrom : (inComment : Bool) → (rest : List Char) → (line column : Nat) → Cursor
  | _, [], line, column => ⟨[], line, column⟩
  | true, x :: xs, line, column =>
    if x = '\n' then
      skipFrom false xs (after line column xs).line (after line column xs).column
    else if x = '\x00' then ⟨x :: xs, line, column⟩
    else skipFrom true xs (after line column xs).line (after line column xs).column
  | false, x :: xs, line, column =>
    if Text.isBlank x then
      skipFrom false xs (after line column xs).line (after line column xs).column
    else if x = '/' ∧ xs.head? = some '/' then
      skipFrom true xs (after line column xs).line (after line column xs).column
    else ⟨x :: xs, line, column⟩

def skipBlanks (c : Cursor) : Cursor := skipFrom false c.rest c.line c.column

end Cursor

namespace Token

def isDigit (c : Char) : Bool := '0' ≤ c && c ≤ '9'

/-- A letter of any script or an underscore. -/
def startsName (c : Char) : Bool := c == '_' || Text.isLetter c

def continuesName (c : Char) : Bool := startsName c || isDigit c || Text.isMark c

/-- The text of a run of characters. A NUL that is the very last character of the source is taken
along with the run that it ends. -/
def runText (run rest : List Char) : List Char := if rest = ['\x00'] then run ++ ['\x00'] else run

/-- The character that a letter stands for after a backslash. -/
def escape? (c : Char) : Option Char :=
  match c with
  | '\\' => some '\\'
  | '"' => some '"'
  | 'n' => some '\n'
  | 't' => some '\t'
  | 'r' => some '\r'
  | '0' => some '\x00'
  | _ => none

/-- What a string literal turned out to be, and where reading goes on. -/
structure StringEnd where
  value : Except LexError (List Char)
  next : Cursor

/-- Reads a string literal from behind its opening quote at `opening`; `acc` holds the characters
read so far, last first. Nothing is read past the line's end or past a wrong escape. -/
def readString (opening : Position) : (rest : List Char) → (line column : Nat) → (acc : List Char) →
    StringEnd
  | [], line, column, _ => ⟨.error ⟨opening, .unterminatedString⟩, ⟨[], line, column⟩⟩
  | x :: xs, line, column, acc =>
    if x = '\x00' ∨ x = '\n' then ⟨.error ⟨opening, .unterminatedString⟩, ⟨x :: xs, line, column⟩⟩
    else if x = '"' then ⟨.ok acc.reverse, .after line column xs⟩
    else if x = '\\' then
      match xs with
      | [] => ⟨.error ⟨⟨line, column⟩, .badEscape⟩, ⟨[], line, column⟩⟩
      | e :: ys =>
        match escape? e with
        | none => ⟨.error ⟨⟨line, column⟩, .badEscape⟩, .after line column (e :: ys)⟩
        | some r =>
          let here := Cursor.after line column (e :: ys)
          let next := Cursor.after here.line here.column ys
          readString opening ys next.line next.column (r :: acc)
    else
      let next := Cursor.after line column xs
      readString opening xs next.line next.column (x :: acc)

/-- The kind and length of the symbol that starts with `x`, given the character after it. -/
def symbol? (x : Char) (next : Option Char) : Option (TokenKind × Nat) :=
  match x with
  | ';' => some (.semicolon, 1)
  | ',' => some (.comma, 1)
  | '.' => some (.dot, 1)
  | ':' => some (.colon, 1)
  | '(' => some (.lParen, 1)
  | ')' => some (.rParen, 1)
  | '\x7b' => some (.lBrace, 1)
  | '\x7d' => some (.rBrace, 1)
  | '[' => some (.lBracket, 1)
  | ']' => some (.rBracket, 1)
  | '+' => some (.plus, 1)
  | '-' => some (.minus, 1)
  | '*' => some (.star, 1)
  | '/' => some (.slash, 1)
  | '!' => if next = some '=' then some (.notEq, 2) else none
  | '=' => if next = some '=' then some (.eq, 2) else some (.assign, 1)
  | '<' => if next = some '=' then some (.ltEq, 2) else some (.lt, 1)
  | '>' => if next = some '=' then some (.gtEq, 2) else some (.gt, 1)
  | _ => none

/-- One token, the error it brings along if it is none, and where reading goes on. -/
structure Lexed where
  token : Token
  error : Option LexError
  next : Cursor

/-- The token that starts with the character `x` at the cursor. -/
def lexFrom (c : Cursor) (x : Char) : Lexed :=
  if isDigit x then
    let run := c.rest.takeWhile isDigit
    let next := c.advanceBy run.length
    ⟨⟨.int, Bytes.ofChars (runText run next.rest), c.pos⟩, none, next⟩
  else if startsName x then
    let run := c.rest.takeWhile continuesName
    let next := c.advanceBy run.length
    let word := Bytes.ofChars (Text.composed (runText run next.rest))
    ⟨⟨TokenKind.ofWord word, word, c.pos⟩, none, next⟩
  else if x = '"' then
    let next := c.advance
    match readString c.pos next.rest next.line next.column [] with
    | ⟨.ok value, after⟩ => ⟨⟨.string, Bytes.ofChars value, c.pos⟩, none, after⟩
    | ⟨.error e, after⟩ => ⟨⟨.illegal, [], c.pos⟩, some e, after⟩
  else
    match symbol? x c.advance.rest.head? with
    | some (kind, n) => ⟨⟨kind, Bytes.ofChars (c.rest.take n), c.pos⟩, none, c.advanceBy n⟩
    | none =>
      let fault := if x = '!' then LexFault.loneBang else .badCharacter x
      ⟨⟨.illegal, Bytes.ofChars [x], c.pos⟩, some ⟨c.pos, fault⟩, c.advance⟩

/-- The next token, or none at the end of the text. -/
def next? (c : Cursor) : Option Lexed := c.skipBlanks.current?.map (lexFrom c.skipBlanks)

/-- The tokens of a source text, the place of its end, and the errors in the order of the tokens
they belong to. -/
structure Scan where
  tokens : List Token
  eof : Position
  errors : List LexError
  deriving Repr

/-- Reads at most `n` tokens. -/
def scanFrom : (n : Nat) → Cursor → Scan
  | 0, c => ⟨[], c.skipBlanks.pos, []⟩
  | n + 1, c =>
    match next? c with
    | none => ⟨[], c.skipBlanks.pos, []⟩
    | some l =>
      let more := scanFrom n l.next
      ⟨l.token :: more.tokens, more.eof, l.error.toList ++ more.errors⟩

/-- The tokens of a text; there are no more of them than characters. -/
def scan (cs : List Char) : Scan := scanFrom cs.length (Cursor.start cs)

/-- The tokens of a source file. -/
def scanBytes (source : Bytes) : Scan := scan (Utf8.decode source)

/-- The token that stands for the end of a text. -/
def eofAt (p : Position) : Token := ⟨.eof, [], p⟩

end Token

end UnitScript
