import UnitScript.Position

/-!
# Tokens

The kinds of token, their names in messages, and the keywords.
-/

namespace UnitScript

inductive TokenKind where
  | illegal | eof
  | ident | int | string
  | letWord | funcWord | ifWord | elseWord | whileWord | returnWord | importWord | includeWord | passWord
  | numberType | stringType | structType | nullType
  | assign
  | plus | minus | star | slash
  | eq | notEq | lt | ltEq | gt | gtEq
  | comma | semicolon | dot | colon
  | lParen | rParen | lBrace | rBrace | lBracket | rBracket
  deriving DecidableEq, Repr

namespace TokenKind

/-- The name of a kind in messages. -/
def text : TokenKind → Bytes
  | illegal => "Illegal"
  | eof => "EOF"
  | ident => "Ident"
  | int => "Int"
  | string => "String"
  | letWord => "Let"
  | funcWord => "Func"
  | ifWord => "If"
  | elseWord => "Else"
  | whileWord => "While"
  | returnWord => "Return"
  | importWord => "Import"
  | includeWord => "Include"
  | passWord => "Pass"
  | numberType => "NumberType"
  | stringType => "StringType"
  | structType => "StructType"
  | nullType => "NullType"
  | assign => "Assign"
  | plus => "Plus"
  | minus => "Minus"
  | star => "Star"
  | slash => "Slash"
  | eq => "Eq"
  | notEq => "NotEq"
  | lt => "Lt"
  | ltEq => "LtEq"
  | gt => "Gt"
  | gtEq => "GtEq"
  | comma => "Comma"
  | semicolon => "Semicolon"
  | dot => "Dot"
  | colon => "Colon"
  | lParen => "LParen"
  | rParen => "RParen"
  | lBrace => "LBrace"
  | rBrace => "RBrace"
  | lBracket => "LBracket"
  | rBracket => "RBracket"

/-- The kinds in the order of their numbers. -/
def all : List TokenKind :=
  [illegal, eof, ident, int, string, letWord, funcWord, ifWord, elseWord, whileWord, returnWord, importWord, includeWord,
    passWord, numberType, stringType, structType, nullType, assign, plus, minus, star, slash, eq, notEq,
    lt, ltEq, gt, gtEq, comma, semicolon, dot, colon, lParen, rParen, lBrace, rBrace, lBracket,
    rBracket]

/-- The name of the kind with a given number; a number that has no kind is shown itself. -/
def textOfCode (code : Int) : Bytes :=
  match (if 0 ≤ code then all[code.toNat]? else none) with
  | some kind => kind.text
  | none => "Kind(" ++ Bytes.ofInt code ++ ")"

/-- The kind of an identifier-like word: a keyword's own, or `ident`. -/
def ofWord (word : Bytes) : TokenKind :=
  if word = Bytes.ofString "let" then letWord
  else if word = Bytes.ofString "func" then funcWord
  else if word = Bytes.ofString "if" then ifWord
  else if word = Bytes.ofString "else" then elseWord
  else if word = Bytes.ofString "while" then whileWord
  else if word = Bytes.ofString "return" then returnWord
  else if word = Bytes.ofString "import" then importWord
  else if word = Bytes.ofString "include" then includeWord
  else if word = Bytes.ofString "pass" then passWord
  else if word = Bytes.ofString "number" then numberType
  else if word = Bytes.ofString "string" then stringType
  else if word = Bytes.ofString "struct" then structType
  else if word = Bytes.ofString "null" then nullType
  else ident

end TokenKind

/-- A token with its text and the place of its first character. -/
structure Token where
  kind : TokenKind
  lexeme : Bytes
  pos : Position
  deriving DecidableEq, Repr

end UnitScript
