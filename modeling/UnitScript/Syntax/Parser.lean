import UnitScript.Decimal
import UnitScript.Syntax.Node
import UnitScript.Token.Lexer

/-!
# From tokens to syntax trees

`Program.ofTokens` reads a program from a list of tokens. A wrong token is reported and reading goes
on; a statement that yields nothing is left out of its block, and an expression that cannot be read
leaves a missing node. Every statement takes at least one token.

Expressions have three levels of binary operators, all of them grouping to the left: comparisons,
then sums, then products. A minus in front of digits belongs to the literal; in front of anything
else it means the difference from zero.
-/

namespace UnitScript

/-- What the parser did not find. -/
inductive ParseFault where
  | expected (want : TokenKind) (got : Token)
  | unclosedBlock
  | noVariableName
  | noFunctionName
  | noParameterName
  | noType (got : Token)
  | noModuleName (word : Bytes)
  | noModuleMember
  | badInteger (text : Bytes)
  | noExpression (got : Token)
  | noMember
  deriving DecidableEq, Repr

namespace ParseFault

def tokenText (t : Token) : Bytes := t.kind.text ++ " (" ++ Text.quoted t.lexeme ++ ")"

def text : ParseFault → Bytes
  | expected want got => "expected " ++ want.text ++ ", got " ++ tokenText got
  | unclosedBlock => "expected '\x7d' to close block"
  | noVariableName => "expected variable name after 'let'"
  | noFunctionName => "expected function name after 'func'"
  | noParameterName => "expected parameter name"
  | noType got => "expected type, got " ++ tokenText got
  | noModuleName word => "expected module name after '" ++ word ++ "'"
  | noModuleMember => "expected identifier after '.' in module name"
  | badInteger text => "invalid integer literal " ++ Text.quoted text
  | noExpression got => "unexpected " ++ tokenText got ++ " in expression"
  | noMember => "expected identifier after '.'"

end ParseFault

structure ParseError where
  pos : Position
  fault : ParseFault
  deriving DecidableEq, Repr

def ParseError.message (e : ParseError) : Bytes := e.pos.note e.fault.text

/-- The tokens not yet read, the place of the end of the text, and the errors reported so far. -/
structure ParseState where
  rest : List Token
  eof : Position
  errors : List ParseError
  deriving Repr

abbrev Parser := StateM ParseState

namespace Parser

/-- The token to be read next; behind the last token this is the end of the text. -/
def current : Parser Token := return ((← get).rest.head?).getD (Token.eofAt (← get).eof)

def advance : Parser Unit := modify fun s => { s with rest := s.rest.tail }

/-- An upper bound on what can still be read. -/
def bound : Parser Nat := return (← get).rest.length + 1

def report (pos : Position) (fault : ParseFault) : Parser Unit :=
  modify fun s => { s with errors := s.errors ++ [⟨pos, fault⟩] }

/-- Reads a token, whatever it is, and reports one of another kind. -/
def expect (want : TokenKind) : Parser Unit := do
  let tok ← current
  if tok.kind ≠ want then report tok.pos (.expected want tok)
  advance

/-- Items with commas between them, at most `n` of them. -/
def separated {α : Type} (item : Parser α) : (n : Nat) → Parser (List α)
  | 0 => return []
  | n + 1 => do
    let x ← item
    if (← current).kind = .comma then
      advance
      return x :: (← separated item n)
    else return [x]

/-- Items in a closing bracket of the given kind. -/
def bracketed (item : Parser Node) (close : TokenKind) : Parser (List Node) := do
  let items ← if (← current).kind = close then pure [] else separated item (← bound)
  expect close
  return items

/-! ## Types -/

def typeWithin : (depth : Nat) → Parser (Option TypeExpr)
  | 0 => return none
  | depth + 1 => do
    let tok ← current
    match tok.kind with
    | .numberType | .stringType | .structType | .nullType =>
      advance
      return some (.named tok.pos tok.lexeme)
    | .funcWord =>
      advance
      if (← current).kind = .lt then
        advance
        let result ← typeWithin depth
        expect .gt
        match result with
        | some t => return some (.callbackOf tok.pos t)
        | none => return some (.callback tok.pos)
      else return some (.callback tok.pos)
    | _ =>
      report tok.pos (.noType tok)
      advance
      return none

def type : Parser (Option TypeExpr) := do typeWithin (← bound)

/-- A type after a colon, if there is a colon. -/
def annotation : Parser (Option TypeExpr) := do
  if (← current).kind = .colon then
    advance
    type
  else return none

/-! ## Expressions -/

def comparison? : TokenKind → Option Operator
  | .eq => some .eq
  | .notEq => some .ne
  | .lt => some .lt
  | .ltEq => some .le
  | .gt => some .gt
  | .gtEq => some .ge
  | _ => none

def additive? : TokenKind → Option Operator
  | .plus => some .add
  | .minus => some .sub
  | _ => none

def multiplicative? : TokenKind → Option Operator
  | .star => some .mul
  | .slash => some .div
  | _ => none

/-- Extends `left` by at most `n` operators of a level. -/
def chain (op? : TokenKind → Option Operator) (operand : Parser Node) :
    (n : Nat) → (left : Node) → Parser Node
  | 0, left => return left
  | n + 1, left => do
    let tok ← current
    match op? tok.kind with
    | none => return left
    | some op =>
      advance
      let right ← operand
      chain op? operand n (.binary tok.pos op left right none)

/-- Operands with the operators of one level between them. -/
def level (op? : TokenKind → Option Operator) (operand : Parser Node) : Parser Node := do
  let left ← operand
  chain op? operand (← bound) left

/-- The literal that a digit token denotes after `sign`, at the given place. -/
def literal (place : Position) (negative : Bool) (tok : Token) : Parser Node := do
  let (value, ok) := Decimal.read negative tok.lexeme
  if !ok then report tok.pos (.badInteger (if negative then 45 :: tok.lexeme else tok.lexeme))
  return .number place value

/-- The negation of an operand at the minus sign's place. -/
def negated (place : Position) : Node → Node
  | .number _ value => .number place (-value)
  | x => .binary place .sub (.number place 0) x none

def unaryWithin (primary : Parser Node) : (n : Nat) → Parser Node
  | 0 => primary
  | n + 1 => do
    let minus ← current
    if minus.kind ≠ .minus then primary
    else
      advance
      let tok ← current
      if tok.kind = .int then
        advance
        literal minus.pos true tok
      else return negated minus.pos (← unaryWithin primary n)

def unary (primary : Parser Node) : Parser Node := do unaryWithin primary (← bound)

/-- A name with what follows it: arguments, an index, or a dot and a further name. -/
def namedWithin (expr : Parser Node) : (n : Nat) → Parser Node
  | 0 => return .missing
  | n + 1 => do
    let name ← current
    advance
    let tok ← current
    match tok.kind with
    | .lParen =>
      advance
      return .call tok.pos (.ident name.pos name.lexeme) (← bracketed expr .rParen)
    | .lBracket =>
      advance
      let index ← expr
      expect .rBracket
      return .index name.pos name.lexeme index
    | .dot =>
      advance
      let member ← current
      if member.kind ≠ .ident then
        report member.pos .noMember
        return .ident name.pos name.lexeme
      else
        return .property tok.pos (.ident name.pos name.lexeme) (← namedWithin expr n)
    | _ => return .ident name.pos name.lexeme

def primary (expr : Parser Node) : Parser Node := do
  let tok ← current
  match tok.kind with
  | .int =>
    advance
    literal tok.pos false tok
  | .string =>
    advance
    return .string tok.pos tok.lexeme
  | .lBracket =>
    advance
    return .array tok.pos (← bracketed expr .rBracket)
  | .lParen =>
    advance
    let inner ← expr
    expect .rParen
    return inner
  | .ident => namedWithin expr (← bound)
  | _ =>
    report tok.pos (.noExpression tok)
    return .missing

/-- An expression whose brackets are nested less than `depth` deep. -/
def exprWithin : (depth : Nat) → Parser Node
  | 0 => return .missing
  | depth + 1 =>
    level comparison? (level additive? (level multiplicative? (unary (primary (exprWithin depth)))))

def expr : Parser Node := do exprWithin (← bound)

/-! ## Statements -/

def paramsWithin : (n : Nat) → Parser (List Param)
  | 0 => return []
  | n + 1 => do
    let tok ← current
    if tok.kind ≠ .ident then
      report tok.pos .noParameterName
      return []
    else
      advance
      let param : Param := ⟨tok.pos, tok.lexeme, ← annotation⟩
      if (← current).kind = .comma then
        advance
        return param :: (← paramsWithin n)
      else return [param]

/-- Statements up to a token of the kind `close` or to the end of the text. -/
def statementsWithin (statement : Parser (Option Node)) (close : TokenKind) :
    (n : Nat) → Parser (List Node)
  | 0 => return []
  | n + 1 => do
    let kind := (← current).kind
    if kind = close ∨ kind = .eof then return []
    else
      let node ← statement
      return node.toList ++ (← statementsWithin statement close n)

def block (statement : Parser (Option Node)) : Parser (List Node) := do
  expect .lBrace
  let body ← statementsWithin statement .rBrace (← bound)
  let tok ← current
  if tok.kind = .rBrace then advance else report tok.pos .unclosedBlock
  return body

def letStatement : Parser (Option Node) := do
  let start ← current
  advance
  let name ← current
  if name.kind ≠ .ident then
    report name.pos .noVariableName
    return none
  else
    advance
    let type ← annotation
    expect .assign
    let value ← expr
    expect .semicolon
    return some (.binary start.pos .declare (.ident name.pos name.lexeme) value type)

def funcStatement (statement : Parser (Option Node)) : Parser (Option Node) := do
  advance
  let name ← current
  if name.kind ≠ .ident then
    report name.pos .noFunctionName
    return none
  else
    advance
    expect .lParen
    let params ← if (← current).kind = .rParen then pure [] else paramsWithin (← bound)
    expect .rParen
    let result ← annotation
    let body ← block statement
    return some (.func name.pos name.lexeme params result body)

/-- An `if` after `else` is the whole false branch. -/
def ifStatement (statement : Parser (Option Node)) : Parser (Option Node) := do
  let start ← current
  advance
  let test ← expr
  let yes ← block statement
  if (← current).kind = .elseWord then
    advance
    let no ← if (← current).kind = .ifWord then Option.toList <$> statement else block statement
    return some (.cond start.pos test yes no)
  else return some (.cond start.pos test yes [])

def whileStatement (statement : Parser (Option Node)) : Parser (Option Node) := do
  let start ← current
  advance
  let test ← expr
  let body ← block statement
  return some (.loop start.pos test body)

def returnStatement : Parser (Option Node) := do
  let start ← current
  advance
  let value ← if (← current).kind = .semicolon then pure .missing else expr
  expect .semicolon
  return some (.ret start.pos value)

/-- The members of a module name behind its first part. -/
def modulePathWithin : (n : Nat) → Parser (List Bytes)
  | 0 => return []
  | n + 1 => do
    if (← current).kind ≠ .dot then return []
    else
      advance
      let tok ← current
      if tok.kind ≠ .ident then
        report tok.pos .noModuleMember
        return []
      else
        advance
        return tok.lexeme :: (← modulePathWithin n)

def importStatement : Parser (Option Node) := do
  let start ← current
  advance
  let first ← current
  if first.kind ≠ .ident then
    report first.pos (.noModuleName start.lexeme)
    return none
  else
    advance
    let rest ← modulePathWithin (← bound)
    expect .semicolon
    return some (.importUnit start.pos (Bytes.join "." (first.lexeme :: rest)))

/-- An expression, or an assignment to whatever expression stands on its left. -/
def plainStatement : Parser (Option Node) := do
  let left ← expr
  if left.isMissing then
    advance
    return none
  else
    let tok ← current
    if tok.kind = .assign then
      advance
      let right ← expr
      expect .semicolon
      return some (.binary tok.pos .assign left right none)
    else
      expect .semicolon
      return some left

/-- A statement whose blocks are nested less than `depth` deep. -/
def statementWithin : (depth : Nat) → Parser (Option Node)
  | 0 => return none
  | depth + 1 => do
    let tok ← current
    match tok.kind with
    | .letWord => letStatement
    | .funcWord => funcStatement (statementWithin depth)
    | .ifWord => ifStatement (statementWithin depth)
    | .whileWord => whileStatement (statementWithin depth)
    | .returnWord => returnStatement
    | .importWord | .includeWord => importStatement
    | .passWord =>
      advance
      expect .semicolon
      return some (.pass tok.pos)
    | .semicolon | .illegal =>
      advance
      return none
    | _ => plainStatement

def program : Parser (List Node) := do
  let n ← bound
  statementsWithin (statementWithin n) .eof n

end Parser

/-- A program's statements and what was wrong with its text. -/
structure Parsed where
  body : List Node
  errors : List ParseError
  deriving Repr

namespace Program

def ofTokens (tokens : List Token) (eof : Position) : Parsed :=
  let (body, state) := Parser.program.run ⟨tokens, eof, []⟩
  ⟨body, state.errors⟩

/-- The program in a source file and the messages about it: first those about characters, then
those about tokens. -/
def ofSource (source : Bytes) : List Node × List Bytes :=
  let scan := Token.scanBytes source
  let parsed := ofTokens scan.tokens scan.eof
  (parsed.body, scan.errors.map LexError.message ++ parsed.errors.map ParseError.message)

end Program

end UnitScript
