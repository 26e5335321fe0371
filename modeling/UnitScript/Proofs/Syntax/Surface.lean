import UnitScript.Proofs.Syntax.Names

/-!
# Programs and their written form

The surface grammar: the trees that a program can be made of, among all the trees there are. Every
program of the grammar has a written form, a list of tokens in which parentheses stand only where the
levels of the operators and their grouping to the left ask for them, and a negative literal is a minus
in front of its digits. Places are left out on both sides: they are not part of what is written.
-/

namespace UnitScript

/-! ## Trees and tokens without places -/

def Token.unplaced (t : Token) : Token := { t with pos := .unknown }

namespace TypeExpr

def unplaced : TypeExpr → TypeExpr
  | named _ name => named .unknown name
  | callback _ => callback .unknown
  | callbackOf _ result => callbackOf .unknown result.unplaced

end TypeExpr

def Param.unplaced (p : Param) : Param := ⟨.unknown, p.name, p.type.map TypeExpr.unplaced⟩

namespace Node

mutual

def unplaced : Node → Node
  | number _ value => number .unknown value
  | string _ value => string .unknown value
  | array _ elements => array .unknown (unplacedAll elements)
  | ident _ name => ident .unknown name
  | binary _ op left right written =>
    binary .unknown op left.unplaced right.unplaced (written.map TypeExpr.unplaced)
  | index _ name i => index .unknown name i.unplaced
  | property _ object member => property .unknown object.unplaced member.unplaced
  | call _ callee args => call .unknown callee.unplaced (unplacedAll args)
  | cond _ test yes no => cond .unknown test.unplaced (unplacedAll yes) (unplacedAll no)
  | loop _ test body => loop .unknown test.unplaced (unplacedAll body)
  | ret _ value => ret .unknown value.unplaced
  | pass _ => pass .unknown
  | func _ name params result body =>
    func .unknown name (params.map Param.unplaced) (result.map TypeExpr.unplaced) (unplacedAll body)
  | importUnit _ name => importUnit .unknown name
  | param p => param p.unplaced
  | type t => type t.unplaced
  | program body => program (unplacedAll body)
  | missing => missing

def unplacedAll : List Node → List Node
  | [] => []
  | n :: rest => n.unplaced :: unplacedAll rest

end

/-- The trees are the same but for places. -/
def Alike (n m : Node) : Prop := m.unplaced = n.unplaced

def AllAlike (ns ms : List Node) : Prop := unplacedAll ms = unplacedAll ns

theorem unplacedAll_eq_map (ns : List Node) : unplacedAll ns = ns.map unplaced := by
  induction ns with
  | nil => rfl
  | cons n rest ih => rw [unplacedAll, ih, List.map_cons]

theorem AllAlike.cons {n m : Node} {ns ms : List Node} (h : n.Alike m) (hrest : AllAlike ns ms) :
    AllAlike (n :: ns) (m :: ms) := by
  unfold AllAlike at hrest ⊢
  rw [unplacedAll, unplacedAll, h, hrest]

end Node

/-! ## The grammar -/

namespace TypeExpr

def wordKinds : List TokenKind := [.numberType, .stringType, .structType, .nullType]

/-- A type that can be written: a plain one is one of the four words. -/
def IsWritten : TypeExpr → Prop
  | named _ name => TokenKind.ofWord name ∈ wordKinds
  | callback _ => True
  | callbackOf _ result => result.IsWritten

instance decidableIsWritten : (t : TypeExpr) → Decidable t.IsWritten
  | named _ name => inferInstanceAs (Decidable (TokenKind.ofWord name ∈ wordKinds))
  | callback _ => inferInstanceAs (Decidable True)
  | callbackOf _ result => decidableIsWritten result

end TypeExpr

namespace Node

/-- A name, or what starts with one: a call, an index read or a path. -/
def isNamed : Node → Bool
  | ident .. | index .. | call .. | property .. => true
  | _ => false

/-- The expressions. The object of a path is a name; its member is a name, a call, an index read or a
longer path. -/
inductive IsExpr : Node → Prop
  | number (pos : Position) (value : Int64) : IsExpr (number pos value)
  | string (pos : Position) (value : Bytes) : IsExpr (string pos value)
  | array (pos : Position) {elements : List Node} (h : ∀ e ∈ elements, IsExpr e) :
    IsExpr (array pos elements)
  | ident (pos : Position) (name : Name) : IsExpr (ident pos name)
  | index (pos : Position) (name : Name) {i : Node} (h : IsExpr i) : IsExpr (index pos name i)
  | call (pos place : Position) (name : Name) {args : List Node} (h : ∀ a ∈ args, IsExpr a) :
    IsExpr (call pos (ident place name) args)
  | property (pos place : Position) (name : Name) {member : Node} (h : IsExpr member)
    (hnamed : member.isNamed) : IsExpr (property pos (ident place name) member)
  | binary (pos : Position) {op : Operator} {left right : Node}
    (hop : op.isArithmetic || op.isComparison) (hleft : IsExpr left) (hright : IsExpr right) :
    IsExpr (binary pos op left right none)

/-- The statements. -/
inductive IsStatement : Node → Prop
  | expr {e : Node} (h : IsExpr e) : IsStatement e
  | declare (pos place : Position) (name : Name) {type : Option TypeExpr} {value : Node}
    (htype : ∀ t ∈ type, t.IsWritten) (h : IsExpr value) :
    IsStatement (binary pos .declare (ident place name) value type)
  | assign (pos : Position) {target value : Node} (htarget : IsExpr target) (h : IsExpr value) :
    IsStatement (binary pos .assign target value none)
  | func (pos : Position) (name : Name) {params : List Param} {result : Option TypeExpr}
    {body : List Node} (hparams : ∀ p ∈ params, ∀ t ∈ p.type, t.IsWritten)
    (hresult : ∀ t ∈ result, t.IsWritten) (hbody : ∀ n ∈ body, IsStatement n) :
    IsStatement (func pos name params result body)
  | cond (pos : Position) {test : Node} {yes no : List Node} (htest : IsExpr test)
    (hyes : ∀ n ∈ yes, IsStatement n) (hno : ∀ n ∈ no, IsStatement n) :
    IsStatement (cond pos test yes no)
  | loop (pos : Position) {test : Node} {body : List Node} (htest : IsExpr test)
    (hbody : ∀ n ∈ body, IsStatement n) : IsStatement (loop pos test body)
  | ret (pos : Position) {value : Node} (h : IsExpr value) : IsStatement (ret pos value)
  | bareRet (pos : Position) : IsStatement (ret pos missing)
  | pass (pos : Position) : IsStatement (pass pos)
  | importUnit (pos : Position) (name : Name) : IsStatement (importUnit pos name)

end Node

/-! ## The written form -/

/-- How the words and symbols of fixed text are written. -/
def TokenKind.spelling : TokenKind → Bytes
  | letWord => "let"
  | funcWord => "func"
  | ifWord => "if"
  | elseWord => "else"
  | whileWord => "while"
  | returnWord => "return"
  | importWord => "import"
  | includeWord => "include"
  | passWord => "pass"
  | assign => "="
  | plus => "+"
  | minus => "-"
  | star => "*"
  | slash => "/"
  | eq => "=="
  | notEq => "!="
  | lt => "<"
  | ltEq => "<="
  | gt => ">"
  | gtEq => ">="
  | comma => ","
  | semicolon => ";"
  | dot => "."
  | colon => ":"
  | lParen => "("
  | rParen => ")"
  | lBrace => "\x7b"
  | rBrace => "\x7d"
  | lBracket => "["
  | rBracket => "]"
  | _ => []

namespace Token

def fixed (kind : TokenKind) : Token := ⟨kind, kind.spelling, .unknown⟩

def name (x : Name) : Token := ⟨.ident, x, .unknown⟩

def digits (n : Nat) : Token := ⟨.int, Bytes.ofNat n, .unknown⟩

end Token

open Token (fixed)

namespace TypeExpr

def tokens : TypeExpr → List Token
  | named _ name => [⟨TokenKind.ofWord name, name, .unknown⟩]
  | callback _ => [fixed .funcWord]
  | callbackOf _ result => fixed .funcWord :: fixed .lt :: (result.tokens ++ [fixed .gt])

def annotationTokens : Option TypeExpr → List Token
  | none => []
  | some t => fixed .colon :: t.tokens

end TypeExpr

def Param.tokens (p : Param) : List Token := .name p.name :: TypeExpr.annotationTokens p.type

namespace Operator

/-- The kind of an operator's token. -/
def symbol : Operator → TokenKind
  | add => .plus
  | sub => .minus
  | mul => .star
  | div => .slash
  | eq => .eq
  | ne => .notEq
  | lt => .lt
  | le => .ltEq
  | gt => .gt
  | ge => .gtEq
  | assign => .assign
  | declare => .letWord
  | other _ => .illegal

/-- How loosely an operator binds: products most tightly, then sums, then comparisons. -/
def looseness : Operator → Nat
  | mul | div => 1
  | add | sub => 2
  | _ => 3

end Operator

/-- Lists of tokens with commas between them. -/
def Token.listed : List (List Token) → List Token
  | [] => []
  | [item] => item
  | item :: next :: rest => item ++ fixed .comma :: listed (next :: rest)

namespace Node

/-- How loosely the outermost operator of an expression binds; what is no operation binds most
tightly. -/
def looseness : Node → Nat
  | binary _ op _ _ _ => op.looseness
  | _ => 0

/-- An operand whose tokens are `inner`, in a place where nothing looser than `limit` may stand. -/
def inParens (limit : Nat) (e : Node) (inner : List Token) : List Token :=
  if limit < e.looseness then fixed .lParen :: (inner ++ [fixed .rParen]) else inner

mutual

/-- The tokens of an expression. The right operand of an operator binds more tightly than it. -/
def tokens : Node → List Token
  | number _ value =>
    if value < 0 then [fixed .minus, .digits value.toInt.natAbs] else [.digits value.toInt.natAbs]
  | string _ value => [⟨.string, value, .unknown⟩]
  | array _ elements =>
    fixed .lBracket :: (Token.listed (tokensOfAll elements) ++ [fixed .rBracket])
  | ident _ name => [.name name]
  | index _ name i => .name name :: fixed .lBracket :: (i.tokens ++ [fixed .rBracket])
  | property _ object member => object.tokens ++ fixed .dot :: member.tokens
  | call _ callee args =>
    callee.tokens ++ fixed .lParen :: (Token.listed (tokensOfAll args) ++ [fixed .rParen])
  | binary _ op left right _ =>
    inParens op.looseness left left.tokens ++
      fixed op.symbol :: inParens (op.looseness - 1) right right.tokens
  | _ => []

def tokensOfAll : List Node → List (List Token)
  | [] => []
  | n :: rest => n.tokens :: tokensOfAll rest

end

def inBraces (inner : List Token) : List Token := fixed .lBrace :: (inner ++ [fixed .rBrace])

/-- What follows the block of a conditional; `inner` are the tokens of its other branch. A branch that
is a conditional itself needs no block. -/
def otherwise (no : List Node) (inner : List Token) : List Token :=
  match no with
  | [] => []
  | [cond ..] => fixed .elseWord :: inner
  | _ => fixed .elseWord :: inBraces inner

def pathTokens : List Name → List Token
  | [] => []
  | first :: rest => .name first :: rest.flatMap fun part => [fixed .dot, .name part]

mutual

/-- The tokens of a statement. -/
def statementTokens : Node → List Token
  | binary pos op left right written =>
    match op with
    | .declare =>
      fixed .letWord :: (left.tokens ++ (TypeExpr.annotationTokens written ++
        fixed .assign :: (right.tokens ++ [fixed .semicolon])))
    | .assign => left.tokens ++ fixed .assign :: (right.tokens ++ [fixed .semicolon])
    | _ => (binary pos op left right written).tokens ++ [fixed .semicolon]
  | func _ name params result body =>
    fixed .funcWord :: .name name :: fixed .lParen :: (Token.listed (params.map Param.tokens) ++
      fixed .rParen :: (TypeExpr.annotationTokens result ++ inBraces (blockTokens body)))
  | cond _ test yes no =>
    fixed .ifWord :: (test.tokens ++ (inBraces (blockTokens yes) ++ otherwise no (blockTokens no)))
  | loop _ test body => fixed .whileWord :: (test.tokens ++ inBraces (blockTokens body))
  | ret _ value => fixed .returnWord :: (value.tokens ++ [fixed .semicolon])
  | pass _ => [fixed .passWord, fixed .semicolon]
  | importUnit _ name => fixed .importWord :: (pathTokens (Bytes.splitOn 46 name) ++ [fixed .semicolon])
  | n => n.tokens ++ [fixed .semicolon]

def blockTokens : List Node → List Token
  | [] => []
  | n :: rest => n.statementTokens ++ blockTokens rest

end

end Node

def Program.tokens (body : List Node) : List Token := Node.blockTokens body

end UnitScript
