import UnitScript.Lowering.Expr

/-!
# Compiling statements and units

The first node that cannot be compiled abandons the whole unit. A function body is a stream of its
own: it has local scratch cells, its data goes to the unit after it is complete, and its name becomes
known only then. `CodeUnit.compile` is the entry point.
-/

namespace UnitScript

namespace Lowering

/-- Records the kind of a name in the innermost block. -/
def declare (pos : Position) (name : Name) (kind : Kind) : Lower Unit := do
  let st ← get
  match st.symbols.declare name kind with
  | .ok symbols => set { st with symbols := symbols }
  | .error e => throw (.because .duplicateDeclaration pos (.symbol e))

/-- Adds data to the stream's own. -/
def mergeData (pos : Position) (more : List Datum) : Lower Unit := do
  let st ← get
  match Datum.merge st.data more with
  | (data, none) => set { st with data := data }
  | (_, some name) => throw (.because .unsupportedConstruct pos (.data name))

/-- The code that brings the value of a node within reach, and the operand that reads it. -/
def value (ctx : Context) (n : Node) : Lower (Code × Operand) := do
  match ← direct? ctx n with
  | some src => return ([], src)
  | none => expr ctx .none n

/-- Moves the value of a node into a cell. -/
def store (ctx : Context) (n : Node) (name : Name) : Lower Code := do
  let (code, src) ← value ctx n
  return code ++ [.mov src (.cell name)]

/-- The kind of a declared cell: the written one, else that of the initializer. -/
def declaredKind (type : Option TypeExpr) (init : Node) : Lower Kind := do
  let written := Kind.ofWritten type
  if written.tag ≠ .undefined then return written
  match (← get).symbols.infer init with
  | .ok kind => return kind
  | .error e => throw (.because .unresolvedSymbol init.pos (.symbol e))

/-- `let target = init`: the cell, then the store. -/
def declareCell (ctx : Context) (pos : Position) (target init : Node) (type : Option TypeExpr) :
    Lower Code := do
  let .ident namePos name := target
    | throw (.ofNode .invalidDeclarationTarget target ("cannot declare " ++ target.shape))
  if ctx.scratch.isReserved name then
    throw (.mk .invalidDeclarationTarget namePos (Text.quoted name ++ " is a scratch slot") .none)
  let kind ← declaredKind type init
  if Storage.ofKind kind = .none then
    throw (.mk .unsupportedConstruct pos
      ("cannot declare " ++ Text.quoted name ++ " with kind " ++ kind.text) .none)
  declare namePos name kind
  return .var (.ofKind kind) name :: (← store ctx init name)

/-- `target = source`. -/
def assign (ctx : Context) (target source : Node) : Lower Code := do
  let .ident namePos name := target
    | throw (.ofNode .invalidAssignmentTarget target ("cannot assign to " ++ target.shape))
  if ctx.scratch.isReserved name then
    throw (.mk .invalidAssignmentTarget namePos (Text.quoted name ++ " is a scratch slot") .none)
  if (← kindOf? name).isNone then
    throw (.because .unresolvedSymbol namePos (.symbol (.unresolved name)))
  store ctx source name

/-- Puts the instructions of an imported unit in place and takes over its data. -/
def splice (ctx : Context) (pos : Position) (name : Name) : Lower Code := do
  match ctx.includer with
  | none =>
    throw (.mk .unsupportedConstruct pos
      ("import " ++ Text.quoted name ++ ": no include resolver configured") .none)
  | some includer =>
    match includer name with
    | .error e => throw (.because .unresolvedSymbol pos (.inclusion e))
    | .ok unit =>
      mergeData pos unit.data
      return unit.code

/-- Declares the parameters of a function and gives their slots. -/
def parameters (ctx : Context) : List Param → Lower (List Slot)
  | [] => return []
  | p :: rest => do
    let kind := Kind.orNumber p.type
    if ctx.scratch.isReserved p.name then
      throw (.mk .invalidDeclarationTarget p.pos
        ("parameter " ++ Text.quoted p.name ++ " is a scratch slot") .none)
    if Storage.ofKind kind = .none then
      throw (.mk .unsupportedConstruct p.pos
        ("parameter " ++ Text.quoted p.name ++ " cannot have kind " ++ kind.text) .none)
    declare p.pos p.name kind
    return ⟨p.name, .ofKind kind⟩ :: (← parameters ctx rest)

/-- Runs an action in a block of its own. -/
def inBlock {α : Type} (act : Lower α) : Lower α := do
  modify fun st => { st with symbols := st.symbols.enter }
  let a ← act
  modify fun st => { st with symbols := st.symbols.leave }
  return a

/-- Runs an action with data of its own, and gives that data beside its result. -/
def withOwnData {α : Type} (act : Lower α) : Lower (α × List Datum) := do
  let outer := (← get).data
  modify fun st => { st with data := [] }
  let a ← act
  let own := (← get).data
  modify fun st => { st with data := outer }
  return (a, own)

/-- The branch of a conditional that is taken on zero comes last. A jump to the number of children
leaves the scope. -/
def condScope (test : Operand) (yes no : Code) : Instruction :=
  .scope [.jeq test (.imm 0) 3, .scope yes, .jmp 4, .scope no]

/-- The test is computed anew before each round. -/
def loopScope (testCode : Code) (test : Operand) (body : Code) : Instruction :=
  .scope [.scope testCode, .jeq test (.imm 0) 4, .scope body, .jmp 0]

/-- Emits a function record; `body` produces the function's own stream and its slots. -/
def function (ctx : Context) (pos : Position) (name : Name) (result : Option TypeExpr)
    (body : Context → Lower (List Slot × Code)) : Lower Code := do
  let kind := Kind.orNumber result
  if ctx.scratch.isReserved name then
    throw (.mk .invalidDeclarationTarget pos (Text.quoted name ++ " is a scratch slot") .none)
  let ((params, code), data) ←
    withOwnData (inBlock (body { ctx with depth := ctx.depth + 1 }))
  mergeData pos data
  match Encoding.code code with
  | .error e => throw (.because .unsupportedConstruct pos (.encoding e))
  | .ok encoded =>
    declare pos name kind
    if ctx.depth = 0 then
      modify fun st => { st with exports := st.exports.insert name kind }
    return [.function ⟨name, params, .ofKind kind, encoded⟩]

mutual

/-- The code of a statement. An expression leaves its value in a scratch cell. -/
def stmt (ctx : Context) : Node → Lower Code
  | .binary pos op left right type =>
    match op with
    | .declare => declareCell ctx pos left right type
    | .assign => assign ctx left right
    | _ => Prod.fst <$> expr ctx .none (.binary pos op left right type)
  | .cond _ test yes no => do
    let (code, place) ← expr ctx .none test
    let yesCode ← inBlock (stmts ctx yes)
    let noCode ← inBlock (stmts ctx no)
    return code ++ [condScope place yesCode noCode]
  | .loop _ test body => do
    let (code, place) ← expr ctx .none test
    let bodyCode ← inBlock (stmts ctx body)
    return [loopScope code place bodyCode]
  | .func pos name params result body =>
    function ctx pos name result fun inner => do
      let slots ← parameters inner params
      return (slots, inner.scratch.declarations ++ (← stmts inner body))
  | .ret _ .missing => return [.ret []]
  | .ret _ n => do
    let (code, src) ← value ctx n
    return code ++ [.ret [src]]
  | .importUnit pos name => splice ctx pos name
  | .pass _ => return [.nop]
  | .missing => throw (.mk .unsupportedConstruct .unknown "empty statement" .none)
  | n => Prod.fst <$> expr ctx .none n

def stmts (ctx : Context) : List Node → Lower Code
  | [] => return []
  | n :: rest => do
    let code ← stmt ctx n
    return code ++ (← stmts ctx rest)

end

end Lowering

/-- How a unit is compiled: its name, the kinds of the names from elsewhere, the scratch names, and
where imports come from. -/
structure CompileOptions where
  name : Name := []
  prelude : Prelude := .empty
  scratch : Scratch := {}
  includer : Option (Name → Except IncludeError CodeUnit) := none

inductive CompileFailure where
  | noProgram
  | scratch (e : ScratchError)
  | error (e : CompileError)

namespace CompileFailure

def message : CompileFailure → Bytes
  | noProgram => "nil program"
  | scratch e => e.message
  | error e => e.message

end CompileFailure

namespace CodeUnit

/-- The name of a unit that is given none. -/
def defaultName : Name := Bytes.ofString "main"

/-- Compiles a program. The unit does not declare its own scratch cells. -/
def compile (o : CompileOptions) : Node → Except CompileFailure CodeUnit
  | .program body =>
    match o.scratch.validate with
    | .error e => .error (.scratch e)
    | .ok () =>
      let name := if o.name.isEmpty then defaultName else o.name
      let ctx : Lowering.Context :=
        { unitName := name, scratch := o.scratch.withDefaults, includer := o.includer, depth := 0 }
      let start : Lowering.State :=
        { symbols := .ofPrelude o.prelude, strings := 0, data := [], exports := .empty }
      match (Lowering.stmts ctx body).run start with
      | .error e => .error (.error e)
      | .ok (code, st) => .ok { name := name, data := st.data, exports := st.exports, code := code }
  | _ => .error .noProgram

end CodeUnit

end UnitScript
