import UnitScript.Module.Imports
import UnitScript.Proofs.Syntax.Expressions

/-!
# The parser without bounds

The functions of the parser count down bounds on what can still be read. Here they stand as plain
mutual recursion, with a computation that need not end as their result; `none` is what never ends. A
run of the parser from a state is compared with the run of its unbounded companion: they give the same
result, and there is no more left to read than before. Every name in the tree is the lexeme of a name
token, each element of an array literal takes a token at least, and if nothing was reported then the
tree is whole.
-/

namespace UnitScript

namespace Node

mutual

/-- Nothing is missing in the tree, except the value of a bare `return`, and what is in front of a dot
is always a name. -/
def isComplete : Node → Bool
  | missing => false
  | array _ elements => allComplete elements
  | binary _ _ left right _ => left.isComplete && right.isComplete
  | index _ _ i => i.isComplete
  | property _ (ident ..) member => member.isComplete
  | property .. => false
  | call _ callee args => callee.isComplete && allComplete args
  | cond _ test yes no => test.isComplete && allComplete yes && allComplete no
  | loop _ test body => test.isComplete && allComplete body
  | ret _ value => value.isMissing || value.isComplete
  | func _ _ _ _ body => allComplete body
  | program body => allComplete body
  | number .. | string .. | ident .. | pass _ | importUnit .. | param _ | type _ => true

def allComplete : List Node → Bool
  | [] => true
  | n :: rest => n.isComplete && allComplete rest

end

theorem allComplete_eq_true {ns : List Node} :
    allComplete ns = true ↔ ∀ n ∈ ns, n.isComplete = true := by
  induction ns with
  | nil => simp [allComplete]
  | cons n rest ih => simp [allComplete, ih]

/-- A tree that is there takes a token at least, and each import inside of it one more. -/
def weight (n : Node) : Nat := if n.isMissing then 0 else n.imports.length + 1

theorem weight_missing : missing.weight = 0 := rfl

theorem weight_of_imports_nil {n : Node} (hpresent : n.isMissing = false) (h : n.imports = []) :
    n.weight = 1 := by
  rw [weight, hpresent, h]
  rfl

/-- What is asked of trees that are read: a property of their names, a bound on the lengths of their
array literals, and that nothing is missing in them if nothing is reported in the end. -/
structure Aim where
  named : Name → Prop
  bound : Nat
  silent : Prop

/-- The tree is as it is asked for. -/
structure Meets (a : Aim) (n : Node) : Prop extends n.Built a.named a.bound where
  complete : a.silent → n.isComplete = true

abbrev AllMeet (a : Aim) (ns : List Node) : Prop := ∀ n ∈ ns, n.Meets a

section Meets

variable {a : Aim} {pos place : Position} {name : Name} {n left right : Node} {ns : List Node}

theorem AllMeet.built (h : AllMeet a ns) : AllBuilt a.named a.bound ns := fun n hn => (h n hn).toBuilt

theorem AllMeet.complete (h : AllMeet a ns) (hs : a.silent) : allComplete ns = true :=
  allComplete_eq_true.2 fun n hn => (h n hn).complete hs

theorem meets_leaf (hnames : n.names = []) (hsizes : n.sizes = [])
    (hn : a.silent → n.isComplete = true) : n.Meets a := by
  refine ⟨⟨?_, ?_⟩, hn⟩
  · rw [hnames]
    exact List.forall_mem_nil _
  · rw [hsizes]
    exact List.forall_mem_nil _

theorem meets_ident (h : a.named name) : (ident pos name).Meets a := by
  refine ⟨⟨fun x hx => ?_, List.forall_mem_nil _⟩, fun _ => rfl⟩
  rw [List.mem_singleton.1 hx]
  exact h

theorem meets_binary {op : Operator} {type : Option TypeExpr} (hl : left.Meets a)
    (hr : right.Meets a) : (binary pos op left right type).Meets a :=
  ⟨⟨List.forall_mem_append.2 ⟨hl.names, hr.names⟩, List.forall_mem_append.2 ⟨hl.sizes, hr.sizes⟩⟩,
    fun hs => Bool.and_eq_true_iff.2 ⟨hl.complete hs, hr.complete hs⟩⟩

theorem meets_index (h : a.named name) (hn : n.Meets a) : (index pos name n).Meets a :=
  ⟨⟨List.forall_mem_cons.2 ⟨h, hn.names⟩, hn.sizes⟩, hn.complete⟩

theorem meets_property (h : a.named name) (hn : n.Meets a) :
    (property pos (ident place name) n).Meets a :=
  ⟨⟨List.forall_mem_cons.2 ⟨h, hn.names⟩, hn.sizes⟩, hn.complete⟩

theorem meets_call (h : a.named name) (hargs : AllMeet a ns) :
    (call pos (ident place name) ns).Meets a :=
  ⟨⟨List.forall_mem_cons.2 ⟨h, hargs.built.names⟩, hargs.built.sizes⟩, hargs.complete⟩

theorem meets_array (h : AllMeet a ns) (hlength : ns.length ≤ a.bound) : (array pos ns).Meets a :=
  ⟨⟨h.built.names, List.forall_mem_cons.2 ⟨hlength, h.built.sizes⟩⟩, h.complete⟩

theorem meets_func {params : List Param} {result : Option TypeExpr} (h : a.named name)
    (hparams : ∀ p ∈ params, a.named p.name) (hbody : AllMeet a ns) :
    (func pos name params result ns).Meets a := by
  refine ⟨⟨List.forall_mem_cons.2 ⟨h, List.forall_mem_append.2 ⟨fun x hx => ?_,
    hbody.built.names⟩⟩, hbody.built.sizes⟩, hbody.complete⟩
  obtain ⟨p, hp, rfl⟩ := List.mem_map.1 hx
  exact hparams p hp

theorem meets_cond {no : List Node} (ht : n.Meets a) (hyes : AllMeet a ns) (hno : AllMeet a no) :
    (cond pos n ns no).Meets a :=
  ⟨⟨List.forall_mem_append.2 ⟨List.forall_mem_append.2 ⟨ht.names, hyes.built.names⟩, hno.built.names⟩,
    List.forall_mem_append.2 ⟨List.forall_mem_append.2 ⟨ht.sizes, hyes.built.sizes⟩, hno.built.sizes⟩⟩,
    fun hs => Bool.and_eq_true_iff.2
      ⟨Bool.and_eq_true_iff.2 ⟨ht.complete hs, hyes.complete hs⟩, hno.complete hs⟩⟩

theorem meets_loop (ht : n.Meets a) (hbody : AllMeet a ns) : (loop pos n ns).Meets a :=
  ⟨⟨List.forall_mem_append.2 ⟨ht.names, hbody.built.names⟩,
    List.forall_mem_append.2 ⟨ht.sizes, hbody.built.sizes⟩⟩,
    fun hs => Bool.and_eq_true_iff.2 ⟨ht.complete hs, hbody.complete hs⟩⟩

theorem meets_ret (h : n.Meets a) : (ret pos n).Meets a :=
  ⟨⟨h.names, h.sizes⟩, fun hs => Bool.or_eq_true_iff.2 (.inr (h.complete hs))⟩

theorem meets_negated (h : n.Meets a) : (Parser.negated pos n).Meets a := by
  cases n with
  | number => exact meets_leaf rfl rfl fun _ => rfl
  | _ => exact meets_binary (meets_leaf rfl rfl fun _ => rfl) h

end Meets

end Node

/-- A parser that need not come to an end. -/
abbrev Descent := StateT ParseState Option

instance : MonadLift Parser Descent := ⟨fun p s => some (p s)⟩

namespace Descent

open UnitScript.Parser (current advance report expect literal negated levelOperator?)

-- Calls of what is being defined are given by `apply`, which keeps no source positions in the terms.

def type : Descent (Option TypeExpr) := do
  let tok ← current
  match tok.kind with
  | .numberType | .stringType | .structType | .nullType =>
    advance
    return some (.named tok.pos tok.lexeme)
  | .funcWord =>
    advance
    if (← current).kind = .lt then
      advance
      let result ← by apply type
      expect .gt
      match result with
      | some t => return some (.callbackOf tok.pos t)
      | none => return some (.callback tok.pos)
    else return some (.callback tok.pos)
  | _ =>
    report tok.pos (.noType tok)
    advance
    return none
partial_fixpoint

def annotation : Descent (Option TypeExpr) := do
  if (← current).kind = .colon then
    advance
    type
  else return none

mutual

/-- An expression with the operators of the levels up to `j`. -/
def upTo : (j : Nat) → Descent Node
  | 0 => by apply unary
  | j + 1 => do
    let left ← by apply upTo; exact j
    by apply chain; exact j; exact left
partial_fixpoint

/-- Extends `left` by the operators of the level above `j`. -/
def chain (j : Nat) (left : Node) : Descent Node := do
  let tok ← current
  match levelOperator? (j + 1) tok.kind with
  | none => return left
  | some op =>
    advance
    let right ← by apply upTo; exact j
    by apply chain; exact j; exact .binary tok.pos op left right none
partial_fixpoint

def unary : Descent Node := do
  let minus ← current
  if minus.kind ≠ .minus then by apply primary
  else
    advance
    let tok ← current
    if tok.kind = .int then
      advance
      literal minus.pos true tok
    else return negated minus.pos (← by apply unary)
partial_fixpoint

def primary : Descent Node := do
  let tok ← current
  match tok.kind with
  | .int =>
    advance
    literal tok.pos false tok
  | .string =>
    advance
    return .string tok.pos tok.lexeme
  | .lBracket =>
    advance
    return .array tok.pos (← by apply bracketed; exact .rBracket)
  | .lParen =>
    advance
    let inner ← by apply upTo; exact 3
    expect .rParen
    return inner
  | .ident => by apply named
  | _ =>
    report tok.pos (.noExpression tok)
    return .missing
partial_fixpoint

def named : Descent Node := do
  let name ← current
  advance
  let tok ← current
  match tok.kind with
  | .lParen =>
    advance
    return .call tok.pos (.ident name.pos name.lexeme) (← by apply bracketed; exact .rParen)
  | .lBracket =>
    advance
    let index ← by apply upTo; exact 3
    expect .rBracket
    return .index name.pos name.lexeme index
  | .dot =>
    advance
    let member ← current
    if member.kind ≠ .ident then
      report member.pos .noMember
      return .ident name.pos name.lexeme
    else
      return .property tok.pos (.ident name.pos name.lexeme) (← by apply named)
  | _ => return .ident name.pos name.lexeme
partial_fixpoint

def items : Descent (List Node) := do
  let x ← by apply upTo; exact 3
  if (← current).kind = .comma then
    advance
    return x :: (← by apply items)
  else return [x]
partial_fixpoint

def bracketed (close : TokenKind) : Descent (List Node) := do
  let nodes ← if (← current).kind = close then pure [] else by apply items
  expect close
  return nodes
partial_fixpoint

end

def expr : Descent Node := upTo 3

def params : Descent (List Param) := do
  let tok ← current
  if tok.kind ≠ .ident then
    report tok.pos .noParameterName
    return []
  else
    advance
    let param : Param := ⟨tok.pos, tok.lexeme, ← annotation⟩
    if (← current).kind = .comma then
      advance
      return param :: (← by apply params)
    else return [param]
partial_fixpoint

def letStatement : Descent (Option Node) := do
  let start ← current
  advance
  let name ← current
  if name.kind ≠ .ident then
    report name.pos .noVariableName
    return none
  else
    advance
    let type ← annotation
    expect .assign
    let value ← expr
    expect .semicolon
    return some (.binary start.pos .declare (.ident name.pos name.lexeme) value type)

def returnStatement : Descent (Option Node) := do
  let start ← current
  advance
  let value ← if (← current).kind = .semicolon then pure .missing else expr
  expect .semicolon
  return some (.ret start.pos value)

def modulePath : Descent (List Bytes) := do
  if (← current).kind ≠ .dot then return []
  else
    advance
    let tok ← current
    if tok.kind ≠ .ident then
      report tok.pos .noModuleMember
      return []
    else
      advance
      return tok.lexeme :: (← by apply modulePath)
partial_fixpoint

def importStatement : Descent (Option Node) := do
  let start ← current
  advance
  let first ← current
  if first.kind ≠ .ident then
    report first.pos (.noModuleName start.lexeme)
    return none
  else
    advance
    let rest ← modulePath
    expect .semicolon
    return some (.importUnit start.pos (Bytes.join "." (first.lexeme :: rest)))

def plainStatement : Descent (Option Node) := do
  let left ← expr
  if left.isMissing then
    advance
    return none
  else
    let tok ← current
    if tok.kind = .assign then
      advance
      let right ← expr
      expect .semicolon
      return some (.binary tok.pos .assign left right none)
    else
      expect .semicolon
      return some left

mutual

def statement : Descent (Option Node) := do
  let tok ← current
  match tok.kind with
  | .letWord => letStatement
  | .funcWord => by apply funcStatement
  | .ifWord => by apply ifStatement
  | .whileWord => by apply whileStatement
  | .returnWord => returnStatement
  | .importWord | .includeWord => importStatement
  | .passWord =>
    advance
    expect .semicolon
    return some (.pass tok.pos)
  | .semicolon | .illegal =>
    advance
    return none
  | _ => plainStatement
partial_fixpoint

/-- Statements up to a token of the kind `close` or to the end of the text. -/
def statements (close : TokenKind) : Descent (List Node) := do
  let kind := (← current).kind
  if kind = close ∨ kind = .eof then return []
  else
    let node : Option Node ← by apply statement
    return node.toList ++ (← by apply statements; exact close)
partial_fixpoint

def block : Descent (List Node) := do
  expect .lBrace
  let body ← by apply statements; exact .rBrace
  let tok ← current
  if tok.kind = .rBrace then advance else report tok.pos .unclosedBlock
  return body
partial_fixpoint

def funcStatement : Descent (Option Node) := do
  advance
  let name ← current
  if name.kind ≠ .ident then
    report name.pos .noFunctionName
    return none
  else
    advance
    expect .lParen
    let params ← if (← current).kind = .rParen then pure [] else params
    expect .rParen
    let result ← annotation
    let body ← by apply block
    return some (.func name.pos name.lexeme params result body)
partial_fixpoint

def ifStatement : Descent (Option Node) := do
  let start ← current
  advance
  let test ← expr
  let yes ← by apply block
  if (← current).kind = .elseWord then
    advance
    let no ← if (← current).kind = .ifWord then Option.toList <$> by apply statement else by apply block
    return some (.cond start.pos test yes no)
  else return some (.cond start.pos test yes [])
partial_fixpoint

def whileStatement : Descent (Option Node) := do
  let start ← current
  advance
  let test ← expr
  let body ← by apply block
  return some (.loop start.pos test body)
partial_fixpoint

end

def program : Descent (List Node) := statements .eof

end Descent

namespace Parser

/-- The names among the tokens still to be read have the property, and there are fewer tokens than
the bound. -/
structure Good (a : Node.Aim) (s : ParseState) : Prop where
  named : ∀ t ∈ s.rest, t.Named a.named
  length : s.rest.length + 1 ≤ a.bound

/-- From `s` the parser `p` and its unbounded companion `c` do the same, and tokens are only taken.
What the result weighs and what is left to read are together at most `m`, and no report is taken back.
From good tokens, and if nothing is reported where silence is asked for, the result has the property
`P`. -/
structure Run {α : Type} (a : Node.Aim) (m : Nat) (s : ParseState) (p : Parser α) (c : Descent α)
    (w : α → Nat) (P : α → Prop) : Prop where
  same : c s = some (p s)
  suffix : (p s).2.rest <:+ s.rest
  length : w (p s).1 + (p s).2.rest.length ≤ m
  reported : (p s).2.errors = [] → s.errors = []
  result : Good a s → (a.silent → (p s).2.errors = []) → P (p s).1

section Rules

variable {α β : Type} {a : Node.Aim} {k m : Nat} {s s' : ParseState} {p q : Parser α}
  {c d : Descent α} {f : α → Parser β} {g : α → Descent β} {w : α → Nat} {v : β → Nat}
  {P P' : α → Prop} {Q : β → Prop}

theorem Good.of_suffix (h : Good a s) (hs : s'.rest <:+ s.rest) : Good a s' where
  named t ht := h.named t (hs.subset ht)
  length := Nat.le_trans (Nat.succ_le_succ hs.length_le) h.length

theorem Good.head (h : Good a s) (hk : (head s).kind = .ident) : a.named (head s).lexeme := by
  unfold Parser.head at hk ⊢
  cases hr : s.rest with
  | nil =>
    rw [hr] at hk
    cases hk
  | cons t rest =>
    rw [hr] at hk
    exact h.named t (by rw [hr]; exact List.mem_cons_self) hk

theorem run_pure {x : α} (hlength : w x + s.rest.length ≤ m) (h : P x) :
    Run a m s (pure x) (pure x) w P :=
  ⟨rfl, List.suffix_refl _, hlength, id, fun _ _ => h⟩

theorem Run.bind (h : Run a m s p c w P)
    (hf : ∀ x s', w x + s'.rest.length ≤ m → Run a k s' (f x) (g x) v fun y => P x → Q y) :
    Run a k s (p >>= f) (c >>= g) v Q := by
  have hnext := hf (p s).1 (p s).2 h.length
  refine ⟨?_, hnext.suffix.trans h.suffix, hnext.length, fun he => h.reported (hnext.reported he),
    fun hs he => ?_⟩
  · have hrun : (c >>= g) s = (c s).bind fun x => g x.1 x.2 := rfl
    rw [hrun, h.same]
    exact hnext.same
  · exact hnext.result (hs.of_suffix h.suffix) he (h.result hs fun hsilent => hnext.reported (he hsilent))

theorem Run.mono (h : Run a k s p c w P) (hle : k ≤ m) (hP : Good a s → ∀ x, P x → P' x) :
    Run a m s p c w P' where
  same := h.same
  suffix := h.suffix
  length := Nat.le_trans h.length hle
  reported := h.reported
  result hs he := hP hs _ (h.result hs he)

theorem Run.map {f : α → β} (h : Run a m s p c w P) (hw : ∀ x, v (f x) = w x)
    (hP : ∀ x, P x → Q (f x)) : Run a m s (f <$> p) (f <$> c) v Q := by
  refine ⟨?_, h.suffix, ?_, h.reported, fun hs he => hP _ (h.result hs he)⟩
  · have hrun : (f <$> c) s = (c s).bind fun x => some (f x.1, x.2) := rfl
    rw [hrun, h.same]
    rfl
  · exact Nat.le_trans (Nat.le_of_eq (congrArg (· + _) (hw _))) h.length

/-- A parser without a bound is its own companion. -/
theorem run_lift {x : α} (hrun : p s = (x, s')) (hsuffix : s'.rest <:+ s.rest)
    (hlength : w x + s'.rest.length ≤ m) (hreported : s'.errors = [] → s.errors = []) (hx : P x) :
    Run a m s p (liftM p) w P := by
  refine ⟨rfl, ?_, ?_, ?_, fun _ _ => ?_⟩
  · rw [hrun]
    exact hsuffix
  · rw [hrun]
    exact hlength
  · rw [hrun]
    exact hreported
  · rw [hrun]
    exact hx

theorem run_current {f : Token → Parser β} {g : Token → Descent β}
    (h : Run a k s (f (head s)) (g (head s)) v Q) :
    Run a k s (current >>= f) (liftM current >>= g) v Q :=
  ⟨h.same, h.suffix, h.length, h.reported, h.result⟩

theorem run_named (hk : (head s).kind = .ident)
    (h : Run a m s p c w fun x => a.named (head s).lexeme → P x) : Run a m s p c w P :=
  h.mono (Nat.le_refl _) fun hs _ hx => hx (hs.head hk)

theorem run_advance {f : Unit → Parser β} {g : Unit → Descent β}
    (h : ∀ s', s'.rest.length = s.rest.length - 1 → Run a k s' (f ()) (g ()) v Q) :
    Run a k s (advance >>= f) (liftM advance >>= g) v Q := by
  have hnext := h ⟨s.rest.tail, s.eof, s.errors⟩ List.length_tail
  exact ⟨hnext.same, hnext.suffix.trans (List.tail_suffix _), hnext.length, hnext.reported,
    fun hs => hnext.result (hs.of_suffix (List.tail_suffix _))⟩

theorem run_bound {f : Nat → Parser α} (h : Run a k s (f (s.rest.length + 1)) c w P) :
    Run a k s (bound >>= f) c w P :=
  ⟨h.same, h.suffix, h.length, h.reported, h.result⟩

theorem run_report {pos : Position} {fault : ParseFault} {f : Unit → Parser β} {g : Unit → Descent β}
    (h : ∀ s', s'.rest.length = s.rest.length →
      Run a k s' (f ()) (g ()) v fun y => ¬a.silent → Q y) :
    Run a k s (report pos fault >>= f) (liftM (report pos fault) >>= g) v Q := by
  have hnext := h ⟨s.rest, s.eof, s.errors ++ [⟨pos, fault⟩]⟩ rfl
  have hloud : ∀ {errors : List ParseError} {e : ParseError}, errors ++ [e] ≠ [] :=
    List.append_ne_nil_of_right_ne_nil _ (List.cons_ne_nil _ _)
  refine ⟨hnext.same, hnext.suffix, hnext.length, fun he => absurd (hnext.reported he) hloud, ?_⟩
  exact fun hs he => hnext.result ⟨hs.named, hs.length⟩ he fun hsilent =>
    hloud (hnext.reported (he hsilent))

theorem run_expect {want : TokenKind} {f : Unit → Parser β} {g : Unit → Descent β}
    (h : ∀ s', s'.rest.length ≤ s.rest.length → Run a k s' (f ()) (g ()) v Q) :
    Run a k s (expect want >>= f) (liftM (expect want) >>= g) v Q := by
  have hexpect : Run a s.rest.length s (expect want) (liftM (expect want)) (fun _ => 0)
      fun _ => True := by
    have hlength : 0 + s.rest.tail.length ≤ s.rest.length := by
      rw [List.length_tail]
      omega
    by_cases hk : (head s).kind ≠ want
    · have hrun : expect want s = ((), ⟨s.rest.tail, s.eof,
          s.errors ++ [⟨(head s).pos, .expected want (head s)⟩]⟩) := by
        rw [expect, current_bind, if_pos hk]
        rfl
      exact run_lift hrun (List.tail_suffix _) hlength (by simp) trivial
    · have hrun : expect want s = ((), ⟨s.rest.tail, s.eof, s.errors⟩) := by
        rw [expect, current_bind, if_neg hk]
        rfl
      exact run_lift hrun (List.tail_suffix _) hlength id trivial
  exact hexpect.bind fun _ s' hs' => (h s' (by omega)).mono (Nat.le_refl _) fun _ _ hQ _ => hQ

theorem run_ite {b : Prop} [Decidable b] (hp : b → Run a m s p c w P)
    (hq : ¬b → Run a m s q d w P) : Run a m s (if b then p else q) (if b then c else d) w P := by
  split
  · next hb => exact hp hb
  · next hb => exact hq hb

end Rules

theorem rest_pos {s : ParseState} {kind : TokenKind} (hk : (head s).kind = kind)
    (hkind : kind ≠ .eof) : 0 < s.rest.length := by
  cases hrest : s.rest with
  | nil =>
    have hhead : (head s).kind = .eof := by rw [head, hrest]; rfl
    exact absurd (hk.symm.trans hhead) hkind
  | cons t rest => exact Nat.succ_pos _

/-- The runs from all states with fewer than `d` tokens to be read. -/
def Runs {α : Type} (a : Node.Aim) (d : Nat) (p : Parser α) (c : Descent α) (w : α → Nat)
    (P : α → Prop) : Prop :=
  ∀ s, s.rest.length < d → Run a s.rest.length s p c w P

variable {a : Node.Aim} {d j m n : Nat} {s : ParseState} {left : Node}
  {expr operand : Parser Node}

/-! ## Types -/

theorem runs_typeWithin (d : Nat) :
    Runs a d (typeWithin d) Descent.type (fun _ => 0) fun t => a.silent → t.isSome = true := by
  induction d with
  | zero => exact fun s hs => absurd hs (Nat.not_lt_zero _)
  | succ d ih =>
    intro s hs
    rw [Descent.type]
    refine run_current ?_
    cases hk : (head s).kind with
    | numberType | stringType | structType | nullType =>
      exact run_advance fun s₁ h₁ => run_pure (by omega) fun _ => rfl
    | funcWord =>
      have hpos := rest_pos hk (by decide)
      refine run_advance fun s₁ h₁ => run_current (run_ite (fun _ => ?_) fun _ => ?_)
      · refine run_advance fun s₂ h₂ => (ih s₂ (by omega)).bind fun result s₃ h₃ => ?_
        refine run_expect fun s₄ h₄ => ?_
        cases result <;> exact run_pure (by omega) fun _ _ => rfl
      · exact run_pure (by omega) fun _ => rfl
    | _ =>
      refine run_report fun s₁ h₁ => run_advance fun s₂ h₂ => run_pure (by omega) ?_
      exact fun hloud hsilent => absurd hsilent hloud

theorem run_writtenType (s : ParseState) :
    Run a s.rest.length s annotation Descent.annotation (fun _ => 0) fun _ => True := by
  refine run_current (run_ite (fun _ => run_advance fun s₁ h₁ => run_bound ?_) fun _ => ?_)
  · exact (runs_typeWithin _ s₁ (Nat.lt_succ_self _)).mono (by omega) fun _ _ _ => trivial
  · exact run_pure (by omega) trivial

/-! ## Expressions -/

abbrev RunsExpr (a : Node.Aim) (d : Nat) (p : Parser Node) (c : Descent Node) : Prop :=
  Runs a d p c Node.weight (Node.Meets a)

theorem levelOperator?_eof (j : Nat) : levelOperator? j .eof = none := by
  unfold levelOperator?
  split <;> rfl

theorem run_chain (h : RunsExpr a d operand (Descent.upTo j)) (n : Nat) (hn : s.rest.length < n)
    (hd : s.rest.length < d) (hm : left.weight + s.rest.length ≤ m) :
    Run a m s (chain (levelOperator? (j + 1)) operand n left) (Descent.chain j left) Node.weight
      fun e => left.Meets a → e.Meets a := by
  induction n generalizing s left with
  | zero => exact absurd hn (Nat.not_lt_zero _)
  | succ n ih =>
    rw [Descent.chain]
    refine run_current ?_
    cases hop : levelOperator? (j + 1) (head s).kind with
    | none => exact run_pure hm id
    | some op =>
      have hpos : 0 < s.rest.length := by
        refine rest_pos rfl fun heof => ?_
        rw [heof, levelOperator?_eof] at hop
        cases hop
      refine run_advance fun s₁ h₁ => (h s₁ (by omega)).bind fun right s₂ h₂ => ?_
      have hweight : (Node.binary (head s).pos op left right none).weight = 1 :=
        Node.weight_of_imports_nil rfl rfl
      refine (ih (by omega) (by omega) (by omega)).mono (Nat.le_refl _) fun _ e he hright hleft => ?_
      exact he (Node.meets_binary hleft hright)

theorem runs_level (h : RunsExpr a d operand (Descent.upTo j)) :
    RunsExpr a d (level (levelOperator? (j + 1)) operand) (Descent.upTo (j + 1)) := by
  intro s hs
  rw [Descent.upTo]
  refine (h s hs).bind fun left s₁ h₁ => run_bound ?_
  exact run_chain h _ (Nat.lt_succ_self _) (by omega) h₁

theorem runs_tower (h : RunsExpr a d operand Descent.unary) (j : Nat) :
    RunsExpr a d (tower operand j) (Descent.upTo j) := by
  induction j with
  | zero =>
    intro s hs
    rw [Descent.upTo]
    exact h s hs
  | succ j ih => exact runs_level ih

theorem run_literal (hm : s.rest.length < m) (place : Position) (negative : Bool) (tok : Token) :
    Run a m s (literal place negative tok) (liftM (literal place negative tok)) Node.weight
      (Node.Meets a) := by
  have hlength : ∀ value, (Node.number place value).weight + s.rest.length ≤ m := by
    intro value
    rw [Node.weight_of_imports_nil rfl rfl]
    omega
  have hleaf : ∀ value, (Node.number place value).Meets a :=
    fun _ => Node.meets_leaf rfl rfl fun _ => rfl
  unfold literal
  obtain ⟨value, ok⟩ := Decimal.read negative tok.lexeme
  cases ok with
  | false =>
    refine run_lift rfl (List.suffix_refl _) (hlength value) (fun hs => ?_) (hleaf value)
    exact absurd hs (List.append_ne_nil_of_right_ne_nil _ (List.cons_ne_nil _ _))
  | true => exact run_lift rfl (List.suffix_refl _) (hlength value) id (hleaf value)

theorem weight_negated (place : Position) (e : Node) : (negated place e).weight = 1 := by
  cases e <;> exact Node.weight_of_imports_nil rfl rfl

theorem run_unaryWithin {primary : Parser Node} (h : RunsExpr a d primary Descent.primary) (n : Nat)
    (hn : s.rest.length < n) (hd : s.rest.length < d) :
    Run a s.rest.length s (unaryWithin primary n) Descent.unary Node.weight (Node.Meets a) := by
  induction n generalizing s with
  | zero => exact absurd hn (Nat.not_lt_zero _)
  | succ n ih =>
    rw [Descent.unary]
    refine run_current (run_ite (fun _ => h s hd) fun hminus => ?_)
    have hpos := rest_pos (Classical.not_not.1 hminus) (by decide)
    refine run_advance fun s₁ h₁ => run_current (run_ite (fun hint => ?_) fun _ => ?_)
    · have hpos₁ := rest_pos hint (by decide)
      exact run_advance fun s₂ h₂ => run_literal (by omega) _ _ _
    · refine (ih (by omega) (by omega)).bind fun e s₂ h₂ => run_pure ?_ Node.meets_negated
      rw [weight_negated]
      omega

theorem runs_unary {primary : Parser Node} (h : RunsExpr a d primary Descent.primary) :
    RunsExpr a d (unary primary) Descent.unary :=
  fun _ hs => run_bound (run_unaryWithin h _ (Nat.lt_succ_self _) hs)

theorem run_separated (h : RunsExpr a d expr (Descent.upTo 3)) (n : Nat) (hn : s.rest.length < n)
    (hd : s.rest.length < d) : Run a s.rest.length s (separated expr n) Descent.items (fun _ => 0)
      fun xs => Node.AllMeet a xs ∧ xs.length ≤ n := by
  induction n generalizing s with
  | zero => exact absurd hn (Nat.not_lt_zero _)
  | succ n ih =>
    rw [Descent.items]
    refine (h s hd).bind fun x s₁ h₁ => run_current (run_ite (fun hcomma => ?_) fun _ => ?_)
    · have hpos := rest_pos hcomma (by decide)
      refine run_advance fun s₂ h₂ => (ih (by omega) (by omega)).bind fun xs s₃ h₃ => ?_
      refine run_pure (by omega) fun hxs hx => ⟨List.forall_mem_cons.2 ⟨hx, hxs.1⟩, ?_⟩
      exact Nat.succ_le_succ hxs.2
    · exact run_pure (by omega) fun hx => ⟨List.forall_mem_singleton.2 hx, by simp⟩

theorem runs_bracketed (h : RunsExpr a d expr (Descent.upTo 3)) (close : TokenKind) :
    Runs a d (bracketed expr close) (Descent.bracketed close) (fun _ => 0)
      fun ns => Node.AllMeet a ns ∧ ns.length ≤ a.bound := by
  intro s hs
  rw [Descent.bracketed]
  have hclose : ∀ ns s', s'.rest.length ≤ s.rest.length → Run a s.rest.length s'
      (expect close >>= fun _ => pure ns) (liftM (expect close) >>= fun _ => pure ns) (fun _ => 0)
      fun ns' => (Node.AllMeet a ns ∧ ns.length ≤ a.bound) →
        Node.AllMeet a ns' ∧ ns'.length ≤ a.bound := by
    intro ns s' hs'
    exact run_expect fun s'' hs'' => run_pure (by omega) id
  refine run_current (run_ite (fun _ => ?_) fun _ => run_bound ?_)
  · refine (hclose [] s (Nat.le_refl _)).mono (Nat.le_refl _) fun _ _ h => h ?_
    exact ⟨List.forall_mem_nil _, Nat.zero_le _⟩
  · have hitems : Run a s.rest.length s (separated expr (s.rest.length + 1)) Descent.items
        (fun _ => 0) fun ns => Node.AllMeet a ns ∧ ns.length ≤ a.bound :=
      (run_separated h _ (Nat.lt_succ_self _) hs).mono (Nat.le_refl _)
        fun hgood _ hxs => ⟨hxs.1, Nat.le_trans hxs.2 hgood.length⟩
    exact hitems.bind fun ns s' hs' => hclose ns s' (by omega)

theorem run_namedWithin (h : RunsExpr a d expr (Descent.upTo 3)) (n : Nat) (hn : s.rest.length < n)
    (hd : s.rest.length < d + 1) (hident : (head s).kind = .ident) :
    Run a s.rest.length s (namedWithin expr n) Descent.named Node.weight (Node.Meets a) := by
  induction n generalizing s with
  | zero => exact absurd hn (Nat.not_lt_zero _)
  | succ n ih =>
    have hpos := rest_pos hident (by decide)
    rw [Descent.named]
    refine run_named hident (run_current (run_advance fun s₁ h₁ => run_current ?_))
    cases hk : (head s₁).kind with
    | lParen =>
      refine run_advance fun s₂ h₂ => (runs_bracketed h .rParen s₂ (by omega)).bind fun args s₃ h₃ => ?_
      refine run_pure ?_ fun hargs hname => Node.meets_call hname hargs.1
      rw [Node.weight_of_imports_nil rfl rfl]
      omega
    | lBracket =>
      refine run_advance fun s₂ h₂ => (h s₂ (by omega)).bind fun index s₃ h₃ => ?_
      refine run_expect fun s₄ h₄ => run_pure ?_ fun hindex hname => Node.meets_index hname hindex
      rw [Node.weight_of_imports_nil rfl rfl]
      omega
    | dot =>
      refine run_advance fun s₂ h₂ => run_current (run_ite (fun _ => ?_) fun hmember => ?_)
      · refine run_report fun s₃ h₃ => run_pure ?_ fun _ => Node.meets_ident
        rw [Node.weight_of_imports_nil rfl rfl]
        omega
      · refine (ih (by omega) (by omega) (Classical.not_not.1 hmember)).bind fun member s₃ h₃ => ?_
        refine run_pure ?_ fun hmeets hname => Node.meets_property hname hmeets
        rw [Node.weight_of_imports_nil rfl rfl]
        omega
    | _ =>
      refine run_pure ?_ Node.meets_ident
      rw [Node.weight_of_imports_nil rfl rfl]
      omega

theorem runs_primary (h : RunsExpr a d expr (Descent.upTo 3)) :
    RunsExpr a (d + 1) (primary expr) Descent.primary := by
  intro s hs
  rw [Descent.primary]
  refine run_current ?_
  cases hk : (head s).kind with
  | int =>
    have hpos := rest_pos hk (by decide)
    exact run_advance fun s₁ h₁ => run_literal (by omega) _ _ _
  | string =>
    have hpos := rest_pos hk (by decide)
    refine run_advance fun s₁ h₁ => run_pure ?_ (Node.meets_leaf rfl rfl fun _ => rfl)
    rw [Node.weight_of_imports_nil rfl rfl]
    omega
  | lBracket =>
    have hpos := rest_pos hk (by decide)
    refine run_advance fun s₁ h₁ => (runs_bracketed h .rBracket s₁ (by omega)).bind fun ns s₂ h₂ => ?_
    refine run_pure ?_ fun hns => Node.meets_array hns.1 hns.2
    rw [Node.weight_of_imports_nil rfl rfl]
    omega
  | lParen =>
    have hpos := rest_pos hk (by decide)
    refine run_advance fun s₁ h₁ => (h s₁ (by omega)).bind fun inner s₂ h₂ => ?_
    exact run_expect fun s₃ h₃ => run_pure (by omega) id
  | ident => exact run_bound (run_namedWithin h _ (Nat.lt_succ_self _) hs hk)
  | _ =>
    refine run_report fun s₁ h₁ => run_pure ?_ fun hloud =>
      Node.meets_leaf rfl rfl fun hsilent => absurd hsilent hloud
    rw [Node.weight_missing]
    omega

theorem runs_exprWithin (d : Nat) : RunsExpr a d (exprWithin d) (Descent.upTo 3) := by
  induction d with
  | zero => exact fun s hs => absurd hs (Nat.not_lt_zero _)
  | succ d ih => exact runs_tower (runs_unary (runs_primary ih)) 3

theorem run_expr (s : ParseState) :
    Run a s.rest.length s Parser.expr Descent.expr Node.weight (Node.Meets a) :=
  run_bound (runs_exprWithin _ s (Nat.lt_succ_self _))

end Parser

end UnitScript
