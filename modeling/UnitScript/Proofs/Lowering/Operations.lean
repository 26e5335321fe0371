import UnitScript.Module.Imports
import UnitScript.Proofs.Lowering.Derivations

/-!
# What compilation is made of

Compilation is put together from a few operations: looking up and recording the kind of a name, adding
a string constant, merging data, opening a block, exporting, and asking for an imported unit. What the
operations have in common, and keep when they are put together, holds of compilation. Expressions do
with the first few of them.

The names that are looked up are mentioned in the program, and the units that are asked for are its
imports. To see what else has no influence, two compilations stand side by side that differ in the
source of units.
-/

namespace UnitScript

def CompileError.inclusion? : CompileError → Option IncludeError
  | .mk _ _ _ (.inclusion e) => some e
  | _ => none

namespace Node

mutual

/-- The identifiers of a tree and the names that its dotted paths stand for. -/
def mentions : Node → List Name
  | ident _ name => [name]
  | array _ elements => mentionsAll elements
  | binary _ _ left right _ => left.mentions ++ right.mentions
  | index _ name i => name :: i.mentions
  | property pos object member =>
    ((property pos object member).pathName?.map (·.1)).toList ++ (object.mentions ++ member.mentions)
  | call _ callee args => callee.mentions ++ mentionsAll args
  | cond _ test yes no => test.mentions ++ (mentionsAll yes ++ mentionsAll no)
  | loop _ test body => test.mentions ++ mentionsAll body
  | ret _ value => value.mentions
  | func _ name params _ body => name :: (params.map (·.name) ++ mentionsAll body)
  | param p => [p.name]
  | program body => mentionsAll body
  | number .. | string .. | pass _ | importUnit .. | type _ | missing => []

def mentionsAll : List Node → List Name
  | [] => []
  | n :: rest => n.mentions ++ mentionsAll rest

end

theorem forall_mem_mentionsAll {P : Name → Prop} {ns : List Node} :
    (∀ x ∈ mentionsAll ns, P x) ↔ ∀ n ∈ ns, ∀ x ∈ n.mentions, P x := by
  induction ns with
  | nil => simp [mentionsAll]
  | cons n rest ih => simp only [mentionsAll, List.forall_mem_append, List.forall_mem_cons, ih]

theorem mem_mentions_of_property {pos : Position} {object member : Node} {name : Name}
    {called : Bool} (h : (property pos object member).pathName? = some (name, called)) :
    name ∈ (property pos object member).mentions := by
  rw [mentions, h]
  exact List.mem_cons_self

theorem mem_mentions_of_pathName? {n : Node} {name : Name} (h : n.pathName? = some (name, false)) :
    name ∈ n.mentions := by
  cases n with
  | ident =>
    cases h
    exact List.mem_cons_self
  | property => exact mem_mentions_of_property h
  | call _ callee => cases callee <;> cases h
  | _ => cases h

end Node

namespace Lowering

abbrev Includer := Name → Except IncludeError CodeUnit

def Context.taking (ctx : Context) (i : Option Includer) : Context := { ctx with includer := i }

/-- What a piece of a program may have to do with: names that it looks up, units that it imports, from
one source or from another one in its place, and whether it may go beyond expressions. -/
structure Dealings where
  unitName : Name
  names : Name → Prop
  imports : Name → Prop
  includer : Option Includer
  other : Option Includer
  statements : Prop

/-- Actions put together from the operations of compilation in the same way, with two sources of
units. -/
inductive Composed (D : Dealings) : {α : Type} → Lower α → Lower α → Prop where
  | pure {α : Type} (a : α) : Composed D (pure a) (pure a)
  | throw {α : Type} {e : CompileError} : e.inclusion? = none →
      Composed D (throw e : Lower α) (throw e)
  | bind {α β : Type} {x x' : Lower α} {k k' : α → Lower β} : Composed D x x' →
      (∀ a, Composed D (k a) (k' a)) → Composed D (x >>= k) (x' >>= k')
  | kindOf {name : Name} : D.names name → Composed D (kindOf? name) (kindOf? name)
  | addString {ctx : Context} (value : Bytes) : ctx.unitName = D.unitName →
      Composed D (addString ctx value) (addString ctx value)
  | declaredKind (type : Option TypeExpr) {init : Node} : D.statements →
      (∀ x ∈ init.mentions, D.names x) → Composed D (declaredKind type init) (declaredKind type init)
  | declare (pos : Position) (name : Name) (kind : Kind) : D.statements →
      Composed D (declare pos name kind) (declare pos name kind)
  | mergeData (pos : Position) (more : List Datum) : D.statements →
      Composed D (mergeData pos more) (mergeData pos more)
  | inBlock {α : Type} {x x' : Lower α} : D.statements → Composed D x x' →
      Composed D (inBlock x) (inBlock x')
  | withOwnData {α : Type} {x x' : Lower α} : D.statements → Composed D x x' →
      Composed D (withOwnData x) (withOwnData x')
  | publish (name : Name) (result : Option TypeExpr) : D.statements →
      Composed D
        (modify fun st => { st with exports := st.exports.insert name (.orNumber result) } : Lower PUnit)
        (modify fun st => { st with exports := st.exports.insert name (.orNumber result) })
  | splice {ctx : Context} (pos : Position) {name : Name} : D.statements → ctx.includer = D.includer →
      D.imports name → Composed D (splice ctx pos name) (splice (ctx.taking D.other) pos name)

/-- A setting for which the dealings are meant. -/
structure Context.Meets (ctx : Context) (D : Dealings) : Prop where
  unitName : ctx.unitName = D.unitName
  includer : ctx.includer = D.includer

variable {α β : Type} {D : Dealings} {x x' : Lower α} {ctx : Context} {live : Live} {n : Node}

theorem Composed.map (h : Composed D x x') (g : α → β) : Composed D (g <$> x) (g <$> x') := by
  rw [map_eq_pure_bind, map_eq_pure_bind]
  exact h.bind fun a => .pure (g a)

theorem composed_guard {p : Prop} [Decidable p] {e : CompileError} (he : e.inclusion? = none)
    (h : Composed D x x') :
    Composed D (if p then do throw e; x else x) (if p then do throw e; x' else x') := by
  split
  · exact (Composed.throw he).bind fun _ => h
  · exact h

/-! ## Expressions -/

theorem composed_placeOf {name : Name} (h : D.names name) :
    Composed D (placeOf ctx name) (placeOf (ctx.taking D.other) name) := by
  refine (Composed.kindOf h).bind fun kind => ?_
  cases kind <;> exact .pure _

theorem composed_callAndPop {name : Name} (h : D.names name) :
    Composed D (callAndPop ctx name) (callAndPop (ctx.taking D.other) name) :=
  (Composed.kindOf h).bind fun _ => .pure _

theorem composed_direct? (hctx : ctx.unitName = D.unitName) (n : Node) :
    Composed D (direct? ctx n) (direct? (ctx.taking D.other) n) := by
  cases n with
  | string _ value => exact (Composed.addString value hctx).bind fun _ => .pure _
  | _ => exact .pure _

theorem composed_simpleOperand? (n : Node) : Composed D (simpleOperand? n) (simpleOperand? n) := by
  cases n with
  | string | array | missing => exact .throw rfl
  | _ => exact .pure _

theorem composed_scalar {y y' : Lower (Code × Operand)} {g g' : Code → Lower α}
    (hn : Composed D y y') (hg : ∀ c, Composed D (g c) (g' c)) :
    Composed D (do g (← requireScalar ctx n (← y)))
      (do g' (← requireScalar (ctx.taking D.other) n (← y'))) := by
  refine hn.bind fun r => Composed.bind ?_ hg
  change Composed D (if r.2 = ctx.primary then _ else _) (if r.2 = ctx.primary then _ else _)
  split
  · exact .pure _
  · exact .throw rfl

theorem handAll_composed (hctx : ctx.unitName = D.unitName) {args : List Node}
    (hargs : ∀ n ∈ args, Composed D (expr ctx live n) (expr (ctx.taking D.other) live n))
    (f : Nat → Operand → Instruction) (k : Nat) :
    Composed D (handAll ctx live f k args) (handAll (ctx.taking D.other) live f k args) := by
  induction args generalizing k with
  | nil => exact .pure _
  | cons arg rest ih =>
    rw [List.forall_mem_cons] at hargs
    have hbehind : ∀ first : Code, Composed D
        (do return first ++ (← handAll ctx live f (k + 1) rest))
        (do return first ++ (← handAll (ctx.taking D.other) live f (k + 1) rest)) :=
      fun _ => (ih hargs.2 (k + 1)).bind fun _ => .pure _
    refine (composed_direct? hctx arg).bind fun src => ?_
    cases src with
    | some src => exact (Composed.pure _).bind hbehind
    | none => exact hargs.1.bind fun _ => (Composed.pure _).bind hbehind

theorem expr_composed (hctx : ctx.unitName = D.unitName) (n : Node) (live : Live)
    (hn : ∀ x ∈ n.mentions, D.names x) :
    Composed D (expr ctx live n) (expr (ctx.taking D.other) live n) := by
  induction n using Node.induction_value generalizing live with
  | number =>
    rw [expr, expr]
    exact .pure _
  | string _ value =>
    rw [expr, expr]
    exact (Composed.addString value hctx).bind fun _ => .pure _
  | ident _ name =>
    rw [expr, expr]
    exact (composed_placeOf (hn name List.mem_cons_self)).bind fun _ => .pure _
  | binary _ op left right _ ihl ihr =>
    simp only [Node.mentions, List.forall_mem_append] at hn
    rw [expr, expr]
    refine composed_guard (by rfl) ((composed_simpleOperand? left).bind fun a =>
      (composed_simpleOperand? right).bind fun b => ?_)
    cases a with
    | some a =>
      cases b with
      | some b => exact .pure _
      | none => exact composed_scalar (ihr live hn.2) fun _ => .pure _
    | none =>
      cases b with
      | some b => exact composed_scalar (ihl live hn.1) fun _ => .pure _
      | none =>
        exact composed_scalar (ihl live hn.1) fun _ => composed_scalar (ihr _ hn.2) fun _ => .pure _
  | index _ name i ih =>
    simp only [Node.mentions, List.forall_mem_cons] at hn
    rw [expr, expr]
    exact composed_scalar (ih live hn.2) fun _ => .pure _
  | array _ elements ih =>
    have hall := Node.forall_mem_mentionsAll.1 hn
    rw [expr, expr, storeAll_eq, storeAll_eq]
    exact (handAll_composed hctx (fun n hn => ih n hn _ (hall n hn)) _ _).bind fun _ => .pure _
  | call _ callee args ih =>
    simp only [Node.mentions, List.forall_mem_append] at hn
    have hargs := Node.forall_mem_mentionsAll.1 hn.2
    rw [expr, expr, pushAll_eq _ _ _ 0, pushAll_eq _ _ _ 0]
    rcases hpath : callee.pathName? with _ | ⟨name, _ | _⟩
    · exact .throw rfl
    · have hname := hn.1 name (Node.mem_mentions_of_pathName? hpath)
      exact (handAll_composed hctx (fun n hn => ih n hn live (hargs n hn)) _ _).bind fun _ =>
        (composed_callAndPop hname).bind fun _ => .pure _
    · exact .throw rfl
  | property pos object member ih =>
    rw [expr, expr, pushPathArgs_eq, pushPathArgs_eq, pushAll_eq _ _ _ 0, pushAll_eq _ _ _ 0]
    rcases hpath : (Node.property pos object member).pathName? with _ | ⟨name, _ | _⟩
    · exact .throw rfl
    · have hname := hn name (Node.mem_mentions_of_property hpath)
      exact (composed_placeOf hname).bind fun _ => .pure _
    · have hname := hn name (Node.mem_mentions_of_property hpath)
      simp only [Node.mentions, List.forall_mem_append] at hn
      have hargs := Node.forall_mem_pathArgs (P := fun n => ∀ x ∈ n.mentions, D.names x)
        (fun h x hx => h x (by simp [Node.mentions, hx]))
        (fun h => Node.forall_mem_mentionsAll.1 fun x hx => h x (by simp [Node.mentions, hx])) hn.2.2
      exact (handAll_composed hctx (fun n hn => ih n hn live (hargs n hn)) _ _).bind fun _ =>
        (composed_callAndPop hname).bind fun _ => .pure _
  | other n hvalue =>
    rw [expr_of_not_isValue hvalue, expr_of_not_isValue hvalue]
    exact .throw rfl

theorem composed_value (hctx : ctx.unitName = D.unitName) (hn : ∀ x ∈ n.mentions, D.names x) :
    Composed D (value ctx n) (value (ctx.taking D.other) n) := by
  refine (composed_direct? hctx n).bind fun src => ?_
  cases src with
  | some src => exact .pure _
  | none => exact expr_composed hctx n .none hn

theorem composed_store (hctx : ctx.unitName = D.unitName)
    (hn : ∀ x ∈ n.mentions, D.names x) (name : Name) :
    Composed D (store ctx n name) (store (ctx.taking D.other) n name) :=
  (composed_value hctx hn).bind fun _ => .pure _

/-! ## Statements -/

theorem composed_declareCell (hD : D.statements) (hctx : ctx.unitName = D.unitName)
    (pos : Position) (target : Node) {init : Node} (type : Option TypeExpr)
    (hn : ∀ x ∈ init.mentions, D.names x) :
    Composed D (declareCell ctx pos target init type)
      (declareCell (ctx.taking D.other) pos target init type) := by
  cases target with
  | ident namePos name =>
    exact composed_guard (by rfl) ((Composed.declaredKind type hD hn).bind fun kind =>
      composed_guard (by rfl) ((Composed.declare namePos name kind hD).bind fun _ =>
        (composed_store hctx hn name).bind fun _ => .pure _))
  | _ => exact .throw rfl

theorem composed_assign (hctx : ctx.unitName = D.unitName) {target source : Node}
    (htarget : ∀ x ∈ target.mentions, D.names x) (hn : ∀ x ∈ source.mentions, D.names x) :
    Composed D (assign ctx target source) (assign (ctx.taking D.other) target source) := by
  cases target with
  | ident namePos name =>
    exact composed_guard (by rfl) ((Composed.kindOf (htarget name List.mem_cons_self)).bind fun _ =>
      composed_guard (by rfl) (composed_store hctx hn name))
  | _ => exact .throw rfl

theorem composed_parameters (hD : D.statements) (params : List Param) :
    Composed D (parameters ctx params) (parameters (ctx.taking D.other) params) := by
  induction params with
  | nil => exact .pure _
  | cons p rest ih =>
    exact composed_guard (by rfl) (composed_guard (by rfl)
      ((Composed.declare p.pos p.name _ hD).bind fun _ => ih.bind fun _ => .pure _))

theorem composed_function (hD : D.statements) (pos : Position) (name : Name)
    (result : Option TypeExpr) {body : Context → Lower (List Slot × Code)}
    (hbody : Composed D (body ctx.inner) (body (ctx.inner.taking D.other))) :
    Composed D (function ctx pos name result body)
      (function (ctx.taking D.other) pos name result body) := by
  unfold function
  refine composed_guard (by rfl) ((Composed.withOwnData hD (.inBlock hD hbody)).bind fun own =>
    (Composed.mergeData pos _ hD).bind fun _ => ?_)
  split
  · exact .throw rfl
  · refine (Composed.declare pos name _ hD).bind fun _ => ?_
    change Composed D (if ctx.depth = 0 then _ else _) (if ctx.depth = 0 then _ else _)
    split
    · exact (Composed.publish name result hD).bind fun _ => .pure _
    · exact .pure _

mutual

theorem stmt_composed (hD : D.statements) : ∀ (n : Node) {ctx : Context}, ctx.Meets D →
    (∀ x ∈ n.mentions, D.names x) → (∀ name ∈ n.imports, D.imports name) →
    Composed D (stmt ctx n) (stmt (ctx.taking D.other) n)
  | .binary pos op left right type, ctx, hctx, hn, _ => by
    have hsides := hn
    simp only [Node.mentions, List.forall_mem_append] at hsides
    by_cases hdeclare : op = .declare
    · subst hdeclare
      exact composed_declareCell hD hctx.unitName pos left type hsides.2
    by_cases hassign : op = .assign
    · subst hassign
      exact composed_assign hctx.unitName hsides.1 hsides.2
    rw [stmt_binary_eq hdeclare hassign, stmt_binary_eq hdeclare hassign]
    exact (expr_composed hctx.unitName _ _ hn).map _
  | .cond _ test yes no, ctx, hctx, hn, hi => by
    simp only [Node.mentions, Node.imports, List.forall_mem_append] at hn hi
    rw [stmt, stmt]
    exact (expr_composed hctx.unitName test _ hn.1).bind fun _ =>
      (Composed.inBlock hD (stmts_composed hD yes hctx hn.2.1 hi.1)).bind fun _ =>
        (Composed.inBlock hD (stmts_composed hD no hctx hn.2.2 hi.2)).bind fun _ => .pure _
  | .loop _ test body, ctx, hctx, hn, hi => by
    simp only [Node.mentions, Node.imports, List.forall_mem_append] at hn hi
    rw [stmt, stmt]
    exact (expr_composed hctx.unitName test _ hn.1).bind fun _ =>
      (Composed.inBlock hD (stmts_composed hD body hctx hn.2 hi)).bind fun _ => .pure _
  | .func pos name params result body, ctx, hctx, hn, hi => by
    simp only [Node.mentions, Node.imports, List.forall_mem_cons, List.forall_mem_append] at hn hi
    have hinner : ctx.inner.Meets D := ⟨hctx.unitName, hctx.includer⟩
    rw [stmt, stmt]
    exact composed_function hD pos name result ((composed_parameters hD params).bind fun _ =>
      (stmts_composed hD body hinner hn.2.2 hi).bind fun _ => .pure _)
  | .ret pos n, ctx, hctx, hn, _ => by
    by_cases hmissing : n = .missing
    · subst hmissing
      rw [stmt, stmt]
      exact .pure _
    · rw [stmt_ret_eq hmissing, stmt_ret_eq hmissing]
      exact (composed_value hctx.unitName (n := n) hn).bind fun _ => .pure _
  | .importUnit pos name, ctx, hctx, _, hi => by
    rw [stmt, stmt]
    exact .splice pos hD hctx.includer (hi name List.mem_cons_self)
  | .pass _, _, _, _, _ => by
    rw [stmt, stmt]
    exact .pure _
  | .missing, _, _, _, _ => by
    rw [stmt, stmt]
    exact .throw rfl
  | .number .., _, hctx, hn, _ | .string .., _, hctx, hn, _ | .ident .., _, hctx, hn, _
  | .index .., _, hctx, hn, _ | .array .., _, hctx, hn, _ | .call .., _, hctx, hn, _
  | .property .., _, hctx, hn, _ | .param _, _, hctx, hn, _ | .type _, _, hctx, hn, _
  | .program _, _, hctx, hn, _ => by
    rw [stmt, stmt]
    · exact (expr_composed hctx.unitName _ _ hn).map _
    all_goals
      intros
      contradiction

theorem stmts_composed (hD : D.statements) : ∀ (ns : List Node) {ctx : Context}, ctx.Meets D →
    (∀ x ∈ Node.mentionsAll ns, D.names x) → (∀ name ∈ Node.importsOfAll ns, D.imports name) →
    Composed D (stmts ctx ns) (stmts (ctx.taking D.other) ns)
  | [], _, _, _, _ => by
    rw [stmts, stmts]
    exact .pure _
  | n :: rest, _, hctx, hn, hi => by
    simp only [Node.mentionsAll, Node.importsOfAll, List.forall_mem_append] at hn hi
    rw [stmts, stmts]
    exact (stmt_composed hD n hctx hn.1 hi.1).bind fun _ =>
      (stmts_composed hD rest hctx hn.2 hi.2).bind fun _ => .pure _

end

/-- The dealings of statements: they look up what they mention, and ask for what they import. -/
def Context.dealings (ctx : Context) (ns : List Node) : Dealings :=
  ⟨ctx.unitName, (· ∈ Node.mentionsAll ns), (· ∈ Node.importsOfAll ns), ctx.includer, ctx.includer,
    True⟩

theorem composed_stmts (ctx : Context) (ns : List Node) :
    Composed (ctx.dealings ns) (stmts ctx ns) (stmts ctx ns) :=
  stmts_composed trivial ns ⟨rfl, rfl⟩ (fun _ hx => hx) fun _ hname => hname

/-! ## States of expressions -/

def Context.expression (ctx : Context) : Dealings :=
  ⟨ctx.unitName, fun _ => True, fun _ => False, ctx.includer, ctx.includer, False⟩

/-- A relation of states that allows for string constants to be added. -/
structure Steady (ctx : Context) (R : State → State → Prop) : Prop where
  refl : ∀ st, R st st
  trans : ∀ {st mid st'}, R st mid → R mid st' → R st st'
  string : ∀ st value, R st (withString ctx st value)

namespace Steady

variable {R : State → State → Prop} {st st' : State} {code : Code} {place : Operand}

theorem composed (hR : Steady ctx R) (h : Composed ctx.expression x x') {a : α} {st st' : State}
    (hx : x st = .ok (a, st')) : R st st' := by
  induction h generalizing st st' with
  | pure =>
    obtain ⟨-, rfl⟩ := pure_eq_ok.1 hx
    exact hR.refl _
  | throw => exact absurd hx throw_ne_ok
  | bind _ _ ih ihk =>
    obtain ⟨b, mid, hb, hk⟩ := bind_eq_ok.1 hx
    exact hR.trans (ih hb) (ihk b hk)
  | kindOf =>
    rw [kindOf?_eq_ok hx]
    exact hR.refl _
  | addString value hunit =>
    obtain ⟨-, rfl⟩ := addString_eq_ok hx
    have hstring := hR.string st value
    unfold withString nextString at hstring ⊢
    rwa [hunit]
  | declaredKind _ hfull | declare _ _ _ hfull | mergeData _ _ hfull | inBlock hfull
  | withOwnData hfull | publish _ _ hfull | splice _ hfull => exact hfull.elim

theorem expr (hR : Steady ctx R)
    (h : Lowering.expr ctx live n st = .ok ((code, place), st')) : R st st' :=
  hR.composed (expr_composed rfl n live fun _ _ => trivial) h

theorem reach (hR : Steady ctx R) {src : Operand} (h : Reach ctx live n st st' code src) :
    R st st' := by
  cases h with
  | operand _ hst =>
    rw [hst]
    exact hR.refl st
  | string _ hst =>
    rw [hst]
    exact hR.string st _
  | computed he => exact hR.expr he

theorem hands (hR : Steady ctx R) {f : Nat → Operand → Instruction} {k : Nat} {ns : List Node}
    (h : Hands ctx live f k ns st st' code) : R st st' := by
  induction h with
  | nil => exact hR.refl _
  | cons hr _ ih => exact hR.trans (hR.reach hr) ih

end Steady

variable {st st' : State} {code : Code} {place : Operand}

structure Extends (st st' : State) : Prop where
  symbols : st'.symbols = st.symbols
  data : st.data <+: st'.data

theorem Extends.refl (st : State) : Extends st st := ⟨rfl, List.prefix_rfl⟩

theorem Extends.trans {mid : State} (h : Extends st mid) (g : Extends mid st') : Extends st st' :=
  ⟨g.symbols.trans h.symbols, h.data.trans g.data⟩

theorem extends_steady (ctx : Context) : Steady ctx Extends :=
  ⟨.refl, .trans, fun _ _ => ⟨rfl, List.prefix_append _ _⟩⟩

theorem expr_extends (n : Node) (h : expr ctx live n st = .ok ((code, place), st')) : Extends st st' :=
  (extends_steady ctx).expr h

theorem pushAll_extends (args : List Node) (h : pushAll ctx live args st = .ok (code, st')) :
    Extends st st' :=
  (extends_steady ctx).hands (hands_of_pushAll h 0)

theorem Reach.extends_of {src : Operand} (h : Reach ctx live n st st' code src) :
    Extends st st' :=
  (extends_steady ctx).reach h

end Lowering

end UnitScript
