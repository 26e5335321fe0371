import UnitScript.Proofs.Hazard.Trace
import UnitScript.Proofs.Lowering.CallConvention
import UnitScript.Proofs.Lowering.Literals

/-!
# Sites in a program

A site is named by the turns that lead to it from the whole program, through blocks, statements and
expressions. Compilation and the walk for hazards come to a site each in a state of its own. Up to the
statement around the site the two know the same names. Inside a statement neither learns a name, except
that the compiler records the name of a declaration before it compiles the initializer.
-/

namespace UnitScript

namespace Node

/-- A part of a program. -/
inductive Part where
  | block (ns : List Node)
  | statement (n : Node)
  | expression (n : Node)
  /-- The arguments of a call or the elements of an array. -/
  | items (ns : List Node)

/-- A turn on the way from a part to one that it is made of. -/
inductive Turn where
  | first | rest | test | yes | no | body | value | left | right

namespace Part

/-- The part behind a turn. A statement that is an expression has that expression as its value. -/
def turn? : Part → Turn → Option Part
  | .block (n :: _), .first => some (.statement n)
  | .block (_ :: ns), .rest => some (.block ns)
  | .statement (.cond _ test _ _), .test => some (.expression test)
  | .statement (.cond _ _ yes _), .yes => some (.block yes)
  | .statement (.cond _ _ _ no), .no => some (.block no)
  | .statement (.loop _ test _), .test => some (.expression test)
  | .statement (.loop _ _ body), .body => some (.block body)
  | .statement (.func _ _ _ _ body), .body => some (.block body)
  | .statement (.ret _ .missing), .value => none
  | .statement (.ret _ value), .value => some (.expression value)
  | .statement (.binary _ .declare _ init _), .value => some (.expression init)
  | .statement (.binary _ .assign _ source _), .value => some (.expression source)
  | .statement (.binary pos op left right written), .value =>
    some (.expression (.binary pos op left right written))
  | .statement (.index pos name i), .value => some (.expression (.index pos name i))
  | .statement (.array pos elements), .value => some (.expression (.array pos elements))
  | .statement (.call pos callee args), .value => some (.expression (.call pos callee args))
  | .statement (.property pos object member), .value =>
    some (.expression (.property pos object member))
  | .expression (.binary _ _ left _ _), .left => some (.expression left)
  | .expression (.binary _ _ _ right _), .right => some (.expression right)
  | .expression (.index _ _ i), .value => some (.expression i)
  | .expression (.array _ elements), .body => some (.items elements)
  | .expression (.call _ _ args), .body => some (.items args)
  | .expression (.property _ _ member), .body => some (.items member.pathArgs)
  | .items (n :: _), .first => some (.expression n)
  | .items (_ :: ns), .rest => some (.items ns)
  | _, _ => none

/-- The part at the end of a way. -/
def along : Part → List Turn → Option Part
  | part, [] => some part
  | part, t :: way => (part.turn? t).bind (along · way)

/-- The function whose body is behind the turn. -/
def entered : Part → Turn → List Name
  | .statement (.func _ name _ _ _), .body => [name]
  | _, _ => []

/-- The names of the functions whose bodies the way leads into. -/
def enclosing : Part → List Turn → List Name
  | _, [] => []
  | part, t :: way =>
    match part.turn? t with
    | some next => part.entered t ++ enclosing next way
    | none => []

end Part

def declared? : Node → Option Name
  | .binary _ .declare (.ident _ name) _ _ => some name
  | _ => none

theorem usesAll_pathArgs (n : Node) : usesAll n.pathArgs = n.pathUses := by
  fun_induction Node.pathArgs n with
  | case1 _ _ member ih => rw [pathUses, ih]
  | case2 => rw [pathUses]
  | case3 n hproperty hcall => cases n <;> simp_all [pathUses, usesAll]

end Node

open Node (Part Turn)

namespace Lowering

/-- The code that brings the value of a node within reach, and the operand that reads it. -/
def fetch (ctx : Context) (live : Live) (n : Node) : Lower (Code × Operand) := do
  match ← direct? ctx n with
  | some src => return ([], src)
  | none => expr ctx live n

def leaves {α : Type} (act : Lower α) (st : State) : Option State :=
  match act st with
  | .ok (_, st') => some st'
  | .error _ => none

/-- Where compilation is: how it compiles, its state, and the statement that it is in, with the state in
which it came to it. -/
structure Place where
  ctx : Context
  live : Live
  state : State
  around : Node
  front : State

namespace Place

/-- Compilation takes a turn: what it compiles on the way to the next part has to be accepted. -/
def turn (p : Place) : Part → Turn → Option Place
  | .block (n :: _), .first => some { p with around := n, front := p.state }
  | .block (n :: _), .rest => do
    return { p with state := ← leaves (stmt p.ctx n) p.state }
  | .statement (.cond _ test _ _), .yes => do
    let mid ← leaves (expr p.ctx .none test) p.state
    return { p with state := mid.entered }
  | .statement (.cond _ test yes _), .no => do
    let mid ← leaves (expr p.ctx .none test) p.state
    let mid ← leaves (inBlock (stmts p.ctx yes)) mid
    return { p with state := mid.entered }
  | .statement (.loop _ test _), .body => do
    let mid ← leaves (expr p.ctx .none test) p.state
    return { p with state := mid.entered }
  | .statement (.func _ _ params _ _), .body => do
    let mid ← leaves (parameters p.ctx.inner params) p.state.inner
    return { p with ctx := p.ctx.inner, state := mid }
  | .statement (.binary _ .declare (.ident pos name) init type), .value => do
    -- the kind is recorded before the initializer is compiled
    let mid ← leaves (do declare pos name (← declaredKind type init)) p.state
    return { p with state := mid }
  | .expression (.binary _ _ left _ _), .right =>
    if left.operand?.isSome then some p
    else do
      return { p with live := p.live.withSecondary, state := ← leaves (expr p.ctx p.live left) p.state }
  | .expression (.array _ _), .body => some { p with live := p.live.withAggregate }
  | .items (n :: _), .rest => do
    return { p with state := ← leaves (fetch p.ctx p.live n) p.state }
  | _, _ => some p

/-- Compilation of the part goes through from here. -/
def Compiles (p : Place) : Part → Prop
  | .block ns => ∃ code st, stmts p.ctx ns p.state = .ok (code, st)
  | .statement n => ∃ code st, stmt p.ctx n p.state = .ok (code, st)
  | .expression n => ∃ r st, fetch p.ctx p.live n p.state = .ok (r, st)
  | .items ns =>
    (∃ code st, pushAll p.ctx p.live ns p.state = .ok (code, st)) ∨
      ∃ ptr i code st, storeAll p.ctx p.live ptr i ns p.state = .ok (code, st)

end Place

theorem leaves_eq_some {α : Type} {act : Lower α} {st st' : State} {a : α}
    (h : act st = .ok (a, st')) : leaves act st = some st' := by
  simp [leaves, h]

/-- Compilation takes up where an action left off. -/
theorem leaves_bind {α β : Type} {act : Lower α} {st st' : State} (h : leaves act st = some st')
    (f : State → Option β) : (leaves act st >>= f) = f st' := by
  rw [h]
  rfl

section

variable {ctx : Context} {live : Live} {st st' : State} {code : Code} {place src : Operand}
  {pos : Position} {n : Node}

theorem Reach.fetch_eq_ok (h : Reach ctx live n st st' code src) :
    ∃ r, fetch ctx live n st = .ok (r, st') := by
  cases h with
  | operand hn hst =>
    subst hst
    cases n with
    | number | ident => exact ⟨_, rfl⟩
    | _ => cases hn
  | string hn hst =>
    subst hn hst
    exact ⟨_, rfl⟩
  | computed he =>
    cases n with
    | number =>
      obtain ⟨-, -, rfl⟩ := expr_number_eq_ok he
      exact ⟨_, rfl⟩
    | ident =>
      obtain ⟨-, -, rfl⟩ := expr_ident_eq_ok he
      exact ⟨_, rfl⟩
    | string =>
      obtain ⟨-, -, rfl⟩ := expr_string_eq_ok he
      exact ⟨_, rfl⟩
    | _ => exact ⟨_, he⟩

theorem Reach.fetched (h : Reach ctx live n st st' code src) :
    ∃ r st', fetch ctx live n st = .ok (r, st') := by
  obtain ⟨r, hr⟩ := h.fetch_eq_ok
  exact ⟨r, st', hr⟩

theorem fetched_of_expr (h : expr ctx live n st = .ok ((code, place), st')) :
    ∃ r st', fetch ctx live n st = .ok (r, st') :=
  (Reach.computed h).fetched

/-- An expression that is made up of parts has to be computed. -/
theorem fetch_eq_expr {t : Turn} {next : Part}
    (h : (Part.expression n).turn? t = some next) : fetch ctx live n = expr ctx live n := by
  cases n with
  | number | string | ident => cases t <;> cases h
  | _ => rfl

theorem fetch_operands {op : Operator} {left right : Node} {written : Option TypeExpr}
    (h : expr ctx live (.binary pos op left right written) st = .ok ((code, place), st')) :
    (∃ r mid, fetch ctx live left st = .ok (r, mid)) ∧
      ((left.operand?.isSome = true ∧ ∃ r last, fetch ctx live right st = .ok (r, last)) ∨
        (left.operand?.isSome = false ∧ ∃ r mid, expr ctx live left st = .ok (r, mid) ∧
          ∃ r last, fetch ctx live.withSecondary right mid = .ok (r, last))) := by
  obtain ⟨-, -, hform⟩ := expr_binary_eq_ok h
  cases hform with
  | direct hl hr _ =>
    exact ⟨(Reach.operand hl rfl).fetched, .inl ⟨by rw [hl]; rfl, (Reach.operand hr rfl).fetched⟩⟩
  | onRight hl _ he =>
    exact ⟨(Reach.operand hl rfl).fetched, .inl ⟨by rw [hl]; rfl, fetched_of_expr he⟩⟩
  | onLeft hl hr he =>
    exact ⟨fetched_of_expr he,
      .inr ⟨by rw [hl]; rfl, _, _, he, (Reach.operand hr rfl).fetched⟩⟩
  | onBoth hl _ he he' =>
    exact ⟨fetched_of_expr he, .inr ⟨by rw [hl]; rfl, _, _, he, fetched_of_expr he'⟩⟩

theorem pushAll_of_property {object member : Node}
    (h : expr ctx live (.property pos object member) st = .ok ((code, place), st')) :
    ∃ pushes, pushAll ctx live member.pathArgs st = .ok (pushes, st') := by
  cases expr_property_form h with
  | call _ hpushes => exact ⟨_, hpushes⟩
  | cell hname _ hst =>
    obtain ⟨⟨names, called⟩, hpath, hcalled⟩ := Option.map_eq_some_iff.1 hname
    cases hcalled
    have hargs : (Node.property pos object member).pathArgs = [] := Node.pathArgs_of_path? hpath
    rw [Node.pathArgs] at hargs
    rw [hargs, hst, pushAll]
    exact ⟨[], rfl⟩

theorem declareCell_value {namePos : Position} {name : Name} {init : Node}
    {written : Option TypeExpr}
    (h : declareCell ctx pos (.ident namePos name) init written st = .ok (code, st')) :
    ∃ kind mid r, leaves (do declare namePos name (← declaredKind written init)) st = some mid ∧
      Records st mid [(name, kind)] ∧ fetch ctx .none init mid = .ok (r, st') := by
  unfold declareCell at h
  obtain ⟨-, h₁⟩ := guard_eq_ok h
  obtain ⟨kind, u, hk, h₂⟩ := bind_eq_ok.1 h₁
  obtain rfl := declaredKind_eq_ok hk
  obtain ⟨-, h₃⟩ := guard_eq_ok h₂
  obtain ⟨_, mid, hd, h₄⟩ := bind_eq_ok.1 h₃
  obtain ⟨body, w, hs, h₅⟩ := bind_eq_ok.1 h₄
  obtain ⟨-, rfl⟩ := pure_eq_ok.1 h₅
  obtain ⟨c, src, hreach, -⟩ := store_eq_ok hs
  obtain ⟨r, hr⟩ := hreach.fetch_eq_ok
  exact ⟨kind, mid, r, leaves_eq_some (bind_eq_ok.2 ⟨kind, u, hk, hd⟩), records_of_declare hd, hr⟩

end

end Lowering

namespace Escape

/-- Where the walk is: the functions whose bodies it is in, innermost first, and its state. -/
structure Stage where
  functions : List Name
  walk : Walk

namespace Stage

variable (prelude : Prelude)

def use (s : Stage) (us : List Use) : Stage :=
  { s with walk := s.walk.useAll prelude s.functions us }

/-- The walk takes a turn: it walks what stands in front of the next part. -/
def turn (s : Stage) : Part → Turn → Stage
  | .block (n :: _), .rest => { s with walk := stmt prelude s.functions s.walk n }
  | .statement (.cond _ test _ _), .yes => { s with walk := (s.use prelude test.uses).walk.enter }
  | .statement (.cond _ test yes _), .no =>
    { s with
      walk :=
        (block prelude s.functions (s.use prelude test.uses).walk.enter yes).leave.enter }
  | .statement (.loop _ test _), .body => { s with walk := (s.use prelude test.uses).walk.enter }
  | .statement (.func _ name params _ _), .body =>
    ⟨name :: s.functions, s.walk.enter.declareAll (params.map Param.name)⟩
  | .statement (.binary _ .assign left _ _), .value => s.use prelude left.uses
  | .expression (.binary _ op left _ _), .right =>
    s.use prelude (if op = .declare then [] else left.uses)
  | .expression (.index pos name _), .value => s.use prelude [⟨name, pos⟩]
  | .expression (.call _ callee _), .body => s.use prelude callee.uses
  | .expression (.property pos object member), .body =>
    s.use prelude
      (match (Node.property pos object member).pathName? with
        | some (name, _) => [⟨name, pos⟩]
        | none => [])
  | .items (n :: _), .rest => s.use prelude n.uses
  | _, _ => s

def walked (s : Stage) : Part → Walk
  | .block ns => block prelude s.functions s.walk ns
  | .statement n => stmt prelude s.functions s.walk n
  | .expression n => s.walk.useAll prelude s.functions n.uses
  | .items ns => s.walk.useAll prelude s.functions (Node.usesAll ns)

end Stage

end Escape

structure Visit where
  place : Lowering.Place
  stage : Escape.Stage

namespace Visit

open Lowering Escape

variable {prelude : Prelude} {v : Visit} {n : Node} {next : Part} {t : Turn} {pos : Position}

def start (o : CompileOptions) : Visit :=
  ⟨⟨o.context, .none, o.start, .missing, o.start⟩, ⟨[], .start⟩⟩

/-- Where the two are at the end of a way. -/
def along (prelude : Prelude) (v : Visit) : Part → List Turn → Option Visit
  | _, [] => some v
  | part, t :: way =>
    match part.turn? t, v.place.turn part t with
    | some next, some place => along prelude ⟨place, v.stage.turn prelude part t⟩ next way
    | _, _ => none

def Agrees (prelude : Prelude) (v : Visit) : Prop :=
  ∀ name, v.place.state.HasKind name ↔ v.stage.walk.Knows prelude name

/-- Inside a statement the walk knows the names that the compiler knew in front of it. The compiler knows
the variable that the statement declares as well. -/
def AgreesInside (prelude : Prelude) (v : Visit) : Prop :=
  ∀ name, (v.place.front.HasKind name ↔ v.stage.walk.Knows prelude name) ∧
    (v.place.state.HasKind name ↔ v.place.around.declared? = some name ∨ v.place.front.HasKind name)

/-- What holds on the way: compilation of the part goes through, and the two agree as far as they can. -/
def Holds (prelude : Prelude) (v : Visit) (part : Part) : Prop :=
  v.place.Compiles part ∧
    match part with
    | .block _ => v.place.live = .none ∧ v.Agrees prelude
    | .statement n =>
      v.place.live = .none ∧ v.place.around = n ∧ v.place.front = v.place.state ∧ v.Agrees prelude
    | .expression _ | .items _ => v.AgreesInside prelude

/-! ## One turn -/

/-- Both take the turn, and what holds on the way holds of the next part. -/
def Turns (prelude : Prelude) (v : Visit) (part : Part) (t : Turn) (next : Part) : Prop :=
  ∃ place, v.place.turn part t = some place ∧
    Holds prelude ⟨place, v.stage.turn prelude part t⟩ next

theorem turns_block {ns : List Node} (h : v.Holds prelude (.block ns))
    (hturn : (Part.block ns).turn? t = some next) : v.Turns prelude (.block ns) t next := by
  obtain ⟨⟨code, st, hcode⟩, hlive, hagrees⟩ := h
  cases ns with
  | nil => cases t <;> cases hturn
  | cons n rest =>
    obtain ⟨c, mid, more, hc, hmore, -⟩ := stmts_cons_eq_ok hcode
    cases t with
    | first =>
      cases hturn
      exact ⟨_, rfl, ⟨c, mid, hc⟩, hlive, rfl, rfl, hagrees⟩
    | rest =>
      cases hturn
      refine ⟨{ v.place with state := mid }, ?_, ⟨more, st, hmore⟩, hlive, fun name => ?_⟩
      · exact leaves_bind (leaves_eq_some hc) _
      · obtain ⟨entries, hentries⟩ := stmt_records hc
        exact (hentries.records.hasKind_iff.trans
          (or_congr (by rw [hentries.names]) (hagrees name))).trans
          (knows_stmt prelude name n _ _).symm
    | _ => cases hturn

/-- Uses in front of an expression change nothing, unless its statement is a declaration. -/
theorem Holds.inside (h : v.Holds prelude (.statement n)) (hdeclared : n.declared? = none)
    (us : List Use) : AgreesInside prelude ⟨v.place, v.stage.use prelude us⟩ := by
  obtain ⟨-, -, haround, hfront, hagrees⟩ := h
  intro name
  refine ⟨?_, ?_⟩
  · rw [hfront]
    exact (hagrees name).trans Walk.knows_useAll.symm
  · simp [hfront, haround, hdeclared]

/-- The test, the value or the whole of a statement that declares no variable. -/
theorem Holds.turns_inside {e : Node} {st : State} {code : Code} {src : Operand}
    (h : v.Holds prelude (.statement n)) (hdeclared : n.declared? = none)
    (he : Reach v.place.ctx .none e v.place.state st code src)
    (hplace : v.place.turn (.statement n) t = some v.place) (us : List Use)
    (hstage : v.stage.turn prelude (.statement n) t = v.stage.use prelude us) :
    v.Turns prelude (.statement n) t (.expression e) := by
  refine ⟨v.place, hplace, ?_, ?_⟩
  · rw [← h.2.1] at he
    exact he.fetched
  · rw [hstage]
    exact h.inside hdeclared us

/-- A block that is entered, with what has been compiled and walked in front of it. -/
theorem Agrees.entered (h : v.Agrees prelude) {st : State} {entries : List (Name × Kind)} {w : Walk}
    (hst : Records v.place.state st entries)
    (hw : ∀ name, w.Knows prelude name ↔ name ∈ entries.map (·.1) ∨ v.stage.walk.Knows prelude name) :
    ∀ name, st.entered.HasKind name ↔ w.enter.Knows prelude name := by
  intro name
  rw [Walk.knows_enter, hw, ← h name]
  exact hst.hasKind_iff

theorem turns_cond {test : Node} {yes no : List Node}
    (h : v.Holds prelude (.statement (.cond pos test yes no)))
    (hturn : (Part.statement (.cond pos test yes no)).turn? t = some next) :
    v.Turns prelude (.statement (.cond pos test yes no)) t next := by
  obtain ⟨⟨code, st, hcode⟩, hlive, -, -, hagrees⟩ := id h
  obtain ⟨c, cell, mid, yesCode, mid', noCode, hc, hy, hn, -⟩ := stmt_cond_eq_ok hcode
  have htest := (expr_extends test hc).records
  cases t with
  | test =>
    cases hturn
    exact h.turns_inside rfl (.computed hc) rfl [] rfl
  | yes =>
    cases hturn
    obtain ⟨last, hlast, -⟩ := inBlock_states hy
    refine ⟨{ v.place with state := mid.entered }, ?_, ⟨yesCode, last, hlast⟩, hlive,
      hagrees.entered htest fun name => ?_⟩
    · exact leaves_bind (leaves_eq_some hc) _
    · simpa [Stage.use] using Walk.knows_useAll
  | no =>
    cases hturn
    obtain ⟨last, hlast, -⟩ := inBlock_states hn
    obtain ⟨middle, hyes, rfl⟩ := inBlock_states hy
    obtain ⟨entries, hentries⟩ := (lowers_of_stmts yes hyes).records
    refine ⟨{ v.place with state := middle.left.entered }, ?_, ⟨noCode, last, hlast⟩, hlive,
      hagrees.entered (htest.append hentries.block.records) fun name => ?_⟩
    · exact (leaves_bind (leaves_eq_some hc) _).trans (leaves_bind (leaves_eq_some hy) _)
    · rw [Walk.knows_leave, knows_block, Walk.knows_enter, List.nil_append, hentries.names]
      exact or_congr_right Walk.knows_useAll
  | _ => cases hturn

theorem turns_loop {test : Node} {body : List Node}
    (h : v.Holds prelude (.statement (.loop pos test body)))
    (hturn : (Part.statement (.loop pos test body)).turn? t = some next) :
    v.Turns prelude (.statement (.loop pos test body)) t next := by
  obtain ⟨⟨code, st, hcode⟩, hlive, -, -, hagrees⟩ := id h
  obtain ⟨c, cell, mid, bodyCode, hc, hb, -⟩ := stmt_loop_eq_ok hcode
  cases t with
  | test =>
    cases hturn
    exact h.turns_inside rfl (.computed hc) rfl [] rfl
  | body =>
    cases hturn
    obtain ⟨last, hlast, -⟩ := inBlock_states hb
    refine ⟨{ v.place with state := mid.entered }, ?_, ⟨bodyCode, last, hlast⟩, hlive,
      hagrees.entered (expr_extends test hc).records fun name => ?_⟩
    · exact leaves_bind (leaves_eq_some hc) _
    · simpa [Stage.use] using Walk.knows_useAll
  | _ => cases hturn

theorem turns_func {name : Name} {params : List Param} {result : Option TypeExpr}
    {body : List Node} (h : v.Holds prelude (.statement (.func pos name params result body)))
    (hturn : (Part.statement (.func pos name params result body)).turn? t = some next) :
    v.Turns prelude (.statement (.func pos name params result body)) t next := by
  obtain ⟨⟨code, st, hcode⟩, hlive, -, -, hagrees⟩ := h
  cases t <;> cases hturn
  obtain ⟨slots, first, bodyCode, last, encoded, hslots, hb, -⟩ := stmt_func_states hcode
  obtain ⟨entries, hentries, hnames⟩ := parameters_records hslots
  refine ⟨{ v.place with ctx := v.place.ctx.inner, state := first }, ?_, ⟨bodyCode, last, hb⟩, hlive,
    fun name => ?_⟩
  · exact leaves_bind (leaves_eq_some hslots) _
  · refine hentries.hasKind_iff.trans ?_
    rw [hnames]
    exact (or_congr_right ((hagrees name).trans Walk.knows_enter.symm)).trans
      Walk.knows_declareAll.symm

/-- The compiler knows the variable in its own initializer; the walk does not. -/
theorem turns_declaration {left init : Node} {written : Option TypeExpr}
    (h : v.Holds prelude (.statement (.binary pos .declare left init written))) :
    v.Turns prelude (.statement (.binary pos .declare left init written)) .value
      (.expression init) := by
  obtain ⟨⟨code, st, hcode⟩, hlive, haround, hfront, hagrees⟩ := h
  obtain ⟨namePos, name, rfl⟩ := exists_ident_of_declareCell hcode
  obtain ⟨kind, mid, r, hmid, hrecords, hr⟩ := declareCell_value hcode
  rw [← hlive] at hr
  refine ⟨{ v.place with state := mid }, ?_, ⟨r, st, hr⟩, fun other => ⟨?_, ?_⟩⟩
  · exact leaves_bind hmid _
  · exact hfront ▸ hagrees other
  · rw [haround, hfront]
    refine hrecords.hasKind_iff.trans (or_congr_left ?_)
    simp [Node.declared?, eq_comm]

theorem turns_binary {op : Operator} {left right : Node} {written : Option TypeExpr}
    (h : v.Holds prelude (.statement (.binary pos op left right written)))
    (hturn : (Part.statement (.binary pos op left right written)).turn? t = some next) :
    v.Turns prelude (.statement (.binary pos op left right written)) t next := by
  obtain ⟨⟨code, st, hcode⟩, -⟩ := id h
  cases t with
  | value =>
    rcases stmt_binary_eq_ok hcode with ⟨rfl, hdeclare⟩ | ⟨rfl, hassign⟩ | ⟨cell, he⟩
    · cases hturn
      exact turns_declaration h
    · cases hturn
      obtain ⟨namePos, name, rfl⟩ := exists_ident_of_assign hassign
      obtain ⟨-, -, c, src, hreach, -⟩ := assign_states hassign
      exact h.turns_inside rfl hreach rfl _ rfl
    · obtain ⟨hop, -⟩ := expr_binary_eq_ok he
      cases op
      case assign | declare | other => cases hop
      all_goals
        cases hturn
        exact h.turns_inside rfl (.computed he) rfl [] rfl
  | _ => cases op <;> cases hturn

theorem turns_statement (h : v.Holds prelude (.statement n))
    (hturn : (Part.statement n).turn? t = some next) : v.Turns prelude (.statement n) t next := by
  obtain ⟨⟨code, st, hcode⟩, -⟩ := id h
  cases n with
  | cond => exact turns_cond h hturn
  | loop => exact turns_loop h hturn
  | func => exact turns_func h hturn
  | binary => exact turns_binary h hturn
  | ret pos value =>
    cases t with
    | value =>
      have hmissing : value ≠ .missing := by
        rintro rfl
        cases hturn
      have hnext : next = .expression value := by
        cases value <;> first | exact absurd rfl hmissing | (cases hturn; rfl)
      subst hnext
      obtain ⟨c, src, hreach, -⟩ := stmt_ret_eq_ok hmissing hcode
      exact h.turns_inside rfl hreach rfl [] rfl
    | _ => cases value <;> cases hturn
  | index | array | call | property =>
    cases t <;> cases hturn
    obtain ⟨⟨c, cell⟩, he, -⟩ := map_eq_ok.1 hcode
    exact h.turns_inside rfl (.computed he) rfl [] rfl
  | _ => cases t <;> cases hturn

theorem AgreesInside.further (h : v.AgreesInside prelude) (live : Live) {st : State}
    (hst : Extends v.place.state st) (us : List Use) :
    AgreesInside prelude
      ⟨{ v.place with live := live, state := st }, v.stage.use prelude us⟩ := by
  intro name
  exact ⟨(h name).1.trans Walk.knows_useAll.symm, hst.hasKind_iff.trans (h name).2⟩

theorem turns_expression (h : v.Holds prelude (.expression n))
    (hturn : (Part.expression n).turn? t = some next) :
    v.Turns prelude (.expression n) t next := by
  obtain ⟨⟨⟨code, cell⟩, st, hexpr⟩, hagrees⟩ := h
  rw [fetch_eq_expr hturn] at hexpr
  have hfurther := fun live => hagrees.further live (Extends.refl _)
  cases n with
  | binary pos op left right written =>
    obtain ⟨hleft, hright⟩ := fetch_operands hexpr
    cases t with
    | left =>
      cases hturn
      exact ⟨_, rfl, hleft, hagrees⟩
    | right =>
      cases hturn
      rcases hright with ⟨hsimple, hr⟩ | ⟨hcomputed, ⟨c, o⟩, mid, hl, hr⟩
      · refine ⟨v.place, ?_, hr, hfurther _ _⟩
        exact if_pos hsimple
      · refine ⟨{ v.place with live := v.place.live.withSecondary, state := mid }, ?_, hr,
          hagrees.further _ (expr_extends left hl) _⟩
        exact (if_neg (by simp [hcomputed])).trans (leaves_bind (leaves_eq_some hl) _)
    | _ => cases hturn
  | index pos name i =>
    cases t with
    | value =>
      cases hturn
      obtain ⟨-, c, hc, -⟩ := expr_index_eq_ok hexpr
      exact ⟨_, rfl, fetched_of_expr hc, hfurther _ _⟩
    | _ => cases hturn
  | array pos elements =>
    cases t with
    | body =>
      cases hturn
      obtain ⟨-, stores, hs, -⟩ := expr_array_eq_ok hexpr
      exact ⟨_, rfl, .inr ⟨_, _, _, _, hs⟩, hfurther _ []⟩
    | _ => cases hturn
  | call pos callee args =>
    cases t with
    | body =>
      cases hturn
      obtain ⟨name, pushes, -, hp, -⟩ := expr_call_form hexpr
      exact ⟨_, rfl, .inl ⟨_, _, hp⟩, hfurther _ _⟩
    | _ => cases hturn
  | property pos object member =>
    cases t with
    | body =>
      cases hturn
      obtain ⟨pushes, hp⟩ := pushAll_of_property hexpr
      exact ⟨_, rfl, .inl ⟨_, _, hp⟩, hfurther _ _⟩
    | _ => cases hturn
  | _ => cases t <;> cases hturn

theorem turns_items {ns : List Node} (h : v.Holds prelude (.items ns))
    (hturn : (Part.items ns).turn? t = some next) : v.Turns prelude (.items ns) t next := by
  obtain ⟨hcode, hagrees⟩ := h
  cases ns with
  | nil => cases t <;> cases hturn
  | cons n rest =>
    have hfirst : ∃ c src mid, Reach v.place.ctx v.place.live n v.place.state mid c src ∧
        Place.Compiles { v.place with state := mid } (.items rest) := by
      rcases hcode with ⟨code, st, hcode⟩ | ⟨ptr, i, code, st, hcode⟩
      · obtain ⟨c, src, mid, more, hreach, hmore, -⟩ := pushAll_cons_eq_ok hcode
        exact ⟨c, src, mid, hreach, .inl ⟨_, _, hmore⟩⟩
      · obtain ⟨c, src, mid, more, hreach, hmore, -⟩ := storeAll_cons_eq_ok hcode
        exact ⟨c, src, mid, hreach, .inr ⟨_, _, _, _, hmore⟩⟩
    obtain ⟨c, src, mid, hreach, hrest⟩ := hfirst
    cases t with
    | first =>
      cases hturn
      exact ⟨_, rfl, hreach.fetched, hagrees⟩
    | rest =>
      cases hturn
      obtain ⟨r, hr⟩ := hreach.fetch_eq_ok
      refine ⟨{ v.place with state := mid }, ?_, hrest, hagrees.further _ hreach.extends_of _⟩
      exact leaves_bind (leaves_eq_some hr) _
    | _ => cases hturn

theorem Holds.turns {part : Part} (h : v.Holds prelude part) (hturn : part.turn? t = some next) :
    v.Turns prelude part t next := by
  cases part with
  | block => exact turns_block h hturn
  | statement => exact turns_statement h hturn
  | expression => exact turns_expression h hturn
  | items => exact turns_items h hturn

end Visit

end UnitScript
