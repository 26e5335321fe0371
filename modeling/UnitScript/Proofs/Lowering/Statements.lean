import UnitScript.Proofs.Lowering.Arrays

/-!
# Compiled statements run as direct evaluation says

The code of a statement takes the course that the outcome of the statement asks for: it runs to its
end where the outcome is normal, returns, fails, or exceeds every bound up to the one at which
direct evaluation gives up. Loops are followed round by round.
-/

namespace UnitScript.Lowering

open Machine
open Meaning (Formula CallFree Store Outcome)

/-- The machine, after a return, has the cells and the heap of direct evaluation and its value. -/
structure Leaves (ctx : Context) (v : Value) (s : Store) (m : Machine) : Prop where
  result : m.result = v
  heap_eq : m.heap = s.heap
  user : ∀ x, ctx.IsUser x → m.globals.get? x = s.cells.get? x

theorem Mirrors.leaves {ctx : Context} {strings : NameMap Bytes} {s : Store} {m : Machine}
    (h : Mirrors ctx strings s.cells s.heap m) (v : Value) :
    Leaves ctx v s { m with result := v } :=
  ⟨rfl, h.heap_eq, h.user⟩

/-- The course of a piece of code agrees with an outcome. An evaluation that gives up at a bound
says of the code that it exceeds the bound. -/
inductive Agrees (ctx : Context) (strings : NameMap Bytes) (bound : Nat) :
    Outcome → Course → Prop where
  | normal {s m} : Mirrors ctx strings s.cells s.heap m →
      Agrees ctx strings bound (.normal s) (.passes m)
  | returned {v s m} : Leaves ctx v s m → Agrees ctx strings bound (.returned v s) (.returns m)
  | failed : Agrees ctx strings bound .failed .fails
  | outOfFuel : Agrees ctx strings bound .outOfFuel (.exceeds bound)

/-- From `m` the code takes a course that agrees with the outcome. -/
def Runs (ctx : Context) (limits : Limits) (strings : NameMap Bytes) (bound : Nat) (code : Code)
    (m : Machine) (o : Outcome) : Prop :=
  ∃ k, Follows limits code m k ∧ Agrees ctx strings bound o k

variable {ctx : Context} {limits : Limits} {strings : NameMap Bytes} {bound : Nat} {code d : Code}
  {m m' : Machine} {o : Outcome} {s : Store} {n : Node} {place src : Operand} {v : Value}
  {names : Name → Prop}

theorem Agrees.ticked {k : Course} (h : Agrees ctx strings bound o k) :
    Agrees ctx strings bound o k.ticked := by
  cases h with
  | normal hm => exact .normal hm.tick
  | returned hv => exact .returned hv
  | failed => exact .failed
  | outOfFuel => exact .outOfFuel

theorem Agrees.delayed {k : Course} (h : Agrees ctx strings bound o k) :
    Agrees ctx strings (bound + 1) o k.delayed := by
  cases h with
  | normal hm => exact .normal hm
  | returned hv => exact .returned hv
  | failed => exact .failed
  | outOfFuel => exact .outOfFuel

namespace Runs

theorem normal (h : Follows limits code m (.passes m'))
    (hm : Mirrors ctx strings s.cells s.heap m') :
    Runs ctx limits strings bound code m (.normal s) :=
  ⟨_, h, .normal hm⟩

theorem failed (h : Follows limits code m .fails) : Runs ctx limits strings bound code m .failed :=
  ⟨_, h, .failed⟩

theorem after (h : Follows limits code m (.passes m')) (hd : Runs ctx limits strings bound d m' o) :
    Runs ctx limits strings bound (code ++ d) m o := by
  obtain ⟨k, hk, hagrees⟩ := hd
  exact ⟨k, h.append hk, hagrees⟩

theorem andThen {next : Store → Outcome} (h : Runs ctx limits strings bound code m o)
    (hd : ∀ s m', Mirrors ctx strings s.cells s.heap m' →
      Runs ctx limits strings bound d m' (next s)) :
    Runs ctx limits strings bound (code ++ d) m (o.andThen next) := by
  obtain ⟨k, hk, hagrees⟩ := h
  cases hagrees with
  | normal hm => exact (hd _ _ hm).after hk
  | returned hv => exact ⟨_, hk.stop trivial d, .returned hv⟩
  | failed => exact ⟨_, hk.stop trivial d, .failed⟩
  | outOfFuel => exact ⟨_, hk.stop trivial d, .outOfFuel⟩

theorem of_le {b : Nat} (h : Runs ctx limits strings bound code m o) (hb : b ≤ bound) :
    Runs ctx limits strings b code m o := by
  obtain ⟨k, hk, hagrees⟩ := h
  cases hagrees with
  | normal hm => exact ⟨_, hk, .normal hm⟩
  | returned hv => exact ⟨_, hk, .returned hv⟩
  | failed => exact ⟨_, hk, .failed⟩
  | outOfFuel =>
    exact ⟨.exceeds b, fun fuel all rest hf => hk fuel all rest (Nat.le_trans hf hb), .outOfFuel⟩

end Runs

/-- A statement that uses the value of an expression runs after the code of the expression. -/
theorem Computes.runs {live : Live} (h : Computes ctx limits strings live n code place)
    (hm : Mirrors ctx strings s.cells s.heap m) {next : Value → Store → Outcome}
    (hd : ∀ v heap m', Mirrors ctx strings s.cells heap m' → Holds m' place v →
      Runs ctx limits strings bound d m' (next v { s with heap := heap })) :
    Runs ctx limits strings bound (code ++ d) m (s.with n next) := by
  have hc := h s.cells s.heap m hm
  unfold Store.with
  cases hv : Meaning.expr s.cells n s.heap with
  | none =>
    rw [hv] at hc
    have hf : Follows limits code m .fails := hc
    exact .failed (hf.stop trivial d)
  | some r =>
    rw [hv] at hc
    obtain ⟨m', hf, hm', hplace, -⟩ := hc
    exact (hd r.1 r.2 m' hm' hplace).after hf

theorem Reaches.runs {live : Live} (h : Reaches ctx limits strings live n code src)
    (hm : Mirrors ctx strings s.cells s.heap m) {next : Value → Store → Outcome}
    (hnone : ∀ m', m'.value? src = none → Follows limits d m' .fails)
    (hsome : ∀ v heap m', Mirrors ctx strings s.cells heap m' → m'.value? src = some v →
      Runs ctx limits strings bound d m' (next v { s with heap := heap })) :
    Runs ctx limits strings bound (code ++ d) m (s.with n next) := by
  unfold Store.with
  rcases h s.cells s.heap m hm with ⟨hv, hf⟩ | ⟨heap', m', hf, hm', -, hv⟩
  · rw [hv]
    exact .failed (hf.stop trivial d)
  · rw [hv]
    cases hsrc : m'.value? src with
    | none => exact .failed (hf.append (hnone m' hsrc))
    | some v => exact (hsome v heap' m' hm' hsrc).after hf

theorem runs_stmts_of {body : List Node} (hfree : ∀ n ∈ body, CallFree names n)
    (hbody : ∀ n ∈ body, ∀ {code m s st st'}, stmt ctx n st = .ok (code, st') →
      Covers strings st' → Mirrors ctx strings s.cells s.heap m →
      Runs ctx limits strings bound code m (Meaning.stmt bound n s))
    {st st' : State} (h : stmts ctx body st = .ok (code, st')) (hcover : Covers strings st')
    (hm : Mirrors ctx strings s.cells s.heap m) :
    Runs ctx limits strings bound code m (Meaning.block bound body s) := by
  induction body generalizing st code s m with
  | nil =>
    rw [stmts] at h
    obtain ⟨rfl, rfl⟩ := pure_eq_ok.1 h
    rw [Meaning.block]
    exact .normal (follows_nil limits m) hm
  | cons n rest ih =>
    obtain ⟨c, mid, more, hc, hmore, rfl⟩ := stmts_cons_eq_ok h
    have hrest : ∀ n' ∈ rest, CallFree names n' :=
      fun n' hn' => hfree n' (List.mem_cons_of_mem _ hn')
    have hmid : Covers strings mid :=
      hcover.before (stmts_grows hrest hmore)
    rw [Meaning.block]
    refine (hbody n List.mem_cons_self hc hmid hm).andThen fun s' m' hm' => ?_
    exact ih hrest (fun n' hn' => hbody n' (List.mem_cons_of_mem _ hn')) hmore hm'

theorem runs_inBlock_of {body : List Node} (hfree : ∀ n ∈ body, CallFree names n)
    (hbody : ∀ n ∈ body, ∀ {code m s st st'}, stmt ctx n st = .ok (code, st') →
      Covers strings st' → Mirrors ctx strings s.cells s.heap m →
      Runs ctx limits strings bound code m (Meaning.stmt bound n s))
    {st st' : State} (h : inBlock (stmts ctx body) st = .ok (code, st'))
    (hcover : Covers strings st') (hm : Mirrors ctx strings s.cells s.heap m) :
    Runs ctx limits strings bound code m (Meaning.block bound body s) := by
  obtain ⟨u, v, -, hstmts, hv⟩ := inBlock_eq_ok h
  have hgrows : Grows ctx v st' := hv.grows
  exact runs_stmts_of hfree hbody hstmts (hcover.before hgrows) hm

section Statements

variable (hl : limits.steps ≤ 0)
include hl

theorem runs_mov {x : Name} (hx : ctx.IsUser x) (hm : Mirrors ctx strings s.cells s.heap m)
    (hv : m.value? src = some v) :
    Runs ctx limits strings bound [.mov src (.cell x)] m (s.assign x v) := by
  have he : m.tick.effect? (.mov src (.cell x)) = m.tick.assign? (.cell x) v := by
    change (m.value? src).bind _ = _
    rw [hv]
    rfl
  rw [hm.tick.assign?_eq] at he
  have hcell : m.tick.globals.get? x = s.cells.get? x := hm.user x hx
  rw [hcell] at he
  unfold Store.assign NameMap.contains
  by_cases hc : (s.cells.get? x).isSome = true
  · rw [if_pos hc] at he ⊢
    exact .normal (follows_local hl rfl he) (hm.tick.put_user hx)
  · rw [if_neg hc] at he ⊢
    exact .failed (follows_local_fails hl rfl he)

theorem follows_mov_fails {dst : Operand} (hv : m.value? src = none) :
    Follows limits [.mov src dst] m .fails := by
  refine follows_local_fails hl rfl ?_
  change (m.value? src).bind _ = _
  rw [hv]
  rfl

theorem runs_cond {yes no : Code} (hv : Holds m place v) (hm : Mirrors ctx strings s.cells s.heap m)
    {oyes ono : Outcome}
    (hyes : Runs ctx limits strings bound yes m.tick.tick.tick oyes)
    (hno : Runs ctx limits strings bound no m.tick.tick.tick ono) :
    Runs ctx limits strings bound [condScope place yes no] m
      (if v = .int 0 then ono else oyes) := by
  have hval : m.tick.tick.value? place = some v := hm.tick.tick.value?_of_holds hv
  by_cases hz : v = .int 0
  · rw [if_pos hz]
    rw [hz] at hval
    obtain ⟨k, hk, hagrees⟩ := hno
    exact ⟨k, follows_cond_no hl hval hk, hagrees⟩
  · rw [if_neg hz]
    obtain ⟨k, hk, hagrees⟩ := hyes
    exact ⟨k.ticked, follows_cond_yes hl hval hz hk, hagrees.ticked⟩

/-- The rounds of a loop, from any machine that mirrors the cells at the start of a round. -/
theorem takes_rounds {test : Node} {testCode bodyCode : Code} {body : Store → Outcome}
    (htest : Computes ctx limits strings .none test testCode place)
    (hbody : ∀ s m, Mirrors ctx strings s.cells s.heap m →
      Runs ctx limits strings bound bodyCode m (body s))
    {k : Nat} (hk : k ≤ bound) (hm : Mirrors ctx strings s.cells s.heap m) :
    ∃ c, Takes limits (loopBlock testCode place bodyCode) (loopBlock testCode place bodyCode) m c ∧
      Agrees ctx strings k (Meaning.rounds test body k s) c := by
  induction k generalizing s m with
  | zero =>
    refine ⟨.exceeds 0, fun fuel hf => ?_, .outOfFuel⟩
    obtain rfl : fuel = 0 := by omega
    rfl
  | succ k ih =>
    have hc := htest s.cells s.heap m.tick hm.tick
    unfold Meaning.rounds Store.with
    cases hv : Meaning.expr s.cells test s.heap with
    | none =>
      rw [hv] at hc
      have hf : Follows limits testCode m.tick .fails := hc
      exact ⟨.fails, takes_loop_test_stop hl hf trivial, .failed⟩
    | some r =>
      rw [hv] at hc
      obtain ⟨m₁, hf, hm₁, hplace, -⟩ := hc
      have hval : m₁.tick.value? place = some r.1 := hm₁.tick.value?_of_holds hplace
      by_cases hz : r.1 = .int 0
      · rw [hz] at hval
        simp only [hz, if_true]
        exact ⟨_, takes_loop_exit hl hf hval, .normal hm₁.tick⟩
      · simp only [hz, if_false]
        obtain ⟨kb, hb, hagrees⟩ :=
          (hbody { s with heap := r.2 } m₁.tick.tick hm₁.tick.tick).of_le hk
        generalize body { s with heap := r.2 } = ob at hagrees
        cases hagrees with
        | normal hm₂ =>
          obtain ⟨c, hc, hagrees⟩ := ih (Nat.le_of_succ_le hk) hm₂.tick
          exact ⟨c.delayed, takes_loop_round hl hf hval hz hb hc, hagrees.delayed⟩
        | returned hv => exact ⟨_, takes_loop_body_stop hl hf hval hz hb trivial, .returned hv⟩
        | failed => exact ⟨_, takes_loop_body_stop hl hf hval hz hb trivial, .failed⟩
        | outOfFuel => exact ⟨_, takes_loop_body_stop hl hf hval hz hb trivial, .outOfFuel⟩

/-- The cell is declared before its initializer runs, which does not mention it. -/
theorem runs_declare {x : Name} {init : Node} {storage : Storage}
    (hx : ctx.IsUser x) (hinit : Formula (fun y => names y ∧ y ≠ x) init)
    (hreach : Reaches ctx limits strings .none init code src)
    (hm : Mirrors ctx strings s.cells s.heap m) :
    Runs ctx limits strings bound (.var storage x :: (code ++ [.mov src (.cell x)])) m
      (s.with init fun v s => .normal (s.declare x v)) := by
  have hm₁ : Mirrors ctx strings (s.cells.insert x (zero storage)) s.heap
      (m.tick.put x (zero storage)) := hm.tick.put_user hx
  have hsame : (s.with init fun v s => .normal (s.declare x v)) =
      ({ s with cells := s.cells.insert x (zero storage) } : Store).with init
        fun v s' => .normal ({ s with heap := s'.heap }.declare x v) := by
    unfold Store.with
    rw [Meaning.expr_insert hinit]
  rw [hsame]
  have hvar : Follows limits [.var storage x] m (.passes (m.tick.put x (zero storage))) :=
    follows_var hl hm.frames storage x
  refine Runs.after hvar ?_
  refine hreach.runs hm₁ (fun m' hv => follows_mov_fails hl hv) fun v heap m' hm' hv => ?_
  have hassign : ({ cells := s.cells.insert x (zero storage), heap := heap } : Store).assign x v =
      .normal ({ s with heap := heap }.declare x v) := by
    simp [Store.assign, Store.declare, NameMap.contains, NameMap.insert_insert]
  rw [← hassign]
  exact runs_mov hl hx hm' hv

theorem runs_ret (hm : Mirrors ctx strings s.cells s.heap m) (hv : m.value? src = some v) :
    Runs ctx limits strings bound [.ret [src]] m (.returned v s) :=
  ⟨_, follows_ret hl hm.frames hv, .returned (hm.tick.leaves v)⟩

theorem stmt_runs (hs : ctx.scratch.Separate) (hn : CallFree ctx.IsUser n) {st st' : State}
    (h : stmt ctx n st = .ok (code, st')) (hcover : Covers strings st')
    (hm : Mirrors ctx strings s.cells s.heap m) :
    Runs ctx limits strings bound code m (Meaning.stmt bound n s) := by
  induction hn generalizing st code st' s m with
  | declare pos namePos type hx hf =>
    obtain ⟨-, -, storage, mid, c, src, -, hreach, rfl⟩ := declareCell_states h
    have hf' := hf.of_names fun _ _ hx => hx.1
    rw [Meaning.stmt]
    exact runs_declare hl hx hf
      (hreach.reaches hf' hcover fun he => expr_computes hl hs hf' he hcover) hm
  | assign pos namePos type hx hf =>
    obtain ⟨-, -, c, src, hreach, rfl⟩ := assign_states h
    have hr := hreach.reaches hf hcover fun he => expr_computes hl hs hf he hcover
    rw [Meaning.stmt]
    exact hr.runs hm (fun m' hv => follows_mov_fails hl hv) fun v heap m' hm' hv =>
      runs_mov (s := { s with heap := heap }) hl hx hm' hv
  | cond pos ht hyes hno ihyes ihno =>
    obtain ⟨c, place, mid, yesCode, mid', noCode, hc, hy, hn, rfl⟩ := stmt_cond_eq_ok h
    have hmid' : Covers strings mid' :=
      hcover.before (inBlock_grows hno hn)
    have hmid : Covers strings mid :=
      hmid'.before (inBlock_grows hyes hy)
    rw [Meaning.stmt]
    refine (expr_computes hl hs ht hc hmid).runs hm fun v heap m' hm' hv => ?_
    refine runs_cond (s := { s with heap := heap }) hl hv hm' ?_ ?_
    · exact runs_inBlock_of hyes ihyes hy hmid' hm'.tick.tick.tick
    · exact runs_inBlock_of hno ihno hn hcover hm'.tick.tick.tick
  | loop pos ht hb ihb =>
    obtain ⟨c, place, mid, bodyCode, hc, hbody, rfl⟩ := stmt_loop_eq_ok h
    have hmid : Covers strings mid :=
      hcover.before (inBlock_grows hb hbody)
    rw [Meaning.stmt]
    obtain ⟨k, hk, hagrees⟩ := takes_rounds hl (expr_computes hl hs ht hc hmid)
      (fun s m hm => runs_inBlock_of hb ihb hbody hcover hm) (Nat.le_refl bound) hm.tick
    exact ⟨k, hk.loop hl, hagrees⟩
  | ret pos hf =>
    obtain ⟨c, src, hreach, rfl⟩ := stmt_ret_eq_ok hf.ne_missing h
    have hr := hreach.reaches hf hcover fun he => expr_computes hl hs hf he hcover
    rw [Meaning.stmt_ret hf.ne_missing]
    exact hr.runs hm (fun m' hv => follows_ret_fails hl hv) fun v heap m' hm' hv =>
      runs_ret (s := { s with heap := heap }) hl hm' hv
  | bareRet pos =>
    obtain ⟨rfl, rfl⟩ := pure_eq_ok.1 h
    rw [Meaning.stmt]
    refine ⟨_, follows_ret_bare hl, .returned ?_⟩
    exact ⟨hm.result, hm.heap_eq, hm.user⟩
  | pass pos =>
    obtain ⟨rfl, rfl⟩ := pure_eq_ok.1 h
    rw [Meaning.stmt]
    exact .normal (follows_local hl rfl rfl) hm.tick
  | expression hf =>
    obtain ⟨place, he⟩ := stmt_formula_eq_ok hf h
    rw [Meaning.stmt_formula hf]
    have hrun : Runs ctx limits strings bound (_ ++ []) m _ :=
      (expr_computes hl hs hf he hcover).runs hm fun v heap m' hm' _ =>
        .normal (s := { s with heap := heap }) (follows_nil limits m') hm'
    rwa [List.append_nil] at hrun

end Statements

end UnitScript.Lowering
