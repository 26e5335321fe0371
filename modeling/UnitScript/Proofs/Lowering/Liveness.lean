import UnitScript.Proofs.Lowering.Order
import UnitScript.Proofs.Machine.Continuity

/-!
# Values that wait survive

The compiler is told how many cells of a nesting role are in use. The same code comes from a compiler
that counts them itself: it takes a cell into use, and gives it back when the code that needs it is done,
also when this fails. So the counts are the same before and after every expression. The instructions of
the code change no cell that is in use: each one changes, in the innermost frame, one of the cells that
results are left in or a cell that is not in use. Only the functions that are called may change others.
-/

namespace UnitScript

namespace Lowering

/-! ## Counting the cells in use -/

namespace Live

def count (l : Live) : Role → Nat
  | .secondary => l.secondary
  | .aggregate => l.aggregate
  | _ => 0

def acquire (l : Live) : Role → Live
  | .secondary => l.withSecondary
  | .aggregate => l.withAggregate
  | _ => l

def release (l : Live) : Role → Live
  | .secondary => { l with secondary := l.secondary - 1 }
  | .aggregate => { l with aggregate := l.aggregate - 1 }
  | _ => l

theorem release_acquire (l : Live) (role : Role) : (l.acquire role).release role = l := by
  cases role <;> rfl

end Live

/-- Computations that count the cells in use. The counts are there also after a failure. -/
abbrev Pooled := StateT State (ExceptT CompileError (StateM Live))

/-- A computation that takes no cell into use. -/
def Lower.pooled {α : Type} (x : Lower α) : Pooled α := fun st live => (x st, live)

/-- Takes a cell into use for a computation, and gives it back however this ends. -/
def holding {α : Type} (ctx : Context) (role : Role) (act : Code → Operand → Pooled α) : Pooled α :=
  fun st live =>
    let r := act (ctx.cellDeclaration role (live.count role))
      (.cell (ctx.cellName role (live.count role))) st (live.acquire role)
    (r.1, r.2.release role)

mutual

/-- `expr`, with the cells in use counted. -/
def exprPooled (ctx : Context) : Node → Pooled (Code × Operand)
  | .binary pos op left right _ => do
    if !(op.isArithmetic || op.isComparison) then
      throw (.mk .unsupportedConstruct pos (Text.quoted op.text ++ " in expression position") .none)
    let dst := ctx.primary
    match ← (simpleOperand? left).pooled, ← (simpleOperand? right).pooled with
    | some a, some b => return ([combine op a b dst], dst)
    | some a, none =>
      let code ← (requireScalar ctx right (← exprPooled ctx right)).pooled
      return (code ++ [combine op a dst dst], dst)
    | none, some b =>
      let code ← (requireScalar ctx left (← exprPooled ctx left)).pooled
      return (code ++ [combine op dst b dst], dst)
    | none, none =>
      let leftCode ← (requireScalar ctx left (← exprPooled ctx left)).pooled
      holding ctx .secondary fun declaration held => do
        let rightCode ← (requireScalar ctx right (← exprPooled ctx right)).pooled
        return (leftCode ++ declaration ++ [.mov dst held] ++ rightCode ++ [combine op held dst dst], dst)
  | .call pos callee args => do
    match callee.pathName? with
    | some (name, false) =>
      let pushes ← handAllPooled ctx (fun _ => .push) 0 args
      let (code, place) ← (callAndPop ctx name).pooled
      return (pushes ++ code, place)
    | _ =>
      throw (.mk .malformedCallee pos ("callee " ++ callee.shape ++ " is not a name") .none)
  | .property pos object member => do
    match (Node.property pos object member).pathName? with
    | none => throw (.mk .malformedCallee pos "property path is not reducible to a name" .none)
    | some (name, true) =>
      let pushes ← pushPathArgsPooled ctx member
      let (code, place) ← (callAndPop ctx name).pooled
      return (pushes ++ code, place)
    | some (name, false) =>
      let place ← (placeOf ctx name).pooled
      return ([.mov (.cell name) place], place)
  | .index _ name index => do
    let code ← (requireScalar ctx index (← exprPooled ctx index)).pooled
    let dst := ctx.primary
    return (code ++ [.arith .add (.cell name) dst dst, .deref dst dst], dst)
  | .array _ elements =>
    holding ctx .aggregate fun declaration ptr => do
      let store i src := Instruction.pmov src ptr (.imm (Int64.ofNat i))
      let stores ← handAllPooled ctx store 0 elements
      return (declaration ++ [.alloc .i64 (Int64.ofNat elements.length) ptr] ++ stores ++
        [.mov ptr ctx.primary], ctx.primary)
  | n => (expr ctx .none n).pooled

/-- `pushAll` and `storeAll`, with the cells in use counted; `f` hands a value over. -/
def handAllPooled (ctx : Context) (f : Nat → Operand → Instruction) (i : Nat) :
    List Node → Pooled Code
  | [] => return []
  | n :: rest => do
    let first ←
      match ← (direct? ctx n).pooled with
      | some src => pure [f i src]
      | none => do
        let (code, place) ← exprPooled ctx n
        pure (code ++ [f i place])
    return first ++ (← handAllPooled ctx f (i + 1) rest)

def pushPathArgsPooled (ctx : Context) : Node → Pooled Code
  | .property _ _ member => pushPathArgsPooled ctx member
  | .call _ _ args => handAllPooled ctx (fun _ => .push) 0 args
  | _ => return []

end

/-- With these counts, the result is that of a computation without them, and they are as before. -/
def Restores {α : Type} (live : Live) (x : Pooled α) (y : Lower α) : Prop :=
  ∀ st, x st live = (y st, live)

variable {α β : Type} {ctx : Context} {live : Live} {n : Node} {ns : List Node}

theorem restores_pooled (x : Lower α) : Restores live x.pooled x := fun _ => rfl

theorem restores_pure (a : α) : Restores live (pure a) (pure a) := fun _ => rfl

theorem restores_throw (e : CompileError) : Restores live (throw e : Pooled α) (throw e) := fun _ => rfl

theorem Restores.bind {x : Pooled α} {y : Lower α} {k : α → Pooled β} {g : α → Lower β}
    (hx : Restores live x y) (hk : ∀ a, Restores live (k a) (g a)) :
    Restores live (x >>= k) (y >>= g) := by
  intro st
  simp only [Bind.bind, StateT.bind, ExceptT.bind, ExceptT.mk, Except.bind]
  rw [hx st]
  cases y st with
  | error e => rfl
  | ok p => exact hk p.1 p.2

theorem restores_holding {role : Role} {act : Code → Operand → Pooled α} {y : Lower α}
    (h : Restores (live.acquire role) (act (ctx.cellDeclaration role (live.count role))
      (.cell (ctx.cellName role (live.count role)))) y) : Restores live (holding ctx role act) y := by
  intro st
  simp only [holding, h st, Live.release_acquire]

theorem restores_handAll (h : ∀ n ∈ ns, Restores live (exprPooled ctx n) (expr ctx live n))
    (f : Nat → Operand → Instruction) (i : Nat) :
    Restores live (handAllPooled ctx f i ns) (handAll ctx live f i ns) := by
  induction ns generalizing i with
  | nil =>
    rw [handAllPooled]
    exact restores_pure _
  | cons n rest ih =>
    rw [List.forall_mem_cons] at h
    have hrest : ∀ first : Code, Restores live
        (do return first ++ (← handAllPooled ctx f (i + 1) rest))
        (do return first ++ (← handAll ctx live f (i + 1) rest)) :=
      fun first => (ih h.2 (i + 1)).bind fun _ => restores_pure _
    rw [handAllPooled]
    refine (restores_pooled _).bind fun o => ?_
    cases o with
    | some src => exact (restores_pure _).bind hrest
    | none => exact h.1.bind fun r => (restores_pure _).bind hrest

theorem pushPathArgsPooled_eq (ctx : Context) (n : Node) :
    pushPathArgsPooled ctx n = handAllPooled ctx (fun _ => .push) 0 n.pathArgs := by
  fun_induction Node.pathArgs n with
  | case1 _ _ member ih => rw [pushPathArgsPooled, ih]
  | case2 => rw [pushPathArgsPooled]
  | case3 n hproperty hcall => cases n <;> simp_all [pushPathArgsPooled, handAllPooled]

/-- Counting the cells in use gives the same code or the same failure, and the counts from before. -/
theorem restores_expr (ctx : Context) (live : Live) (n : Node) :
    Restores live (exprPooled ctx n) (expr ctx live n) := by
  induction n using Node.induction_value generalizing live with
  | number | string | ident => exact fun _ => rfl
  | other n hn =>
    intro st
    cases n with
    | binary | property | index | call | array | ident | string | number => cases hn
    | _ => rfl
  | binary pos op left right type ihl ihr =>
    have hscalar : ∀ {live m r}, Restores live (requireScalar ctx m r).pooled (requireScalar ctx m r) :=
      restores_pooled _
    rw [exprPooled, expr]
    split
    · exact restores_throw _
    refine (restores_pooled _).bind fun a => (restores_pooled _).bind fun b => ?_
    cases a with
    | some a =>
      cases b with
      | some b => exact restores_pure _
      | none => exact (ihr live).bind fun _ => hscalar.bind fun _ => restores_pure _
    | none =>
      cases b with
      | some b => exact (ihl live).bind fun _ => hscalar.bind fun _ => restores_pure _
      | none =>
        refine (ihl live).bind fun _ => hscalar.bind fun _ => restores_holding ?_
        exact (ihr _).bind fun _ => hscalar.bind fun _ => restores_pure _
  | index pos name i ih =>
    rw [exprPooled, expr]
    exact (ih live).bind fun _ => (restores_pooled _).bind fun _ => restores_pure _
  | array pos elements ih =>
    rw [exprPooled, expr, storeAll_eq]
    apply restores_holding
    exact (restores_handAll (fun m hm => ih m hm _) _ 0).bind fun _ => restores_pure _
  | call pos callee args ih =>
    have hcall := restores_handAll (fun m hm => ih m hm live) (fun _ => .push) 0
    rw [exprPooled, expr, pushAll_eq _ _ _ 0]
    rcases callee.pathName? with _ | ⟨name, _ | _⟩
    · exact restores_throw _
    · exact hcall.bind fun _ => (restores_pooled _).bind fun _ => restores_pure _
    · exact restores_throw _
  | property pos object member ih =>
    have hcall := restores_handAll (fun m hm => ih m hm live) (fun _ => .push) 0
    rw [exprPooled, expr, pushPathArgsPooled_eq, pushPathArgs_eq, pushAll_eq _ _ _ 0]
    rcases (Node.property pos object member).pathName? with _ | ⟨name, _ | _⟩
    · exact restores_throw _
    · exact (restores_pooled _).bind fun _ => restores_pure _
    · exact hcall.bind fun _ => (restores_pooled _).bind fun _ => restores_pure _

end Lowering

/-! ## What the instructions change -/

theorem Instruction.Tidy.of_plain {own D : Name → Prop} {i : Instruction} {c : List Instruction}
    (h : Tidy own D (i :: c)) (hplain : i.op.isLocal = true ∨ i.op = .call) :
    (∀ x, i.stores? = some x → own x → D x) ∧ Tidy own (fun x => D x ∨ i.declares? = some x) c := by
  obtain ⟨hscope, hfunc⟩ := Lowering.not_scope_of_plain hplain
  cases h with
  | plain _ _ hstore hrest => exact ⟨hstore, hrest⟩
  | scope hop | branches hop => exact absurd hop hscope
  | func hop => exact absurd hop hfunc

namespace Machine

open Instruction

/-- Of the cells of the innermost frame only some in `W` have changed, and no others at all. -/
structure ChangesWithin (W : Name → Prop) (m m' : Machine) : Prop where
  kept : CellsKept (fun _ => True) m m'
  inner : ∀ x, ¬W x → m'.frame.get? x = m.frame.get? x

/-- The body of the function that an instruction calls has run in a frame of its own. -/
def RunsCallee (limits : Limits) (i : Instruction) (m m' : Machine) : Prop :=
  ∃ o name f frame m₁ fuel r m₂, i.op = .call ∧ i.args = [o] ∧ callee o m = (.ok name, m) ∧
    m.functions.get? name = some f ∧
    popParams f.record.name f.record.params.reverse .empty m = (.ok frame, m₁) ∧
    exec limits fuel f.body f.body { m₁ with frames := frame :: m₁.frames } = (r, m₂) ∧
    m' = { m₂ with frames := m₂.frames.tail }

/-- All that happens to the cells while instructions are executed one after the other, up to the last
one or to where the execution ends: an instruction changes cells in `W`, or the body of a function
runs that it calls. -/
inductive Changes (limits : Limits) (W : Name → Prop) : List Instruction → Machine → Machine → Prop where
  | stops {c m m'} : SameCells m m' → Changes limits W c m m'
  | own {i c m m₁ m'} : ChangesWithin W m.tick m₁ → Changes limits W c m₁ m' →
      Changes limits W (i :: c) m m'
  | calls {i c m m₁ m'} : RunsCallee limits i m.tick m₁ → Changes limits W c m₁ m' →
      Changes limits W (i :: c) m m'

variable {W own D : Name → Prop} {limits : Limits} {fuel : Nat} {all rest c : List Instruction}
  {i : Instruction} {m m' : Machine}

theorem SameCells.changesWithin (h : SameCells m m') : ChangesWithin W m m' :=
  ⟨h.kept, fun x _ => by rw [h.frame]⟩

theorem invoke_changes {o : Operand} {name : Name} {f : Function} (hop : i.op = .call)
    (hargs : i.args = [o]) (hname : callee o m = (.ok name, m))
    (hf : m.functions.get? name = some f) :
    ChangesWithin W m (calling limits fuel f m).2 ∨
      RunsCallee limits i m (calling limits fuel f m).2 := by
  have hcase := callingCase limits fuel f m
  generalize calling limits fuel f m = r at hcase ⊢
  cases hcase with
  | tooDeep => exact .inl (SameCells.refl m).changesWithin
  | missing hsame => exact .inl hsame.changesWithin
  | ran hp hrun => exact .inr ⟨_, _, _, _, _, _, _, _, hop, hargs, hname, hf, hp, hrun, rfl⟩

/-- A step of an instruction that may only change cells in `W` of the innermost frame. -/
theorem step_changes (hplain : i.op.isLocal = true ∨ i.op = .call)
    (hwrites : ∀ x, i.declares? = some x ∨ i.stores? = some x → W x)
    (hstores : ∀ x, i.stores? = some x → m.declared x) (limits : Limits) (fuel : Nat) :
    ChangesWithin W m (step (calling limits fuel) i m).2 ∨
      RunsCallee limits i m (step (calling limits fuel) i m).2 := by
  have hcase := stepCase (i := i) (m := m) (calling limits fuel)
    (Lowering.isStep_of_plain hplain)
  generalize step (calling limits fuel) i m = r at hcase ⊢
  cases hcase with
  | done _ he =>
    have hchange := cellChange_of_effect? he
    refine .inl ⟨hchange.kept fun x hx _ => hstores x hx, fun x hx => ?_⟩
    exact hchange.frame_get? (fun h => hx (hwrites x (.inl h))) fun h => hx (hwrites x (.inr h))
  | failed _ hsame => exact .inl hsame.changesWithin
  | lent _ _ _ _ _ hb => exact .inl (callBuiltin_eq_ok hb).changesWithin
  | called hcall hargs hname hf => exact invoke_changes hcall hargs hname hf
  | registered hfunc =>
    rw [hfunc] at hplain
    rcases hplain with h | h <;> cases h

/-- An execution comes to the end of tidy code without scopes, or ends within it; either way its
instructions change only cells in `W` of the innermost frame. -/
theorem exec_changes (hplain : ∀ i ∈ c, i.op.isLocal = true ∨ i.op = .call)
    (hwrites : ∀ i ∈ c, ∀ x, i.declares? = some x ∨ i.stores? = some x → W x)
    (hown : ∀ x, W x → own x) (htidy : Tidy own D c) (hD : ∀ x, D x → m.declared x)
    (limits : Limits) (fuel : Nat) (all rest : List Instruction) :
    ∃ m₁, Changes limits W c m m₁ ∧
      ((∃ s, exec limits fuel all (c ++ rest) m = (.error s, m₁)) ∨
        ∃ fuel', exec limits fuel all (c ++ rest) m = exec limits fuel' all rest m₁) := by
  induction c generalizing m D fuel with
  | nil => exact ⟨m, .stops (.refl m), .inr ⟨fuel, rfl⟩⟩
  | cons i c ih =>
    rw [List.forall_mem_cons] at hplain hwrites
    have hstep := Lowering.isStep_of_plain hplain.1
    cases fuel with
    | zero => exact ⟨m, .stops (.refl m), .inl ⟨.outOfFuel, rfl⟩⟩
    | succ fuel =>
      obtain ⟨hstore, hrest⟩ := htidy.of_plain hplain.1
      have hdeclared : ∀ x, i.stores? = some x → m.tick.declared x := fun x hx =>
        hD x (hstore x hx (hown x (hwrites.1 x (.inr hx))))
      have hchange : ∀ {r m₁}, step (calling limits fuel) i m.tick =
          (r, m₁) → ∀ {m'}, Changes limits W c m₁ m' → Changes limits W (i :: c) m m' := by
        intro r m₁ hs m' hc
        have hcase := step_changes hplain.1 hwrites.1 hdeclared limits fuel
        rw [hs] at hcase
        exact hcase.elim (fun h => .own h hc) fun h => .calls h hc
      have hturn := turn limits fuel all (c ++ rest) i m
      rw [List.cons_append]
      generalize exec limits (fuel + 1) all (i :: (c ++ rest)) m = r at hturn ⊢
      cases hturn with
      | refused => exact ⟨m.tick, .stops (sameCells_tick m), .inl ⟨_, rfl⟩⟩
      | failed _ _ hs => exact ⟨_, hchange hs (.stops (.refl _)), .inl ⟨_, rfl⟩⟩
      | @stepped m₁ _ _ hs =>
        have hk := cellsKept_step (m := m.tick) (cellsKept_exec limits fuel) hstep
        rw [hs] at hk
        have hnext : ∀ x, D x ∨ i.declares? = some x → m₁.declared x := fun x hx =>
          hx.elim (fun h => hk.declared x (hD x h)) fun h => declared_of_step h hs
        obtain ⟨m', hc, hends⟩ := ih hplain.2 hwrites.2 hrest hnext fuel
        exact ⟨m', hchange hs hc, hends⟩
      | unread hop => rcases hop with hop | hop <;> rw [hop] at hstep <;> cases hstep
      | returned hop | ended hop | passed hop =>
        rw [hop] at hstep
        cases hstep
      | astray hop | jumped hop | notJumped hop =>
        rw [not_isStep_of_isJump hop] at hstep
        cases hstep

end Machine

namespace Lowering

/-- The cells that wait are out of reach of the code of an expression. The names of all cells are
distinct; counting the cells in use gives the same code or the same failure, and in the end the counts
from the start; and however the code is executed where the base cells are declared, its instructions
change only cells that are not in use. -/
theorem live_cells_survive {s : Scratch} (hs : s.validate = .ok ()) {ctx : Context}
    (hctx : ctx.scratch = s.withDefaults) (live : Live) (n : Node) (st : State) :
    (∀ q r i j, ctx.cellName q i = ctx.cellName r j → q = r ∧ i = j) ∧
    exprPooled ctx n st live = (expr ctx live n st, live) ∧
    ∀ code place st', expr ctx live n st = .ok ((code, place), st') →
      (∀ i ∈ code, i.op.isLocal = true ∨ i.op = .call) ∧
      ∀ limits fuel all rest m, (∀ r, m.declared (ctx.scratch.name r)) → ∃ m₁,
        Machine.Changes limits (ctx.Writes live) code m m₁ ∧
        ((∃ e, Machine.exec limits fuel all (code ++ rest) m = (.error e, m₁)) ∨
          ∃ fuel', Machine.exec limits fuel all (code ++ rest) m =
            Machine.exec limits fuel' all rest m₁) := by
  have hsep : ctx.scratch.Separate := by
    rw [hctx]
    exact Scratch.separate_of_validate hs
  refine ⟨fun _ _ _ _ => Context.cellName_injective hsep, restores_expr ctx live n st, ?_⟩
  intro code place st' hcode
  obtain ⟨-, hcomputing⟩ := expr_computing n hcode
  refine ⟨hcomputing.plain, fun limits fuel all rest m hm => ?_⟩
  apply Machine.exec_changes hcomputing.plain hcomputing.writes _ hcomputing.tidy
  · rintro x ⟨r, rfl⟩
    exact hm r
  · rintro x (rfl | rfl | ⟨k, -, rfl⟩ | ⟨k, -, rfl⟩)
    · exact ctx.own_cellName .primary 0
    · exact ctx.own_cellName .struct 0
    · exact ctx.own_cellName .secondary k
    · exact ctx.own_cellName .aggregate k

def plainContext : Context := ⟨"unit", Scratch.withDefaults {}, none, 0⟩

def freshState : State := ⟨⟨.empty, .empty, []⟩, 0, [], .empty⟩

/-- `f([1]) + g() * h()`. -/
def waitingSum : Node :=
  let call name args := Node.call ⟨1, 1⟩ (.ident ⟨1, 1⟩ (Bytes.ofString name)) args
  .binary ⟨1, 1⟩ .add (call "f" [.array ⟨1, 1⟩ [.number ⟨1, 1⟩ 1]])
    (.binary ⟨1, 1⟩ .mul (call "g" []) (call "h" []) none) none

/-- Where a cell of each kind is in use, the sum declares further ones for its array and for the left
sides of its two operations. -/
theorem waitingSum_survives :
    let compiled := expr plainContext ⟨1, 1⟩ waitingSum freshState
    let m : Machine :=
      { frames := [NameMap.ofList (Role.all.map fun r => (plainContext.scratch.name r, .null))] }
    exprPooled plainContext waitingSum freshState ⟨1, 1⟩ = (compiled, ⟨1, 1⟩) ∧
    ∃ code place st', compiled = .ok ((code, place), st') ∧
      code.filterMap Instruction.declares? = ["tempptr.1", "temp2.1", "temp2.2"] ∧
      ∀ limits fuel, ∃ m₁, Machine.Changes limits (plainContext.Writes ⟨1, 1⟩) code m m₁ ∧
        ((∃ e, Machine.exec limits fuel code (code ++ []) m = (.error e, m₁)) ∨
          ∃ fuel', Machine.exec limits fuel code (code ++ []) m =
            Machine.exec limits fuel' code [] m₁) := by
  intro compiled m
  have hctx : plainContext.scratch = Scratch.withDefaults {} := rfl
  obtain ⟨-, hpool, hcode⟩ := live_cells_survive (by decide +kernel) hctx ⟨1, 1⟩ waitingSum freshState
  refine ⟨hpool, _, _, _, rfl, by decide +kernel, fun limits fuel => ?_⟩
  refine (hcode _ _ _ rfl).2 limits fuel _ [] m fun r => ?_
  cases r <;> rfl

end Lowering

end UnitScript
