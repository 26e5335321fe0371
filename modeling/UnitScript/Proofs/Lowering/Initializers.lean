import UnitScript.Proofs.Lowering.CallConvention
import UnitScript.Proofs.Machine.Unconsulted

/-!
# Initializers

The code of a declaration creates the cell, evaluates the initializer and moves the value into the
cell, in this order. So the initializer is evaluated with the cell already there and zero. That is
the value which the initializer has in front of the declaration, unless its evaluation consults the
cell.
-/

namespace UnitScript

namespace Machine

open Instruction

/-- The code is carried out on the machine, and the operand has the value then. -/
def Evaluates (limits : Limits) (c : List Instruction) (src : Operand) (m : Machine) (v : Value) :
    Prop :=
  ∃ m₁, Passes limits c m m₁ ∧ m₁.value? src = some v

/-- What the operand is after the code, started on the machine, may depend on the cell `x` of the
innermost frame: it is the cell, or an instruction of the execution consults the cell. -/
def Involves (limits : Limits) (c : List Instruction) (src : Operand) (x : Name) (m : Machine) :
    Prop :=
  src = .cell x ∨ Meets limits (Consults m.frames.length x) c c m

def withCell (m : Machine) (x : Name) (storage : Storage) : Machine :=
  m.tick.setFrame (m.tick.frame.insert x (zero storage))

variable {limits limits' : Limits} {c : List Instruction} {src : Operand} {m m' : Machine} {x : Name}
  {v w : Value} {storage : Storage}

theorem declared_withCell (m : Machine) (x : Name) (storage : Storage) :
    (m.withCell x storage).declared x := by
  rw [declared, withCell, frame_setFrame]
  exact (contains_insert _ _ _ _).2 (.inl rfl)

theorem apart_withCell (m : Machine) (x : Name) (storage : Storage) :
    Apart m.frames.length x m (m.withCell x storage) := by
  have happart : ∀ f : Frame, FrameApart x f (f.insert x (zero storage)) := by
    intro f
    refine ⟨fun y hy => ?_, (contains_insert _ _ _ _).2 (.inl rfl)⟩
    rw [NameMap.get?_insert, if_neg (Ne.symm hy)]
  obtain ⟨data, functions, stack, globals, frames, heap, console, steps, result⟩ := m
  cases frames with
  | nil => exact ⟨rfl, rfl, rfl, rfl, rfl, rfl, .top (happart globals)⟩
  | cons f below => exact ⟨rfl, rfl, rfl, rfl, rfl, rfl, .call [] (happart f)⟩

theorem Evaluates.of_wider (h : Evaluates limits c src m v)
    (hw : Wider (fun _ => True) limits limits') : Evaluates limits' c src m v := by
  obtain ⟨m₁, hp, hv⟩ := h
  exact ⟨m₁, hp.of_wider hw, hv⟩

theorem Evaluates.unique (h : Evaluates limits c src m v) (g : Evaluates limits c src m w) :
    v = w := by
  obtain ⟨m₁, hp, hv⟩ := h
  obtain ⟨m₂, hp', hw⟩ := g
  cases hp.unique hp'
  rw [hv] at hw
  cases hw
  rfl

theorem Evaluates.withCell (h : Evaluates limits c src m v) (hno : ¬Involves limits c src x m)
    (storage : Storage) :
    Evaluates { limits with steps := 0 } c src (m.withCell x storage) v := by
  obtain ⟨m₁, hp, hv⟩ := h
  have hmeets : ¬Meets limits (Consults m.frames.length x) c (c ++ []) m := by
    rw [List.append_nil]
    exact fun h => hno (.inr h)
  obtain ⟨m₁', hp', hm₁⟩ := (apart_withCell m x storage).passes hmeets hp
  refine ⟨m₁', hp', ?_⟩
  rw [← hv]
  cases src with
  | cell y => exact hm₁.lookup? fun hy => absurd (.inl (by rw [hy])) hno
  | data name => simp only [Machine.value?, hm₁.data]
  | imm | func | unknown => rfl

theorem wider_unbounded (limits : Limits) :
    Wider (fun _ => True) limits { limits with steps := 0 } :=
  ⟨.inr ⟨trivial, .inl (Int.le_refl 0)⟩, .inl rfl⟩

/-- The code of a declaration evaluates the initializer with the cell in place, and leaves the value
in the cell. -/
theorem Passes.evaluates (h : Passes limits (.var storage x :: (c ++ [.mov src (.cell x)])) m m') :
    ∃ v, Evaluates limits c src (m.withCell x storage) v ∧ m'.frame.get? x = some v := by
  obtain ⟨m₀, hvar, hrest⟩ := h
  obtain ⟨m₁, hp, m₂, hmov, rfl⟩ := passes_append.1 hrest
  obtain ⟨-, _, _, hcount, hs⟩ := hvar
  obtain rfl := countStep_eq_ok hcount
  obtain rfl : m.withCell x storage = m₀ := Option.some.inj (step_local_eq_ok rfl hs)
  obtain ⟨-, _, _, hcount, hs⟩ := hmov
  obtain rfl := countStep_eq_ok hcount
  obtain ⟨v, hv, ha⟩ := Option.bind_eq_some_iff.1 (step_local_eq_ok rfl hs)
  refine ⟨v, ⟨m₁, hp, hv⟩, ?_⟩
  have hdeclared := hp.cellsKept.declared x (declared_withCell m x storage)
  rcases assign?_eq_some ha with ⟨-, rfl⟩ | ⟨hnot, -⟩
  · rw [frame_setFrame, NameMap.get?_insert, if_pos rfl]
  · exact absurd hdeclared hnot

/-- With the cell in place, the value of the initializer can be moved there. -/
theorem Evaluates.passes (h : Evaluates limits c src (m.withCell x storage) v)
    (hfree : limits.steps ≤ 0) :
    ∃ m', Passes limits (.var storage x :: (c ++ [.mov src (.cell x)])) m m' := by
  obtain ⟨m₁, hp, hv⟩ := h
  have hvar : Completes limits (.var storage x) m (m.withCell x storage) :=
    ⟨rfl, 0, m.tick, countStep_of_allowed (Limits.allows_of_unbounded hfree m), rfl⟩
  have hdeclared : m₁.tick.frame.contains x = true :=
    hp.cellsKept.declared x (declared_withCell m x storage)
  have heffect : m₁.tick.effect? (.mov src (.cell x)) =
      some (m₁.tick.setFrame (m₁.tick.frame.insert x v)) := by
    change (m₁.value? src).bind _ = _
    rw [hv]
    exact if_pos hdeclared
  have hdoes := does_step (calling limits 0) m₁.tick
    (.mov src (.cell x)) rfl
  rw [heffect] at hdoes
  have hmov : Completes limits (.mov src (.cell x)) m₁ _ :=
    ⟨rfl, 0, m₁.tick, countStep_of_allowed (Limits.allows_of_unbounded hfree m₁), hdoes.1⟩
  exact ⟨_, _, hvar, passes_append.2 ⟨m₁, hp, _, hmov, rfl⟩⟩

theorem Involves.named (h : Involves limits c src x m) (hm : m.frames ≠ [])
    (hc : ∀ i ∈ c, i.op.isStep = true) : src = .cell x ∨ ∃ i ∈ c, .cell x ∈ i.args := by
  rcases h with hsrc | hmeets
  · exact .inl hsrc
  · right
    refine Classical.byContradiction fun hnone => ?_
    refine hmeets.in_call (List.length_pos_iff.2 hm) (.inr ⟨rfl, fun i hi => ⟨hc i hi, fun hx => ?_⟩⟩)
    exact hnone ⟨i, hi, hx⟩

end Machine

namespace Lowering

variable {ctx : Context} {st st' : State} {ns : List Node} {n : Node} {code : Code}

theorem Emits.of_stmt (h : Emits ctx st ns n code) :
    ∃ ctx' mid mid', stmt ctx' n mid = .ok (code, mid') := by
  induction h with
  | @here ctx st st' _ _ _ hstmt => exact ⟨ctx, st, st', hstmt⟩
  | later _ _ ih | yes _ _ ih | no _ _ _ ih | loop _ _ ih | func _ _ ih => exact ih

theorem Emits.here_of (h : (stmt ctx n st).toOption.map Prod.fst = some code) :
    Emits ctx st (n :: ns) n code := by
  cases hstmt : stmt ctx n st with
  | error e =>
    rw [hstmt] at h
    cases h
  | ok p =>
    rw [hstmt] at h
    cases h
    exact .here hstmt

theorem stmt_declare_eq_ok {pos : Position} {target init : Node} {type : Option TypeExpr}
    (h : stmt ctx (.binary pos .declare target init type) st = .ok (code, st')) :
    ∃ namePos x storage mid c src, target = .ident namePos x ∧
      value ctx init mid = .ok ((c, src), st') ∧
      code = .var storage x :: (c ++ [.mov src (.cell x)]) := by
  change declareCell ctx pos target init type st = .ok (code, st') at h
  obtain ⟨namePos, x, rfl⟩ := exists_ident_of_declareCell h
  unfold declareCell at h
  obtain ⟨-, h₁⟩ := guard_eq_ok h
  obtain ⟨kind, _, -, h₂⟩ := bind_eq_ok.1 h₁
  obtain ⟨-, h₃⟩ := guard_eq_ok h₂
  obtain ⟨_, mid, -, h₄⟩ := bind_eq_ok.1 h₃
  obtain ⟨body, _, hs, h₅⟩ := bind_eq_ok.1 h₄
  obtain ⟨rfl, rfl⟩ := pure_eq_ok.1 h₅
  obtain ⟨⟨c, src⟩, _, hv, h₆⟩ := bind_eq_ok.1 hs
  obtain ⟨rfl, rfl⟩ := pure_eq_ok.1 h₆
  exact ⟨namePos, x, _, mid, c, src, rfl, hv, rfl⟩

theorem isStep_of_value {init : Node} {c : Code} {src : Operand}
    (h : value ctx init st = .ok ((c, src), st')) : ∀ i ∈ c, i.op.isStep = true := by
  intro i hi
  rcases (value_eq_ok h).of_expr.plain i hi with hlocal | hcall
  · exact Instruction.isStep_of_isLocal hlocal
  · rw [hcall]
    rfl

end Lowering

open Instruction Machine

/-- The code of a declaration, wherever it stands in a program: it creates the cell, evaluates the
initializer and moves the value. So whenever it goes through, the cell holds the value that the
initializer has in the state with the new cell, which is zero. The value that the initializer has in
the state in front of the declaration is the same if its evaluation there does not involve the cell:
then the declaration goes through, unless for a limit on the steps, and the cell holds that value.
In a call the evaluation involves the cell only if its code names the cell, whatever functions it
calls. -/
theorem CodeUnit.declaration_holds_value {o : CompileOptions} {body : List Node} {pos : Position}
    {target init : Node} {type : Option TypeExpr} {code : List Instruction}
    (h : Lowering.Emits o.context o.start body (.binary pos .declare target init type) code) :
    ∃ namePos x storage c src, target = .ident namePos x ∧
      (∃ ctx st st', Lowering.value ctx init st = .ok ((c, src), st')) ∧
      code = .var storage x :: (c ++ [.mov src (.cell x)]) ∧
      ∀ (limits : Limits) (m : Machine),
        (∀ m', Passes limits code m m' →
          ∃ v, Evaluates limits c src (m.withCell x storage) v ∧ m'.frame.get? x = some v) ∧
        (∀ v, Evaluates limits c src m v → ¬Involves limits c src x m →
          (∃ m', Passes { limits with steps := 0 } code m m') ∧
            ∀ m', Passes limits code m m' → m'.frame.get? x = some v) ∧
        (m.frames ≠ [] → Involves limits c src x m → src = .cell x ∨ ∃ i ∈ c, .cell x ∈ i.args) := by
  obtain ⟨ctx, st, st', hstmt⟩ := h.of_stmt
  obtain ⟨namePos, x, storage, mid, c, src, rfl, hvalue, rfl⟩ := Lowering.stmt_declare_eq_ok hstmt
  refine ⟨namePos, x, storage, c, src, rfl, ⟨ctx, mid, st', hvalue⟩, rfl,
    fun limits m => ⟨?_, ?_, ?_⟩⟩
  · exact fun m' hp => hp.evaluates
  · intro v hv hno
    -- the evaluation goes the same way with the cell in place, where the declaration finds its value
    have hwith := hv.withCell hno storage
    refine ⟨hwith.passes (Int.le_refl 0), fun m' hp => ?_⟩
    obtain ⟨w, hw, hget⟩ := hp.evaluates
    rw [hget, hwith.unique (hw.of_wider (wider_unbounded limits))]
  · exact fun hm hin => hin.named hm (Lowering.isStep_of_value hvalue)

/-! ## A local variable named like a cell of the top level -/

/-- The initializer is `x + 1`. -/
def rebinding : Node :=
  .binary ⟨3, 3⟩ .declare (.ident ⟨3, 7⟩ "x")
    (.binary ⟨3, 13⟩ .add (.ident ⟨3, 11⟩ "x") (.number ⟨3, 15⟩ 1) none) none

/-- A variable `x` of the top level, and a function that declares a variable of this name. -/
def rebindingBody : List Node :=
  [.binary ⟨1, 1⟩ .declare (.ident ⟨1, 5⟩ "x") (.number ⟨1, 9⟩ 1) none,
    .func ⟨2, 6⟩ "f" [] (some (.named ⟨2, 11⟩ "number"))
      [rebinding, .ret ⟨4, 3⟩ (.ident ⟨4, 10⟩ "x")],
    .ret ⟨6, 1⟩ (.call ⟨6, 9⟩ (.ident ⟨6, 8⟩ "f") [])]

def rebindingOptions : CompileOptions := { prelude := Builtin.prelude }

def rebindingCode : List Instruction :=
  [.var .i64 "x", .arith .add (.cell "x") (.imm 1) (.cell "temp"), .mov (.cell "temp") (.cell "x")]

theorem rebinding_emits : Lowering.Emits rebindingOptions.context rebindingOptions.start rebindingBody
    rebinding rebindingCode := by
  refine .later (eq_ok_of_isOk (by decide +kernel) ([], rebindingOptions.start)) (.func rfl ?_)
  exact .here_of (by decide +kernel)

/-- A call in which the cell `x` of the top level is seen. -/
def rebindingMachine : Machine :=
  { globals := NameMap.empty.insert "x" (.int 1), frames := [NameMap.empty.insert "temp" (.int 0)] }

theorem passes_of_exec_code {limits : Limits} {fuel : Nat} {c : List Instruction} {m : Machine}
    (hc : ∀ i ∈ c, i.op.isStep = true) (h : (exec limits fuel c c m).1.isOk = true) :
    Passes limits c m (exec limits fuel c c m).2 := by
  have he : exec limits fuel c (c ++ []) m =
      (.ok ((exec limits fuel c c m).1.toOption.getD false), (exec limits fuel c c m).2) := by
    rw [List.append_nil]
    exact Prod.ext (eq_ok_of_isOk h false) rfl
  obtain ⟨m₁, fuel', hp, hend⟩ := passes_of_exec hc he
  rw [exec_nil] at hend
  rw [← (Prod.mk.inj hend).2]
  exact hp

/-- In front of the declaration the initializer has the value 2, but the cell that is declared gets
the value 1, since its evaluation reads the new cell. -/
theorem rebinding_involves_cell :
    Lowering.Emits rebindingOptions.context rebindingOptions.start rebindingBody rebinding
      rebindingCode ∧
    Evaluates {} [.arith .add (.cell "x") (.imm 1) (.cell "temp")] (.cell "temp") rebindingMachine
      (.int 2) ∧
    Involves {} [.arith .add (.cell "x") (.imm 1) (.cell "temp")] (.cell "temp") "x"
      rebindingMachine ∧
    ∃ m', Passes {} rebindingCode rebindingMachine m' ∧ m'.frame.get? "x" = some (.int 1) := by
  have heval : Evaluates {} [.arith .add (.cell "x") (.imm 1) (.cell "temp")] (.cell "temp")
      rebindingMachine (.int 2) :=
    ⟨(exec {} 2 _ _ rebindingMachine).2, passes_of_exec_code (by decide) (by decide +kernel),
      by decide +kernel⟩
  have hpasses : Passes {} rebindingCode rebindingMachine
      (exec {} 4 rebindingCode rebindingCode rebindingMachine).2 :=
    passes_of_exec_code (by decide) (by decide +kernel)
  have hget : (exec {} 4 rebindingCode rebindingCode rebindingMachine).2.frame.get? "x" =
      some (.int 1) := by
    decide +kernel
  obtain ⟨namePos, x, storage, c, src, hx, -, hcode, hall⟩ :=
    CodeUnit.declaration_holds_value rebinding_emits
  cases hx
  obtain ⟨-, hbefore, -⟩ := hall {} rebindingMachine
  obtain ⟨hvar, hrest⟩ := List.cons.inj hcode
  have happend : [.arith .add (.cell "x") (.imm 1) (.cell "temp")] ++
      [.mov (.cell "temp") (.cell "x")] = c ++ [.mov src (.cell "x")] := hrest
  obtain ⟨rfl, hmov⟩ := List.append_inj' happend rfl
  cases hmov
  refine ⟨rebinding_emits, heval, ?_, _, hpasses, hget⟩
  refine Classical.byContradiction fun hno => ?_
  have htwo := (hbefore (.int 2) heval hno).2 _ hpasses
  rw [hget] at htwo
  cases htwo

end UnitScript
