import UnitScript.Proofs.Machine.Effects

/-!
# What executing code does

The equations of an execution, for each kind of instruction that it starts with: the instruction has
its effect, jumps, enters a scope, calls or returns, or the execution fails.
-/

namespace UnitScript

def Limits.Allows (l : Limits) (m : Machine) : Prop :=
  ¬(0 < l.steps ∧ l.steps < ((m.steps + 1 : Nat) : Int))

theorem Limits.allows_of_unbounded {l : Limits} (h : l.steps ≤ 0) (m : Machine) : l.Allows m := by
  unfold Limits.Allows
  omega

namespace Machine

def Fails {α : Type} (r : Except Stop α × Machine) : Prop := ∃ e m, r = (.error (.error e), m)

theorem Fails.bind {α β : Type} {x : Exec α} {m : Machine} (h : Fails (x m)) (f : α → Exec β) :
    Fails ((x >>= f) m) := by
  obtain ⟨e, m', h⟩ := h
  exact ⟨e, m', Exec.bind_of_error h⟩

variable {limits : Limits} {fuel : Nat} {all rest : List Instruction} {m m' : Machine}
  {i : Instruction} {o : Operand} {target : Nat}

abbrev calling (limits : Limits) (fuel : Nat) : Function → Exec Unit :=
  invoke limits fun body => exec limits fuel body body

theorem countStep_of_allowed (h : limits.Allows m) : countStep limits m = (.ok (), m.tick) := by
  change (if 0 < limits.steps ∧ limits.steps < ((m.steps + 1 : Nat) : Int) then
    throw (.error .stepBudget) else pure () : Exec Unit) m.tick = _
  rw [if_neg h]
  rfl

/-- A step that is allowed is counted, and what follows goes on from there. -/
theorem countStep_bind {α : Type} (h : limits.Allows m) (f : Unit → Exec α) :
    (countStep limits >>= f) m = f () m.tick :=
  Exec.bind_of_ok (countStep_of_allowed h)

theorem countStep_of_not_allowed (h : ¬limits.Allows m) :
    countStep limits m = (.error (.error .stepBudget), m.tick) := by
  change (if 0 < limits.steps ∧ limits.steps < ((m.steps + 1 : Nat) : Int) then
    throw (.error .stepBudget) else pure () : Exec Unit) m.tick = _
  rw [if_pos (Classical.not_not.1 h)]
  rfl

theorem exec_of_isStep (hop : i.op.isStep = true) (ha : limits.Allows m) :
    exec limits (fuel + 1) all (i :: rest) m =
      (Exec.wrap (.during i) (step (calling limits fuel) i) >>= fun _ =>
        exec limits fuel all rest) m.tick := by
  obtain ⟨op⟩ := i
  refine (countStep_bind ha _).trans ?_
  cases op <;> first | rfl | cases hop

theorem exec_of_scope (hop : i.op = .scope) (ha : limits.Allows m) :
    exec limits (fuel + 1) all (i :: rest) m =
      (exec limits fuel i.children i.children >>= fun returned =>
        if returned then pure true else exec limits fuel all rest) m.tick := by
  refine (countStep_bind ha _).trans ?_
  simp only [hop]

theorem exec_scope (ha : limits.Allows m) (children : List Instruction) :
    exec limits (fuel + 1) all (.scope children :: rest) m =
      (exec limits fuel children children >>= fun returned =>
        if returned then pure true else exec limits fuel all rest) m.tick :=
  exec_of_scope rfl ha

theorem step_call_of_function {run : Function → Exec Unit} {name : Name} {f : Function}
    (hop : i.op = .call) (hargs : i.args = [o]) (hc : callee o m = (.ok name, m))
    (hf : m.functions.get? name = some f) : step run i m = run f m := by
  obtain ⟨op⟩ := i
  subst hop hargs
  change (callee o >>= _) m = _
  rw [Exec.bind_of_ok hc, Exec.get_bind, hf]

theorem step_call_of_builtin {run : Function → Exec Unit} {name : Name} {b : Builtin}
    (hop : i.op = .call) (hargs : i.args = [o]) (hc : callee o m = (.ok name, m))
    (hf : m.functions.get? name = none) (hb : Builtin.find? name = some b) :
    step run i m = callBuiltin b m := by
  obtain ⟨op⟩ := i
  subst hop hargs
  change (callee o >>= _) m = _
  rw [Exec.bind_of_ok hc, Exec.get_bind, hf]
  simp only [hb]

theorem exec_nil : exec limits fuel all [] m = (.ok false, m) := by
  cases fuel <;> rfl

theorem exec_local (hop : i.op.isLocal = true) (ha : limits.Allows m)
    (he : m.tick.effect? i = some m') :
    exec limits (fuel + 1) all (i :: rest) m = exec limits fuel all rest m' := by
  have hs := does_step (calling limits fuel) m.tick i hop
  rw [he] at hs
  rw [exec_of_isStep (Instruction.isStep_of_isLocal hop) ha]
  exact Exec.bind_of_ok (Exec.wrap_of_ok _ hs.1)

theorem exec_local_fails (hop : i.op.isLocal = true) (ha : limits.Allows m)
    (he : m.tick.effect? i = none) : Fails (exec limits (fuel + 1) all (i :: rest) m) := by
  have hs := does_step (calling limits fuel) m.tick i hop
  rw [he] at hs
  obtain ⟨f, m', hs, -⟩ := hs
  rw [exec_of_isStep (Instruction.isStep_of_isLocal hop) ha]
  exact Fails.bind ⟨.during i (.fault f), m', Exec.wrap_of_error _ hs⟩ _

theorem jump_of_le (ht : target ≤ all.length) : jump all target m = (.ok (all.drop target), m) := by
  unfold jump
  rw [if_neg (by simp; omega)]
  simp
  rfl

theorem exec_jmp (ha : limits.Allows m) (ht : target ≤ all.length) :
    exec limits (fuel + 1) all (.jmp target :: rest) m =
      exec limits fuel all (all.drop target) m.tick :=
  (countStep_bind ha _).trans (Exec.bind_of_ok (jump_of_le ht))

theorem exec_jeq (ha : limits.Allows m) {a b : Operand} {x y : Value}
    (hx : m.tick.value? a = some x) (hy : m.tick.value? b = some y) (ht : target ≤ all.length) :
    exec limits (fuel + 1) all (.jeq a b target :: rest) m =
      exec limits fuel all (if x.same y then all.drop target else rest) m.tick := by
  have hc : compared (.jeq a b target) m.tick = (.ok (x, y), m.tick) := by
    change ((load a >>= fun x => load b >>= fun y => pure (x, y)) : Exec _) m.tick = _
    rw [Exec.bind_of_ok (load_of_some hx), Exec.bind_of_ok (load_of_some hy)]
    rfl
  refine (countStep_bind ha _).trans ?_
  simp only [Instruction.jeq] at hc ⊢
  rw [Exec.bind_of_ok hc]
  cases hs : x.same y with
  | true => exact Exec.bind_of_ok (jump_of_le ht)
  | false => rfl

theorem exec_ret_bare (ha : limits.Allows m) :
    exec limits (fuel + 1) all (.ret [] :: rest) m = (.ok true, m.tick) :=
  countStep_bind ha _

theorem exec_ret (ha : limits.Allows m) {v : Value} (hf : m.frames = [])
    (hv : m.tick.value? o = some v) :
    exec limits (fuel + 1) all (.ret [o] :: rest) m = (.ok true, { m.tick with result := v }) := by
  refine (countStep_bind ha _).trans ?_
  refine Exec.bind_of_ok (a := ()) ?_
  simp only [Instruction.ret, leave]
  rw [Exec.bind_of_ok (load_of_some hv)]
  change (Except.ok (), if m.frames.isEmpty then _ else _) = _
  rw [hf]
  rfl

theorem exec_ret_fails (ha : limits.Allows m) (hv : m.tick.value? o = none) :
    Fails (exec limits (fuel + 1) all (.ret [o] :: rest) m) := by
  obtain ⟨f, -, hload⟩ := load_eq_error hv
  rw [exec, countStep_bind ha]
  exact Fails.bind (Fails.bind ⟨.fault f, m.tick, hload⟩ _) _

end Machine

end UnitScript
