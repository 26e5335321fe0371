import UnitScript.Proofs.Machine.Progress

/-!
# Every outcome of an execution

What a computation of the machine comes to, whether it succeeds or fails. A step of an instruction
has its effect, runs a function, or fails with a fault that its form and the machine account for; a
step that fails leaves the cells as they were. The first instruction of an execution is refused,
jumps, enters a scope, returns, fails, or is carried out.
-/

namespace UnitScript

def Stop.amid (place : RunError → RunError) : Stop → Stop
  | error e => error (place e)
  | outOfFuel => outOfFuel

namespace Exec

variable {α β : Type}

theorem bind_cases (x : Exec α) (f : α → Exec β) (m : Machine) :
    (∃ s m₁, x m = (.error s, m₁) ∧ (x >>= f) m = (.error s, m₁)) ∨
      ∃ a m₁, x m = (.ok a, m₁) ∧ (x >>= f) m = f a m₁ := by
  cases hx : x m with
  | mk r m₁ =>
    cases r with
    | error s => exact .inl ⟨s, m₁, rfl, bind_of_error hx⟩
    | ok a => exact .inr ⟨a, m₁, rfl, bind_of_ok hx⟩

theorem wrap_eq (place : RunError → RunError) (x : Exec α) (m : Machine) :
    wrap place x m = ((x m).1.mapError (Stop.amid place), (x m).2) := by
  unfold wrap
  cases hx : x m with
  | mk r m₁ =>
    match r with
    | .ok a => rfl
    | .error (.error e) => rfl
    | .error .outOfFuel => rfl

end Exec

namespace Machine

open Instruction

variable {α β : Type} {m m₁ m' : Machine} {i : Instruction} {P : Fault → Prop} {limits : Limits}
  {run : Function → Exec Unit} {rest all : List Instruction} {o dst : Operand} {fuel : Nat}
  {act : Exec α}

/-- If the computation fails, then with one of the faults, and the cells are as they were. -/
def FailsWith (P : Fault → Prop) (act : Exec α) (m : Machine) : Prop :=
  ∀ s m', act m = (.error s, m') → (∃ f, s = .error (.fault f) ∧ P f) ∧ SameCells m m'

/-- In addition, the cells are as they were if the computation succeeds. -/
def Quiet (P : Fault → Prop) (act : Exec α) (m : Machine) : Prop :=
  FailsWith P act m ∧ ∀ a m', act m = (.ok a, m') → SameCells m m'

theorem FailsWith.bind {k : α → Exec β} (h : Quiet P act m)
    (hk : ∀ a m₁, act m = (.ok a, m₁) → FailsWith P (k a) m₁) : FailsWith P (act >>= k) m := by
  intro s m' hs
  rcases Exec.bind_cases act k m with ⟨e, m₁, hact, hbind⟩ | ⟨a, m₁, hact, hbind⟩
  · rw [hbind] at hs
    cases hs
    exact h.1 s m' hact
  · rw [hbind] at hs
    have hrest := hk a m₁ hact s m' hs
    exact ⟨hrest.1, (h.2 a m₁ hact).trans hrest.2⟩

theorem Quiet.bind {k : α → Exec β} (h : Quiet P act m)
    (hk : ∀ a m₁, act m = (.ok a, m₁) → Quiet P (k a) m₁) : Quiet P (act >>= k) m := by
  refine ⟨FailsWith.bind h fun a m₁ ha => (hk a m₁ ha).1, fun b m' hb => ?_⟩
  obtain ⟨a, m₁, hact, hrest⟩ := Exec.bind_eq_ok hb
  exact (h.2 a m₁ hact).trans ((hk a m₁ hact).2 b m' hrest)

theorem quiet_pure (a : α) : Quiet P (pure a : Exec α) m := by
  constructor
  · intro s m' h
    cases h
  · intro b m' h
    cases h
    exact .refl m

theorem quiet_fail {f : Fault} (hf : P f) : Quiet P (Exec.fail f : Exec α) m := by
  constructor
  · intro s m' h
    cases h
    exact ⟨⟨f, rfl, hf⟩, .refl m⟩
  · intro a m' h
    cases h

theorem quiet_modify {g : Machine → α × Machine} (hg : SameCells m (g m).2) :
    Quiet P (modifyGet g : Exec α) m := by
  constructor
  · intro s m' h
    cases h
  · intro a m' h
    cases h
    exact hg

theorem load_state (o : Operand) (m : Machine) : (load o m).2 = m := by
  cases hv : m.value? o with
  | some v => rw [load_of_some hv]
  | none =>
    obtain ⟨f, -, hload⟩ := load_eq_error hv
    rw [hload]

theorem quiet_load (hP : ∀ f, m.value? o = none → o.readFault? = some f → P f) :
    Quiet P (load o) m := by
  constructor
  · intro s m' h
    cases hv : m.value? o with
    | some v =>
      rw [load_of_some hv] at h
      cases h
    | none =>
      obtain ⟨f, hf, hload⟩ := load_eq_error hv
      rw [hload] at h
      cases h
      exact ⟨⟨f, rfl, hP f hv hf⟩, .refl m⟩
  · intro v m' h
    obtain ⟨-, rfl⟩ := load_eq_ok h
    exact .refl _

theorem pop?_eq (m : Machine) :
    pop? m = (.ok m.stack.head?, { m with stack := m.stack.tail }) := by
  unfold pop?
  rw [Exec.get_bind]
  cases hs : m.stack with
  | nil =>
    have hm : { m with stack := [] } = m := by rw [← hs]
    exact congrArg (Prod.mk _) hm.symm
  | cons v rest => rfl

theorem quiet_pop? : Quiet P pop? m := by
  constructor
  · intro s m' h
    rw [pop?_eq] at h
    cases h
  · intro v m' h
    rw [pop?_eq] at h
    cases h
    exact ⟨rfl, rfl, rfl, rfl⟩

theorem quiet_popArgs {builtin : Name} (hP : P (.missingArg builtin)) {n : Nat}
    {args : List Value} : Quiet P (popArgs builtin n args) m := by
  induction n generalizing args m with
  | zero => exact quiet_pure _
  | succ n ih =>
    apply quiet_pop?.bind
    intro o m₁ _
    cases o with
    | none => exact quiet_fail hP
    | some v => exact ih

theorem quiet_popParams {function : Name} (hP : ∀ p, P (.missingParam function p))
    {slots : List Slot} {frame : Frame} : Quiet P (popParams function slots frame) m := by
  induction slots generalizing frame m with
  | nil => exact quiet_pure _
  | cons p rest ih =>
    apply quiet_pop?.bind
    intro o m₁ _
    cases o with
    | none => exact quiet_fail (hP p.name)
    | some v => exact ih

theorem quiet_callBuiltin {b : Builtin} (harg : P (.missingArg b.name))
    (hP : ∀ e, P (.builtin e)) : Quiet P (callBuiltin b) m := by
  apply (quiet_popArgs harg).bind
  intro args m₁ _
  apply Quiet.bind
  · exact quiet_modify ⟨rfl, rfl, rfl, rfl⟩
  · intro r m₂ _
    cases r with
    | error e => exact quiet_fail (hP e)
    | ok v =>
      simp only
      split
      · exact quiet_modify ⟨rfl, rfl, rfl, rfl⟩
      · exact quiet_pure _

theorem popParams_eq_ok {function : Name} {slots : List Slot} {f g : Frame}
    (h : popParams function slots f m = (.ok g, m')) : SameCells m m' :=
  (quiet_popParams (P := fun _ => True) fun _ => trivial).2 g m' h

theorem callBuiltin_eq_ok {b : Builtin} {u : Unit} (h : callBuiltin b m = (.ok u, m')) :
    SameCells m m' :=
  (quiet_callBuiltin (P := fun _ => True) trivial fun _ => trivial).2 u m' h

/-! ## Single instructions -/

theorem FailsWith.load {k : Value → Exec α} (hvar : i.op ≠ .var) (ho : o ∈ i.args)
    (hk : ∀ v, m.value? o = some v → FailsWith (FaultOf m i) (k v) m) :
    FailsWith (FaultOf m i) (load o >>= k) m := by
  apply FailsWith.bind (quiet_load fun f hv hf => .read hvar ho hv hf)
  intro v m₁ hload
  obtain ⟨hv, rfl⟩ := load_eq_ok hload
  exact hk v hv

/-- What a step of an instruction that does not jump comes to. -/
inductive StepCase (run : Function → Exec Unit) (i : Instruction) (m : Machine) :
    Except Stop Unit × Machine → Prop where
  | done {m' : Machine} : i.op.isLocal = true → m.effect? i = some m' → StepCase run i m (.ok (), m')
  | failed {f : Fault} {m' : Machine} : FaultOf m i f → SameCells m m' →
      StepCase run i m (.error (.error (.fault f)), m')
  | called {o name f} : i.op = .call → i.args = [o] → callee o m = (.ok name, m) →
      m.functions.get? name = some f → StepCase run i m (run f m)
  | lent {o name b} {m' : Machine} : i.op = .call → i.args = [o] → callee o m = (.ok name, m) →
      m.functions.get? name = none → Builtin.find? name = some b →
      callBuiltin b m = (.ok (), m') → StepCase run i m (.ok (), m')
  | registered {record body} : i.op = .func → i.func = some record →
      Decoding.runCode record.body = .ok body →
      StepCase run i m
        (.ok (), { m with functions := m.functions.insert record.name ⟨record, body⟩ })

theorem StepCase.of_failsWith {s : Stop}
    (h : FailsWith (FaultOf m i) act m) (hact : act m = (.error s, m')) :
    StepCase run i m (.error s, m') := by
  obtain ⟨⟨f, rfl, hf⟩, hsame⟩ := h s m' hact
  exact .failed hf hsame

theorem stepCase_local (hop : i.op.isLocal = true) : StepCase run i m (step run i m) := by
  have hdoes := does_step run m i hop
  cases he : m.effect? i with
  | some m' =>
    rw [he] at hdoes
    rw [hdoes.1]
    exact .done hop he
  | none =>
    rw [he] at hdoes
    obtain ⟨f, m', hs, hf, hsame⟩ := hdoes
    rw [hs]
    exact .failed hf hsame

theorem callee_eq_ok {name : Name} (h : callee o m = (.ok name, m')) :
    (o = .func name ∨ ∃ cell, o = .cell cell ∧ m.value? o = some (.func name)) ∧ m' = m := by
  cases o with
  | func name =>
    cases h
    exact ⟨.inl rfl, rfl⟩
  | cell cell =>
    obtain ⟨v, m₂, hl, h₂⟩ := Exec.bind_eq_ok h
    obtain ⟨hv, rfl⟩ := load_eq_ok (o := .cell cell) hl
    cases v with
    | func name =>
      cases h₂
      exact ⟨.inr ⟨cell, rfl, hv⟩, rfl⟩
    | null | int | ptr | nowhere | string | invalid => exact absurd h₂ Exec.fail_ne_ok
  | imm | data | unknown => exact absurd h Exec.fail_ne_ok

theorem failsWith_callee (hop : i.op = .call) (hargs : i.args = [o]) :
    FailsWith (FaultOf m i) (callee o) m := by
  have hno : (∀ x, o ≠ .cell x) → (∀ name, o ≠ .func name) → FaultOf m i (.notFunction o) :=
    .target hop hargs
  cases o with
  | func name => exact (quiet_pure _).1
  | cell cell =>
    apply FailsWith.load (o := .cell cell) (by simp [hop]) (by simp [hargs])
    intro v _
    cases v with
    | func name => exact (quiet_pure _).1
    | null | int | ptr | nowhere | string | invalid => exact (quiet_fail (.values rfl)).1
  | imm | data | unknown =>
    exact (quiet_fail (hno (fun _ h => by cases h) fun _ h => by cases h)).1

theorem stepCase_call (hop : i.op = .call) : StepCase run i m (step run i m) := by
  obtain ⟨op, args⟩ := i
  subst hop
  match args with
  | [o] =>
    change StepCase run _ m ((callee o >>= _) m)
    cases hc : callee o m with
    | mk r m₁ =>
    cases r with
    | error s =>
      rw [Exec.bind_of_error hc]
      exact .of_failsWith (failsWith_callee rfl rfl) hc
    | ok name =>
      obtain ⟨-, rfl⟩ := callee_eq_ok hc
      rw [Exec.bind_of_ok hc, Exec.get_bind]
      cases hf : m₁.functions.get? name with
      | some f => exact .called rfl rfl hc hf
      | none =>
        cases hb : Builtin.find? name with
        | none => exact .failed (.values rfl) (.refl m₁)
        | some b =>
          simp only
          cases hr : callBuiltin b m₁ with
          | mk r m' =>
            cases r with
            | ok u => exact .lent rfl rfl hc hf hb hr
            | error s =>
              exact .of_failsWith
                (quiet_callBuiltin (.values rfl) fun _ => .values rfl).1 hr
  | [] | _ :: _ :: _ => exact .failed (.count rfl (by simp)) (.refl m)

theorem stepCase_func (hop : i.op = .func) : StepCase run i m (step run i m) := by
  obtain ⟨op, args, storage, relation, target, children, func⟩ := i
  subst hop
  change StepCase run _ m (register func m)
  cases func with
  | none => exact .failed (.noRecord rfl rfl) (.refl m)
  | some record =>
    cases hb : Decoding.runCode record.body with
    | error e =>
      have hreg : register (some record) m =
          (.error (.error (.fault (.badBody record.name e))), m) := by
        unfold register
        simp only [hb]
        rfl
      rw [hreg]
      exact .failed (.badBody rfl rfl hb) (.refl m)
    | ok body =>
      have hreg : register (some record) m =
          (.ok (), { m with functions := m.functions.insert record.name ⟨record, body⟩ }) := by
        unfold register
        simp only [hb]
        rfl
      rw [hreg]
      exact .registered rfl rfl hb

/-- Every step of an instruction that does not jump is one of the cases. -/
theorem stepCase (run : Function → Exec Unit) (hop : i.op.isStep = true) :
    StepCase run i m (step run i m) := by
  cases hi : i.op with
  | call => exact stepCase_call hi
  | func => exact stepCase_func hi
  | unknown code =>
    have hstep : step run i m = (.error (.error (.fault (.unknownOpcode i.op))), m) := by
      obtain ⟨op⟩ := i
      subst hi
      rfl
    rw [hstep]
    exact .failed (.opcode (by rw [hi]; rfl)) (.refl m)
  | nop | var | mov | add | sub | mul | div | cmp | alloc | pmov | deref | push | pop =>
    exact stepCase_local (by rw [hi]; rfl)
  | ret | jeq | jne | jmp | scope =>
    rw [hi] at hop
    cases hop

/-! ## Calls of functions -/

/-- A function's body in the frame that is made for it. -/
def inFrame (body : Exec Bool) (function : Name) (frame : Frame) : Exec Unit := do
  modify fun m => { m with frames := frame :: m.frames }
  let ran : Exec Bool := fun m =>
    let (r, m) := body m
    (r, { m with frames := m.frames.tail })
  let _ ← Exec.wrap (.within function) ran

theorem inFrame_eq {body : Exec Bool} {function : Name} {frame : Frame} {r : Except Stop Bool}
    (h : body { m with frames := frame :: m.frames } = (r, m')) :
    inFrame body function frame m =
      ((r.map fun _ => ()).mapError (Stop.amid (.within function)),
        { m' with frames := m'.frames.tail }) := by
  have hran : (Exec.wrap (.within function) fun m => ((body m).1, { (body m).2 with
      frames := (body m).2.frames.tail }) : Exec Bool) { m with frames := frame :: m.frames } =
      (r.mapError (Stop.amid (.within function)), { m' with frames := m'.frames.tail }) := by
    rw [Exec.wrap_eq, h]
  change (Exec.wrap (.within function) _ >>= fun _ => pure ()) _ = _
  cases r with
  | ok b => exact Exec.bind_of_ok hran
  | error s => exact Exec.bind_of_error hran

/-- What a call of a function comes to: there are too many frames, an argument is missing, or the
body runs in a frame of its own. -/
inductive InvokeCase (run : List Instruction → Exec Bool) (f : Function) (m : Machine) :
    Except Stop Unit × Machine → Prop where
  | tooDeep {n} : InvokeCase run f m (.error (.error (.callDepth n)), m)
  | missing {p} {m' : Machine} : SameCells m m' →
      InvokeCase run f m (.error (.error (.fault (.missingParam f.record.name p))), m')
  | ran {frame r} {m₁ m₂ : Machine} :
      popParams f.record.name f.record.params.reverse .empty m = (.ok frame, m₁) →
      run f.body { m₁ with frames := frame :: m₁.frames } = (r, m₂) →
      InvokeCase run f m ((r.map fun _ => ()).mapError (Stop.amid (.within f.record.name)),
        { m₂ with frames := m₂.frames.tail })

theorem invokeCase (limits : Limits) (run : List Instruction → Exec Bool) (f : Function)
    (m : Machine) : InvokeCase run f m (invoke limits run f m) := by
  have hrun : ∀ m, InvokeCase run f m ((popParams f.record.name f.record.params.reverse .empty >>=
      inFrame (run f.body) f.record.name) m) := by
    intro m
    rcases Exec.bind_cases (popParams f.record.name f.record.params.reverse .empty)
      (inFrame (run f.body) f.record.name) m with ⟨s, m₁, hp, hbind⟩ | ⟨frame, m₁, hp, hbind⟩
    · rw [hbind]
      have hmissing : FailsWith (fun g => ∃ p, g = .missingParam f.record.name p)
          (popParams f.record.name f.record.params.reverse .empty) m :=
        (quiet_popParams fun p => ⟨p, rfl⟩).1
      obtain ⟨⟨g, rfl, p, rfl⟩, hsame⟩ := hmissing s m₁ hp
      exact .missing hsame
    · rw [hbind]
      cases hb : run f.body { m₁ with frames := frame :: m₁.frames } with
      | mk r m₂ =>
        rw [inFrame_eq hb]
        exact .ran hp hb
  unfold invoke
  rw [Exec.get_bind]
  split
  · exact .tooDeep
  · exact hrun m

theorem callingCase (limits : Limits) (fuel : Nat) (f : Function) (m : Machine) :
    InvokeCase (fun body => exec limits fuel body body) f m (calling limits fuel f m) :=
  invokeCase limits _ f m

/-! ## Blocks -/

/-- What the value of a return comes to: there is none, it cannot be read, it is the result of the
unit, or it goes onto the stack. -/
inductive LeaveCase (args : List Operand) (m : Machine) : Except Stop Unit × Machine → Prop where
  | bare : args = [] → LeaveCase args m (.ok (), m)
  | unread {o more f} : args = o :: more → m.value? o = none → o.readFault? = some f →
      LeaveCase args m (.error (.error (.fault f)), m)
  | result {o more v} : args = o :: more → m.value? o = some v → m.frames = [] →
      LeaveCase args m (.ok (), { m with result := v })
  | pushed {o more v} : args = o :: more → m.value? o = some v → m.frames ≠ [] →
      LeaveCase args m (.ok (), { m with stack := v :: m.stack })

theorem leaveCase (args : List Operand) (m : Machine) : LeaveCase args m (leave args m) := by
  cases args with
  | nil => exact .bare rfl
  | cons o more =>
    simp only [leave]
    cases hv : m.value? o with
    | none =>
      obtain ⟨f, hf, hload⟩ := load_eq_error hv
      rw [Exec.bind_of_error hload]
      exact .unread rfl hv hf
    | some v =>
      rw [Exec.bind_of_ok (load_of_some hv)]
      change LeaveCase _ m (.ok (), if m.frames.isEmpty then _ else _)
      by_cases hf : m.frames = []
      · rw [if_pos (by simp [hf])]
        exact .result rfl hv hf
      · rw [if_neg (by simpa using hf)]
        exact .pushed rfl hv hf

theorem LeaveCase.sameCells {args : List Operand} {r : Except Stop Unit × Machine}
    (h : LeaveCase args m r) : SameCells m r.2 := by
  cases h with
  | bare | unread => exact .refl m
  | result | pushed => exact ⟨rfl, rfl, rfl, rfl⟩

/-- An instruction that does not jump is counted and carried out. -/
def perform (limits : Limits) (fuel : Nat) (i : Instruction) : Exec Unit := do
  countStep limits
  Exec.wrap (.during i) (step (invoke limits fun body => exec limits fuel body body) i)

/-- What the first instruction of an execution comes to, and how the execution goes on. -/
inductive Turn (limits : Limits) (fuel : Nat) (all : List Instruction) (i : Instruction)
    (rest : List Instruction) (m : Machine) : Except Stop Bool × Machine → Prop where
  | refused : Turn limits fuel all i rest m (.error (.error .stepBudget), m.tick)
  | unread {s} : i.op = .jeq ∨ i.op = .jne → countStep limits m = (.ok (), m.tick) →
      compared i m.tick = (.error s, m.tick) →
      Turn limits fuel all i rest m (.error s, m.tick)
  | astray {s} : i.op.isJump = true → countStep limits m = (.ok (), m.tick) →
      jump all i.target m.tick = (.error s, m.tick) →
      Turn limits fuel all i rest m (.error s, m.tick)
  | jumped {rest'} : i.op.isJump = true → countStep limits m = (.ok (), m.tick) →
      jump all i.target m.tick = (.ok rest', m.tick) →
      Turn limits fuel all i rest m (exec limits fuel all rest' m.tick)
  | notJumped : i.op.isJump = true → countStep limits m = (.ok (), m.tick) →
      Turn limits fuel all i rest m (exec limits fuel all rest m.tick)
  | ended {r} {m₁ : Machine} : i.op = .scope → countStep limits m = (.ok (), m.tick) →
      exec limits fuel i.children i.children m.tick = (r, m₁) → r ≠ .ok false →
      Turn limits fuel all i rest m (r, m₁)
  | passed {m₁ : Machine} : i.op = .scope → countStep limits m = (.ok (), m.tick) →
      exec limits fuel i.children i.children m.tick = (.ok false, m₁) →
      Turn limits fuel all i rest m (exec limits fuel all rest m₁)
  | returned {r} {m₁ : Machine} : i.op = .ret → countStep limits m = (.ok (), m.tick) →
      leave i.args m.tick = (r, m₁) →
      Turn limits fuel all i rest m (r.map fun _ => true, m₁)
  | failed {s} {m₁ : Machine} : i.op.isStep = true → countStep limits m = (.ok (), m.tick) →
      step (invoke limits fun body => exec limits fuel body body) i m.tick = (.error s, m₁) →
      Turn limits fuel all i rest m (.error (s.amid (.during i)), m₁)
  | stepped {m₁ : Machine} : i.op.isStep = true → countStep limits m = (.ok (), m.tick) →
      step (invoke limits fun body => exec limits fuel body body) i m.tick = (.ok (), m₁) →
      Turn limits fuel all i rest m (exec limits fuel all rest m₁)

theorem countStep_cases (limits : Limits) (m : Machine) :
    countStep limits m = (.error (.error .stepBudget), m.tick) ∨
      countStep limits m = (.ok (), m.tick) := by
  by_cases ha : limits.Allows m
  · exact .inr (countStep_of_allowed ha)
  · exact .inl (countStep_of_not_allowed ha)

theorem jump_state (all : List Instruction) (target : Int) (m : Machine) :
    (jump all target m).2 = m := by
  unfold jump
  split <;> rfl

theorem compared_state (i : Instruction) (m : Machine) : (compared i m).2 = m := by
  obtain ⟨op, args⟩ := i
  match args with
  | x :: y :: _ =>
    change ((load x >>= fun a => load y >>= fun b => pure (a, b)) m).2 = m
    rcases Exec.bind_cases (load x) (fun a => load y >>= fun b => pure (a, b)) m with
      ⟨s, m₁, hx, hbind⟩ | ⟨a, m₁, hx, hbind⟩
    · rw [hbind, ← load_state x m, hx]
    · obtain ⟨-, rfl⟩ := load_eq_ok hx
      rw [hbind]
      rcases Exec.bind_cases (load y) (fun b => pure (a, b)) m₁ with
        ⟨s, m₂, hy, hbind⟩ | ⟨b, m₂, hy, hbind⟩
      · rw [hbind, ← load_state y m₁, hy]
      · obtain ⟨-, rfl⟩ := load_eq_ok hy
        rw [hbind]
        rfl
  | [] | [_] => rfl

theorem failsWith_compared (i : Instruction) (m : Machine) :
    FailsWith (fun f => i.args.length < 2 ∨
      ∃ o ∈ i.args, m.value? o = none ∧ o.readFault? = some f) (compared i) m := by
  obtain ⟨op, args⟩ := i
  match args with
  | x :: y :: _ =>
    apply FailsWith.bind (quiet_load fun f hv hf => .inr ⟨x, by simp, hv, hf⟩)
    intro a m₁ hx
    obtain ⟨-, rfl⟩ := load_eq_ok hx
    apply FailsWith.bind (quiet_load fun f hv hf => .inr ⟨y, by simp, hv, hf⟩)
    exact fun b m₂ _ => (quiet_pure _).1
  | [] | [_] => exact (quiet_fail (.inl (by simp))).1

theorem turn_jump (hop : i.op.isJump = true) (hc : countStep limits m = (.ok (), m.tick)) :
    Turn limits fuel all i rest m
      ((jump all i.target >>= fun rest' => exec limits fuel all rest') m.tick) := by
  have hstate := jump_state all i.target m.tick
  rcases Exec.bind_cases (jump all i.target) (exec limits fuel all) m.tick with
    ⟨s, m₁, hj, hbind⟩ | ⟨rest', m₁, hj, hbind⟩
  · rw [hj] at hstate
    subst hstate
    rw [hbind]
    exact .astray hop hc hj
  · rw [hj] at hstate
    subst hstate
    rw [hbind]
    exact .jumped hop hc hj

theorem turn_branch (hop : i.op = .jeq ∨ i.op = .jne)
    (hc : countStep limits m = (.ok (), m.tick)) :
    Turn limits fuel all i rest m ((compared i >>= fun p =>
      if p.1.same p.2 == (i.op == .jeq) then
        jump all i.target >>= fun rest' => exec limits fuel all rest'
      else exec limits fuel all rest) m.tick) := by
  have hstate := compared_state i m.tick
  have hjump : i.op.isJump = true := by rcases hop with hop | hop <;> rw [hop] <;> rfl
  rcases Exec.bind_cases (compared i) (fun p => if p.1.same p.2 == (i.op == .jeq) then
      jump all i.target >>= fun rest' => exec limits fuel all rest'
    else exec limits fuel all rest) m.tick with ⟨s, m₁, hp, hbind⟩ | ⟨p, m₁, hp, hbind⟩
  · rw [hp] at hstate
    subst hstate
    rw [hbind]
    exact .unread hop hc hp
  · rw [hp] at hstate
    subst hstate
    rw [hbind]
    split
    · exact turn_jump hjump hc
    · exact .notJumped hjump hc

theorem turn_scope (hop : i.op = .scope) (hc : countStep limits m = (.ok (), m.tick)) :
    Turn limits fuel all i rest m ((exec limits fuel i.children i.children >>= fun returned =>
      if returned then pure true else exec limits fuel all rest) m.tick) := by
  cases hr : exec limits fuel i.children i.children m.tick with
  | mk r m₁ =>
    match r with
    | .error s =>
      rw [Exec.bind_of_error hr]
      exact .ended hop hc hr (by simp)
    | .ok true =>
      rw [Exec.bind_of_ok hr]
      exact .ended hop hc hr (by simp)
    | .ok false =>
      rw [Exec.bind_of_ok hr]
      exact .passed hop hc hr

theorem turn_ret (hop : i.op = .ret) (hc : countStep limits m = (.ok (), m.tick)) :
    Turn limits fuel all i rest m ((leave i.args >>= fun _ => pure true) m.tick) := by
  cases hr : leave i.args m.tick with
  | mk r m₁ =>
    have hturn : Turn limits fuel all i rest m (r.map fun _ => true, m₁) := .returned hop hc hr
    cases r with
    | error s =>
      rw [Exec.bind_of_error hr]
      exact hturn
    | ok u =>
      rw [Exec.bind_of_ok hr]
      exact hturn

theorem turn_step (hop : i.op.isStep = true) (hc : countStep limits m = (.ok (), m.tick)) :
    Turn limits fuel all i rest m ((Exec.wrap (.during i)
      (step (calling limits fuel) i) >>= fun _ => exec limits fuel all rest) m.tick) := by
  cases hr : step (calling limits fuel) i m.tick with
  | mk r m₁ =>
    have hwrap := Exec.wrap_eq (.during i) (step (calling limits fuel) i) m.tick
    rw [hr] at hwrap
    cases r with
    | error s =>
      rw [Exec.bind_of_error hwrap]
      exact .failed hop hc hr
    | ok u =>
      rw [Exec.bind_of_ok hwrap]
      exact .stepped hop hc hr

/-- Every execution of a block that is not empty starts with one of the cases. -/
theorem turn (limits : Limits) (fuel : Nat) (all rest : List Instruction) (i : Instruction)
    (m : Machine) : Turn limits fuel all i rest m (exec limits (fuel + 1) all (i :: rest) m) := by
  rw [exec]
  rcases countStep_cases limits m with hc | hc
  · rw [Exec.bind_of_error hc]
    exact .refused
  · rw [Exec.bind_of_ok hc]
    cases hop : i.op with
    | jmp => exact turn_jump (by rw [hop]; rfl) hc
    | jeq =>
      have hturn : Turn limits fuel all i rest m _ := turn_branch (.inl hop) hc
      rw [hop] at hturn
      exact hturn
    | jne =>
      have hturn : Turn limits fuel all i rest m _ := turn_branch (.inr hop) hc
      rw [hop] at hturn
      exact hturn
    | scope => exact turn_scope hop hc
    | ret => exact turn_ret hop hc
    | nop | var | mov | add | sub | mul | div | cmp | alloc | pmov | deref | push | pop | call | func
    | unknown => exact turn_step (by rw [hop]; rfl) hc

/-! ## What executions uphold -/

/-- What executions from places in `I` uphold: `I` goes from a place to those that follow it, and what
an instruction does is in `K` if what the code that it calls does is. -/
structure Upholds (limits : Limits) (I : List Instruction → List Instruction → Machine → Prop)
    (K : Machine → Machine → Prop) : Prop where
  trans : ∀ {m m₁ m'}, K m m₁ → K m₁ m' → K m m'
  same : ∀ {all rest m m'}, I all rest m → SameCells m m' → K m m' ∧ I all rest m'
  next : ∀ {all i rest m m'}, I all (i :: rest) m → K m m' →
    (∀ x, i.declares? = some x → m'.declared x) → I all rest m'
  jump : ∀ {all i rest m}, I all (i :: rest) m → i.op.isJump = true → ∀ k, I all (all.drop k) m
  enter : ∀ {all i rest m}, I all (i :: rest) m → i.op = .scope → I i.children i.children m
  step : ∀ {fuel all i rest m}, (∀ all rest m, I all rest m → K m (exec limits fuel all rest m).2) →
    I all (i :: rest) m → i.op.isStep = true →
    K m (step (invoke limits fun body => exec limits fuel body body) i m).2

section Upholds

variable {I : List Instruction → List Instruction → Machine → Prop} {K : Machine → Machine → Prop}
  {all rest : List Instruction} {run : Function → Exec Unit}

theorem declared_of_step {x : Name} (hx : i.declares? = some x) (h : step run i m = (.ok (), m')) :
    m'.declared x :=
  declared_of_effect? hx (step_local_eq_ok (Instruction.isLocal_of_declares? hx) h)

theorem Upholds.past (h : Upholds limits I K) (hp : I all (i :: rest) m)
    (hi : i.op.isLocal = false) (hk : K m m') : I all rest m' := by
  apply h.next hp hk
  intro x hx
  rw [Instruction.isLocal_of_declares? hx] at hi
  cases hi

theorem Upholds.exec (h : Upholds limits I K) (fuel : Nat) (hp : I all rest m) :
    K m (exec limits fuel all rest m).2 := by
  induction fuel generalizing all rest m with
  | zero => cases rest <;> exact (h.same hp (.refl m)).1
  | succ fuel ih =>
    cases rest with
    | nil => exact (h.same hp (.refl m)).1
    | cons i rest =>
      obtain ⟨htick, hp'⟩ := h.same hp (sameCells_tick m)
      have hscope : i.op = .scope → K m.tick (Machine.exec limits fuel i.children i.children m.tick).2 :=
        fun hop => ih (h.enter hp' hop)
      have hstep := h.step (fun _ _ _ hq => ih hq) hp'
      have hturn := turn limits fuel all rest i m
      generalize Machine.exec limits (fuel + 1) all (i :: rest) m = r at hturn ⊢
      cases hturn with
      | refused | unread | astray => exact htick
      | jumped hop _ hj =>
        obtain ⟨⟨k, rfl⟩, -⟩ := jump_eq_ok hj
        exact h.trans htick (ih (h.jump hp' hop k))
      | notJumped hop => exact h.trans htick (ih (h.past hp (Instruction.not_isLocal_of_isJump hop) htick))
      | ended hop _ hin =>
        have hk := hscope hop
        rw [hin] at hk
        exact h.trans htick hk
      | passed hop _ hin =>
        have hk := hscope hop
        rw [hin] at hk
        exact h.trans htick (h.trans hk (ih (h.past hp' (by rw [hop]; rfl) hk)))
      | returned _ _ hl =>
        have hsame := (leaveCase i.args m.tick).sameCells
        rw [hl] at hsame
        exact h.trans htick (h.same hp' hsame).1
      | failed hop _ hs =>
        have hk := hstep hop
        rw [hs] at hk
        exact h.trans htick hk
      | stepped hop _ hs =>
        have hk := hstep hop
        rw [hs] at hk
        exact h.trans htick (h.trans hk (ih (h.next hp' hk fun x hx => declared_of_step hx hs)))

end Upholds

end Machine

end UnitScript
