import UnitScript.Proofs.Machine.Execution
import UnitScript.Lowering.Compile

/-!
# The course of a piece of code

Started on a machine, a piece of code runs to its end, ends the run by a return or a failure, or
does not come to an end within a bound. The course says for every bound what happens: below the need
of the code the computation runs out of its bound, and from there on it ends in the same way. The
course of joined code, of a scope, of a conditional and of a loop follows from the courses of the
parts.
-/

namespace UnitScript.Machine

def OutOfFuel (r : Except Stop Bool × Machine) : Prop := r.1 = .error .outOfFuel

/-- A computation that has ended the run, in a way that `P` tells. -/
def Ended (P : Except Stop Bool × Machine → Prop) (r : Except Stop Bool × Machine) : Prop :=
  r.1 ≠ .ok false ∧ P r

theorem ended_return (m : Machine) : Ended (· = (.ok true, m)) (.ok true, m) :=
  ⟨by simp, rfl⟩

theorem Fails.ended {r : Except Stop Bool × Machine} (h : Fails r) : Ended Fails r := by
  obtain ⟨e, m, rfl⟩ := h
  exact ⟨by simp, e, m, rfl⟩

inductive Course where
  /-- Runs to the end of the code. -/
  | passes (m : Machine)
  /-- Ends the run, in a way that `P` tells. -/
  | ends (P : Except Stop Bool × Machine → Prop)
  /-- Takes a bound above `n`, if it ends at all. -/
  | exceeds (n : Nat)

namespace Course

def returns (m : Machine) : Course := .ends (· = (.ok true, m))

def fails : Course := .ends Fails

def Stops : Course → Prop
  | .passes _ => False
  | _ => True

end Course

/-- From `m` the code `c`, whatever follows it and wherever it stands, takes a course. Only its own
length counts against the bound of what follows. -/
def Follows (limits : Limits) (c : List Instruction) (m : Machine) : Course → Prop
  | .passes m' => ∃ need, c.length ≤ need ∧ ∀ fuel all rest,
      (need ≤ fuel →
        exec limits fuel all (c ++ rest) m = exec limits (fuel - c.length) all rest m') ∧
      (fuel < need → OutOfFuel (exec limits fuel all (c ++ rest) m))
  | .ends P => ∃ need, ∀ fuel all rest,
      (need ≤ fuel → Ended P (exec limits fuel all (c ++ rest) m)) ∧
      (fuel < need → OutOfFuel (exec limits fuel all (c ++ rest) m))
  | .exceeds n => ∀ fuel all rest, fuel ≤ n → OutOfFuel (exec limits fuel all (c ++ rest) m)

variable {limits : Limits} {c d : List Instruction} {m m₁ m' : Machine} {k : Course}

theorem follows_nil (limits : Limits) (m : Machine) : Follows limits [] m (.passes m) :=
  ⟨0, Nat.le_refl 0, fun _ _ _ => ⟨fun _ => rfl, fun h => absurd h (Nat.not_lt_zero _)⟩⟩

theorem Follows.append (h : Follows limits c m (.passes m₁)) (g : Follows limits d m₁ k) :
    Follows limits (c ++ d) m k := by
  obtain ⟨need, hlen, h⟩ := h
  cases k with
  | passes m' =>
    obtain ⟨need', hlen', g⟩ := g
    refine ⟨max need (c.length + need'), by rw [List.length_append]; omega, fun fuel all rest => ?_⟩
    obtain ⟨hrun, hout⟩ := h fuel all (d ++ rest)
    obtain ⟨grun, gout⟩ := g (fuel - c.length) all rest
    rw [List.append_assoc, List.length_append]
    constructor
    · intro hf
      rw [hrun (by omega), grun (by omega), Nat.sub_sub]
    · intro hf
      by_cases hn : fuel < need
      · exact hout hn
      · rw [hrun (by omega)]
        exact gout (by omega)
  | ends P =>
    obtain ⟨need', g⟩ := g
    refine ⟨max need (c.length + need'), fun fuel all rest => ?_⟩
    obtain ⟨hrun, hout⟩ := h fuel all (d ++ rest)
    obtain ⟨grun, gout⟩ := g (fuel - c.length) all rest
    rw [List.append_assoc]
    constructor
    · intro hf
      rw [hrun (by omega)]
      exact grun (by omega)
    · intro hf
      by_cases hn : fuel < need
      · exact hout hn
      · rw [hrun (by omega)]
        exact gout (by omega)
  | exceeds n =>
    intro fuel all rest hf
    obtain ⟨hrun, hout⟩ := h fuel all (d ++ rest)
    rw [List.append_assoc]
    by_cases hn : fuel < need
    · exact hout hn
    · rw [hrun (by omega)]
      exact g (fuel - c.length) all rest (by omega)

theorem Follows.stop (h : Follows limits c m k) (hk : k.Stops) (d : List Instruction) :
    Follows limits (c ++ d) m k := by
  cases k with
  | passes m' => exact hk.elim
  | ends P =>
    obtain ⟨need, h⟩ := h
    refine ⟨need, fun fuel all rest => ?_⟩
    rw [List.append_assoc]
    exact h fuel all (d ++ rest)
  | exceeds n =>
    intro fuel all rest hf
    rw [List.append_assoc]
    exact h fuel all (d ++ rest) hf

/-- A block `all` takes a course from the place where `rest` begins. -/
def Takes (limits : Limits) (all rest : List Instruction) (m : Machine) : Course → Prop
  | .passes m' => ∃ need, ∀ fuel,
      (need ≤ fuel → exec limits fuel all rest m = (.ok false, m')) ∧
      (fuel < need → OutOfFuel (exec limits fuel all rest m))
  | .ends P => ∃ need, ∀ fuel,
      (need ≤ fuel → Ended P (exec limits fuel all rest m)) ∧
      (fuel < need → OutOfFuel (exec limits fuel all rest m))
  | .exceeds n => ∀ fuel, fuel ≤ n → OutOfFuel (exec limits fuel all rest m)

variable {all rest rest' : List Instruction} {i : Instruction}

theorem takes_nil (limits : Limits) (all : List Instruction) (m : Machine) :
    Takes limits all [] m (.passes m) :=
  ⟨0, fun _ => ⟨fun _ => exec_nil, fun h => absurd h (Nat.not_lt_zero _)⟩⟩

theorem Takes.after (g : Takes limits all rest m₁ k) (h : Follows limits c m (.passes m₁)) :
    Takes limits all (c ++ rest) m k := by
  obtain ⟨need, hlen, h⟩ := h
  have hout : ∀ fuel, fuel < need → OutOfFuel (exec limits fuel all (c ++ rest) m) :=
    fun fuel => (h fuel all rest).2
  have hrun : ∀ fuel, need ≤ fuel →
      exec limits fuel all (c ++ rest) m = exec limits (fuel - c.length) all rest m₁ :=
    fun fuel => (h fuel all rest).1
  cases k with
  | passes | ends =>
    obtain ⟨need', g⟩ := g
    refine ⟨max need (c.length + need'), fun fuel => ⟨fun hf => ?_, fun hf => ?_⟩⟩
    · rw [hrun fuel (by omega)]
      exact (g _).1 (by omega)
    · by_cases hn : fuel < need
      · exact hout fuel hn
      · rw [hrun fuel (by omega)]
        exact (g _).2 (by omega)
  | exceeds n =>
    intro fuel hf
    by_cases hn : fuel < need
    · exact hout fuel hn
    · rw [hrun fuel (by omega)]
      exact g _ (by omega)

theorem Follows.takes_stop (h : Follows limits c m k) (hk : k.Stops) (all rest : List Instruction) :
    Takes limits all (c ++ rest) m k := by
  cases k with
  | passes m' => exact hk.elim
  | ends P =>
    obtain ⟨need, h⟩ := h
    exact ⟨need, fun fuel => h fuel all rest⟩
  | exceeds n => exact fun fuel hf => h fuel all rest hf

theorem Follows.takes_last (h : Follows limits c m k) (all : List Instruction) :
    Takes limits all c m k := by
  cases k with
  | passes m' =>
    have g := (takes_nil limits all m').after h
    rwa [List.append_nil] at g
  | ends | exceeds =>
    have g := h.takes_stop trivial all []
    rwa [List.append_nil] at g

theorem Follows.takes (h : Follows limits c m k) : Takes limits c c m k := h.takes_last c

/-- One instruction more lets the bound of a course that exceeds it grow by one. -/
def Course.delayed : Course → Course
  | .exceeds n => .exceeds (n + 1)
  | k => k

theorem Takes.of_delayed (h : Takes limits all rest m k.delayed) : Takes limits all rest m k := by
  cases k with
  | passes | ends => exact h
  | exceeds n => exact fun fuel hf => h fuel (by omega)

theorem Takes.step (h : Takes limits all rest' m' k)
    (hi : ∀ fuel, exec limits (fuel + 1) all (i :: rest) m = exec limits fuel all rest' m') :
    Takes limits all (i :: rest) m k.delayed := by
  cases k with
  | passes | ends =>
    obtain ⟨need, h⟩ := h
    refine ⟨need + 1, fun fuel => ?_⟩
    cases fuel with
    | zero => exact ⟨fun hf => by omega, fun _ => rfl⟩
    | succ n =>
      rw [hi]
      exact ⟨fun hf => (h n).1 (by omega), fun hf => (h n).2 (by omega)⟩
  | exceeds b =>
    intro fuel hf
    cases fuel with
    | zero => rfl
    | succ n =>
      rw [hi]
      exact h n (by omega)

/-! ## Single instructions -/

theorem follows_single
    (h : ∀ fuel all rest, exec limits (fuel + 1) all (i :: rest) m = exec limits fuel all rest m') :
    Follows limits [i] m (.passes m') := by
  refine ⟨1, Nat.le_refl 1, fun fuel all rest => ⟨fun hf => ?_, fun hf => ?_⟩⟩
  · obtain ⟨n, rfl⟩ := Nat.exists_eq_add_of_le' hf
    exact h n all rest
  · obtain rfl : fuel = 0 := by omega
    rfl

theorem follows_single_ends {P : Except Stop Bool × Machine → Prop}
    (h : ∀ fuel all rest, Ended P (exec limits (fuel + 1) all (i :: rest) m)) :
    Follows limits [i] m (.ends P) := by
  refine ⟨1, fun fuel all rest => ⟨fun hf => ?_, fun hf => ?_⟩⟩
  · obtain ⟨n, rfl⟩ := Nat.exists_eq_add_of_le' hf
    exact h n all rest
  · obtain rfl : fuel = 0 := by omega
    rfl

theorem same_zero (v : Value) : v.same (.int 0) = decide (v = .int 0) := by
  cases v <;> simp [Value.same]

section Unbounded

variable (hl : limits.steps ≤ 0)
include hl

theorem follows_local (hop : i.op.isLocal = true) (he : m.tick.effect? i = some m') :
    Follows limits [i] m (.passes m') :=
  follows_single fun _ _ _ => exec_local hop (Limits.allows_of_unbounded hl m) he

theorem follows_local_fails (hop : i.op.isLocal = true) (he : m.tick.effect? i = none) :
    Follows limits [i] m .fails :=
  follows_single_ends fun _ _ _ => (exec_local_fails hop (Limits.allows_of_unbounded hl m) he).ended

theorem follows_ret_bare : Follows limits [.ret []] m (.returns m.tick) := by
  refine follows_single_ends fun fuel all rest => ?_
  rw [exec_ret_bare (Limits.allows_of_unbounded hl m)]
  exact ended_return _

theorem follows_ret {o : Operand} {v : Value} (hf : m.frames = []) (hv : m.tick.value? o = some v) :
    Follows limits [.ret [o]] m (.returns { m.tick with result := v }) := by
  refine follows_single_ends fun fuel all rest => ?_
  rw [exec_ret (Limits.allows_of_unbounded hl m) hf hv]
  exact ended_return _

theorem follows_ret_fails {o : Operand} (hv : m.tick.value? o = none) :
    Follows limits [.ret [o]] m .fails :=
  follows_single_ends fun _ _ _ => (exec_ret_fails (Limits.allows_of_unbounded hl m) hv).ended

/-! ## Scopes -/

theorem Takes.scope (h : Takes limits c c m.tick k) : Follows limits [.scope c] m k := by
  have ha := Limits.allows_of_unbounded hl m
  have hout : ∀ fuel all rest, OutOfFuel (exec limits fuel c c m.tick) →
      OutOfFuel (exec limits (fuel + 1) all (.scope c :: rest) m) := by
    intro fuel all rest ho
    have he : exec limits fuel c c m.tick = (.error .outOfFuel, (exec limits fuel c c m.tick).2) :=
      Prod.ext ho rfl
    rw [exec_scope ha, Exec.bind_of_error he]
    rfl
  cases k with
  | passes m' =>
    obtain ⟨need, h⟩ := h
    refine ⟨need + 1, by simp, fun fuel all rest => ?_⟩
    cases fuel with
    | zero => exact ⟨fun hf => by omega, fun _ => rfl⟩
    | succ n =>
      refine ⟨fun hf => ?_, fun hf => hout n all rest ((h n).2 (by omega))⟩
      rw [List.singleton_append, exec_scope ha, Exec.bind_of_ok ((h n).1 (by omega))]
      rfl
  | ends P =>
    obtain ⟨need, h⟩ := h
    refine ⟨need + 1, fun fuel all rest => ?_⟩
    cases fuel with
    | zero => exact ⟨fun hf => by omega, fun _ => rfl⟩
    | succ n =>
      refine ⟨fun hf => ?_, fun hf => hout n all rest ((h n).2 (by omega))⟩
      have hend := (h n).1 (by omega)
      rw [List.singleton_append, exec_scope ha]
      cases hr : exec limits n c c m.tick with
      | mk r m' =>
        rw [hr] at hend
        cases r with
        | error e => rwa [Exec.bind_of_error hr]
        | ok b =>
          cases b with
          | false => exact absurd rfl hend.1
          | true => rwa [Exec.bind_of_ok hr]
  | exceeds b =>
    intro fuel all rest hf
    cases fuel with
    | zero => rfl
    | succ n => exact hout n all rest (h n (by omega))

theorem Takes.jeq_zero {o : Operand} {v : Value} {target : Nat} (hv : m.tick.value? o = some v)
    (ht : target ≤ all.length)
    (h : Takes limits all (if v = .int 0 then all.drop target else rest) m.tick k) :
    Takes limits all (.jeq o (.imm 0) target :: rest) m k.delayed := by
  refine h.step fun fuel => ?_
  rw [exec_jeq (Limits.allows_of_unbounded hl m) hv rfl ht, same_zero]
  simp only [decide_eq_true_eq]

theorem Takes.jmp {target : Nat} (ht : target ≤ all.length)
    (h : Takes limits all (all.drop target) m.tick k) :
    Takes limits all (.jmp target :: rest) m k.delayed :=
  h.step fun _ => exec_jmp (Limits.allows_of_unbounded hl m) ht

end Unbounded

/-- One instruction more behind code that runs to its end. -/
def Course.ticked : Course → Course
  | .passes m => .passes m.tick
  | k => k

section Control

variable (hl : limits.steps ≤ 0) {yes no testCode body : List Instruction} {test : Operand}
  {v : Value}
include hl

theorem follows_cond_no (hv : m.tick.tick.value? test = some (.int 0))
    (h : Follows limits no m.tick.tick.tick k) :
    Follows limits [Lowering.condScope test yes no] m k := by
  refine Takes.scope hl (Takes.of_delayed (Takes.jeq_zero hl hv (by simp) ?_))
  rw [if_pos rfl]
  exact (h.takes.scope hl).takes_last _

theorem follows_cond_yes (hv : m.tick.tick.value? test = some v) (hne : v ≠ .int 0)
    (h : Follows limits yes m.tick.tick.tick k) :
    Follows limits [Lowering.condScope test yes no] m k.ticked := by
  have hs := h.takes.scope hl
  refine Takes.scope hl (Takes.of_delayed (Takes.jeq_zero hl hv (by simp) ?_))
  rw [if_neg hne]
  cases k with
  | passes m' =>
    have hjmp : Takes limits [.jeq test (.imm 0) 3, .scope yes, .jmp 4, .scope no]
        [.jmp 4, .scope no] m' (.passes m'.tick) :=
      Takes.jmp (k := .passes m'.tick) hl (Nat.le_refl 4) (takes_nil limits _ m'.tick)
    exact hjmp.after hs
  | ends | exceeds => exact hs.takes_stop trivial _ _

/-- The block of a loop: the test in a scope of its own, the way out, the body and the way back. -/
def loopBlock (testCode : List Instruction) (test : Operand) (body : List Instruction) :
    List Instruction :=
  [.scope testCode, .jeq test (.imm 0) 4, .scope body, .jmp 0]

theorem Takes.loop (h : Takes limits (loopBlock testCode test body) (loopBlock testCode test body)
    m.tick k) : Follows limits [Lowering.loopScope testCode test body] m k :=
  Takes.scope hl h

theorem takes_loop_test_stop (h : Follows limits testCode m.tick k) (hk : k.Stops) :
    Takes limits (loopBlock testCode test body) (loopBlock testCode test body) m k :=
  (h.takes.scope hl).takes_stop hk _ _

theorem takes_loop_exit (h : Follows limits testCode m.tick (.passes m₁))
    (hv : m₁.tick.value? test = some (.int 0)) :
    Takes limits (loopBlock testCode test body) (loopBlock testCode test body) m
      (.passes m₁.tick) := by
  have hout : Takes limits (loopBlock testCode test body)
      [.jeq test (.imm 0) 4, .scope body, .jmp 0] m₁ (.passes m₁.tick) := by
    refine Takes.jeq_zero (k := .passes m₁.tick) hl hv (Nat.le_refl 4) ?_
    rw [if_pos rfl]
    exact takes_nil limits _ m₁.tick
  exact hout.after (h.takes.scope hl)

theorem takes_loop_body (h : Follows limits testCode m.tick (.passes m₁))
    (hv : m₁.tick.value? test = some v) (hne : v ≠ .int 0)
    (hb : Takes limits (loopBlock testCode test body) [.scope body, .jmp 0] m₁.tick k) :
    Takes limits (loopBlock testCode test body) (loopBlock testCode test body) m k := by
  have hout : Takes limits (loopBlock testCode test body)
      [.jeq test (.imm 0) 4, .scope body, .jmp 0] m₁ k := by
    refine Takes.of_delayed (Takes.jeq_zero hl hv (Nat.le_refl 4) ?_)
    rw [if_neg hne]
    exact hb
  exact hout.after (h.takes.scope hl)

theorem takes_loop_body_stop (h : Follows limits testCode m.tick (.passes m₁))
    (hv : m₁.tick.value? test = some v) (hne : v ≠ .int 0)
    (hb : Follows limits body m₁.tick.tick k) (hk : k.Stops) :
    Takes limits (loopBlock testCode test body) (loopBlock testCode test body) m k :=
  takes_loop_body hl h hv hne ((hb.takes.scope hl).takes_stop hk _ _)

/-- A round of a loop takes at least one step off the bound. -/
theorem takes_loop_round (h : Follows limits testCode m.tick (.passes m₁))
    (hv : m₁.tick.value? test = some v) (hne : v ≠ .int 0)
    (hb : Follows limits body m₁.tick.tick (.passes m'))
    (hk : Takes limits (loopBlock testCode test body) (loopBlock testCode test body) m'.tick k) :
    Takes limits (loopBlock testCode test body) (loopBlock testCode test body) m k.delayed := by
  have hback : Takes limits (loopBlock testCode test body) [.jmp 0] m' k.delayed :=
    Takes.jmp hl (Nat.zero_le _) hk
  exact takes_loop_body hl h hv hne (hback.after (hb.takes.scope hl))

end Control

end UnitScript.Machine
