import UnitScript.Proofs.Machine.Runs

/-!
# What steps do to the stack

Each instruction takes a number of values from the stack and leaves a number of values there, and does
not look at what is below. A call takes the arguments of what it calls. The code of a function is put
together from such instructions so that it ends, and returns, with the stack as deep as it is to be.
-/

namespace UnitScript

/-- The values that a call leaves on the stack whose result is of the kind. -/
def Kind.leaves (k : Kind) : Nat :=
  match k.tag with
  | .null | .callback => 0
  | _ => 1

/-- The values that a call of the function is to leave on the stack. -/
def FunctionRecord.leaves (r : FunctionRecord) : Nat := if r.result = .none then 0 else 1

/-- The name of something that can be called, the number of its parameters and the kind of its
result. -/
structure Signature where
  name : Name
  arity : Nat
  result : Kind
  deriving DecidableEq, Repr

def Builtin.signature (b : Builtin) : Signature := ⟨b.name, b.arity, b.result⟩

namespace Signature

structure Describes (s : Signature) (record : FunctionRecord) : Prop where
  name : record.name = s.name
  arity : record.params.length = s.arity
  leaves : record.leaves = s.result.leaves

/-- No two signatures have one name, and the name of a builtin has the builtin's signature. -/
structure Consistent (sigs : List Signature) : Prop where
  distinct : ∀ s ∈ sigs, ∀ t ∈ sigs, s.name = t.name → s = t
  builtins : ∀ s ∈ sigs, ∀ b, Builtin.find? s.name = some b → s = b.signature

end Signature

namespace Instruction

/-- An instruction that takes `n` values from the stack and leaves `k` there. -/
inductive Trades (sigs : List Signature) (i : Instruction) : (n k : Nat) → Prop where
  | plain : i.op.isLocal = true → i.op ≠ .push → i.op ≠ .pop → Trades sigs i 0 0
  | push : i.op = .push → Trades sigs i 0 1
  | pop : i.op = .pop → Trades sigs i 1 0
  | call {s} : i.op = .call → i.args = [.func s.name] → s ∈ sigs →
      Trades sigs i s.arity s.result.leaves

/-- Code that brings the stack from depth `d` to depth `e`, counted from some place of it. Returns,
jumps and scopes stand where the depth is 0. A return leaves `v` values, if that is said. A scope
either has no jumps, or can be executed from each of its places. The bodies of functions are such code
too. -/
inductive Shifts (sigs : List Signature) : (v : Option Nat) → (d : Nat) → List Instruction →
    (e : Nat) → Prop where
  | nil {v d} : Shifts sigs v d [] d
  | step {v d e n k i rest} : Trades sigs i n k → Shifts sigs v (d + k) rest e →
      Shifts sigs v (d + n) (i :: rest) e
  | jump {v e i rest} : i.op.isJump = true → Shifts sigs v 0 rest e → Shifts sigs v 0 (i :: rest) e
  | ret {v e i rest} : i.op = .ret → (∀ n, v = some n → n = if i.args = [] then 0 else 1) →
      Shifts sigs v 0 rest e → Shifts sigs v 0 (i :: rest) e
  | scope {v e i rest} : i.op = .scope → NoJump i.children → Shifts sigs v 0 i.children 0 →
      Shifts sigs v 0 rest e → Shifts sigs v 0 (i :: rest) e
  | branches {v e i rest} : i.op = .scope → (∀ k, Shifts sigs v 0 (i.children.drop k) 0) →
      Shifts sigs v 0 rest e → Shifts sigs v 0 (i :: rest) e
  | func {v d e i rest} : i.op = .func →
      (∀ record, i.func = some record → ∃ s ∈ sigs, s.Describes record) →
      (∀ record body, i.func = some record → Decoding.runCode record.body = .ok body →
        NoJump body) →
      (∀ record body, i.func = some record → Decoding.runCode record.body = .ok body →
        Shifts sigs (some record.leaves) 0 body 0) →
      Shifts sigs v d rest e → Shifts sigs v d (i :: rest) e

variable {sigs : List Signature} {v : Option Nat} {c c' : List Instruction} {i : Instruction}
  {d e n k : Nat}

theorem Shifts.append (hc : Shifts sigs v d c e) (hc' : Shifts sigs v e c' k) :
    Shifts sigs v d (c ++ c') k := by
  induction hc with
  | nil => exact hc'
  | step htrades _ ih => exact .step htrades (ih hc')
  | jump hop _ ih => exact .jump hop (ih hc')
  | ret hop hargs _ ih => exact .ret hop hargs (ih hc')
  | scope hop hjump hchildren _ _ ih => exact .scope hop hjump hchildren (ih hc')
  | branches hop hchildren _ _ ih => exact .branches hop hchildren (ih hc')
  | func hop hdescribed hjump hbody _ _ ih => exact .func hop hdescribed hjump hbody (ih hc')

theorem shifts_drop (h : ∀ i ∈ c, Shifts sigs v 0 [i] 0) (k : Nat) :
    Shifts sigs v 0 (c.drop k) 0 := by
  induction c generalizing k with
  | nil =>
    rw [List.drop_nil]
    exact .nil
  | cons i c ih =>
    rw [List.forall_mem_cons] at h
    cases k with
    | zero =>
      have hrest : Shifts sigs v 0 c 0 := ih h.2 0
      exact h.1.append hrest
    | succ k => exact ih h.2 k

theorem Trades.op (h : Trades sigs i n k) : i.op.isLocal = true ∨ i.op = .call := by
  cases h with
  | plain hlocal => exact .inl hlocal
  | push hop | pop hop =>
    rw [hop]
    exact .inl rfl
  | call hop => exact .inr hop

theorem Trades.isStep (h : Trades sigs i n k) : i.op.isStep = true := by
  rcases h.op with hop | hop
  · exact isStep_of_isLocal hop
  · rw [hop]
    rfl

theorem Trades.op_ne (h : Trades sigs i n k) {o : Opcode} (ho : o.isLocal = false)
    (hcall : o ≠ .call) : i.op ≠ o := by
  rintro rfl
  rcases h.op with hop | hop
  · rw [ho] at hop
    cases hop
  · exact hcall hop

theorem Trades.of_call (h : Trades sigs i n k) (hop : i.op = .call) :
    ∃ s ∈ sigs, i.args = [.func s.name] ∧ n = s.arity ∧ k = s.result.leaves := by
  cases h with
  | call _ hargs hs => exact ⟨_, hs, hargs, rfl, rfl⟩
  | plain hlocal =>
    rw [hop] at hlocal
    cases hlocal
  | push hi | pop hi =>
    rw [hi] at hop
    cases hop

theorem Shifts.of_jump (h : Shifts sigs v d (i :: c) e) (hop : i.op.isJump = true) :
    d = 0 ∧ Shifts sigs v 0 c e := by
  cases h with
  | step ht =>
    rcases ht.op with hi | hi
    · rw [not_isJump_of_isLocal hi] at hop
      cases hop
    · rw [hi] at hop
      cases hop
  | jump _ hrest => exact ⟨rfl, hrest⟩
  | ret hi | scope hi | branches hi | func hi =>
    rw [hi] at hop
    cases hop

theorem Shifts.of_ret (h : Shifts sigs v d (i :: c) e) (hop : i.op = .ret) :
    d = 0 ∧ ∀ n, v = some n → n = if i.args = [] then 0 else 1 := by
  cases h with
  | step ht => exact absurd hop (ht.op_ne rfl nofun)
  | ret _ hargs => exact ⟨rfl, hargs⟩
  | jump hi =>
    rw [hop] at hi
    cases hi
  | scope hi | branches hi | func hi =>
    rw [hi] at hop
    cases hop

theorem Shifts.of_scope (h : Shifts sigs v d (i :: c) e) (hop : i.op = .scope) :
    d = 0 ∧ (NoJump i.children ∨ ∀ k, Shifts sigs v 0 (i.children.drop k) 0) ∧
      Shifts sigs v 0 i.children 0 ∧ Shifts sigs v 0 c e := by
  cases h with
  | step ht => exact absurd hop (ht.op_ne rfl nofun)
  | scope _ hjump hchildren hrest => exact ⟨rfl, .inl hjump, hchildren, hrest⟩
  | branches _ hchildren hrest => exact ⟨rfl, .inr hchildren, hchildren 0, hrest⟩
  | jump hi =>
    rw [hop] at hi
    cases hi
  | ret hi | func hi =>
    rw [hi] at hop
    cases hop

theorem Shifts.of_step (h : Shifts sigs v d (i :: c) e) (hop : i.op.isStep = true) :
    (i.op = .func ∧ Shifts sigs v d c e) ∨
      ∃ d' n k, d = d' + n ∧ Trades sigs i n k ∧ Shifts sigs v (d' + k) c e := by
  cases h with
  | @step _ d' _ n k _ _ ht hrest => exact .inr ⟨d', n, k, rfl, ht, hrest⟩
  | func hi _ _ _ hrest => exact .inl ⟨hi, hrest⟩
  | jump hi =>
    rw [not_isStep_of_isJump hi] at hop
    cases hop
  | ret hi | scope hi | branches hi =>
    rw [hi] at hop
    cases hop

end Instruction

namespace Machine

open Instruction

variable {sigs : List Signature} {m m₁ m' : Machine} {i : Instruction} {n k : Nat} {d : Nat}
  {base : List Value} {limits : Limits}

/-! ## Depths -/

def Holds (m : Machine) (base : List Value) (d : Nat) : Prop :=
  ∃ top, m.stack = top ++ base ∧ top.length = d

/-- From one state to the other, `n` values have been taken from the stack and `k` left there. -/
def Exchanges (m : Machine) (n k : Nat) (m' : Machine) : Prop :=
  ∃ below, m.Holds below n ∧ m'.Holds below k

theorem holds_zero : m.Holds base 0 ↔ m.stack = base := by
  constructor
  · rintro ⟨top, hstack, hlength⟩
    rw [hstack, List.length_eq_zero_iff.1 hlength]
    rfl
  · intro h
    exact ⟨[], h, rfl⟩

theorem Holds.of_stack (h : m.Holds base d) (hs : m'.stack = m.stack) : m'.Holds base d := by
  unfold Holds
  rw [hs]
  exact h

theorem Holds.eq_drop (h : m.Holds base n) : base = m.stack.drop n ∧ n ≤ m.stack.length := by
  obtain ⟨top, hstack, rfl⟩ := h
  rw [hstack]
  simp

theorem Exchanges.holds (h : Exchanges m n k m') (hm : m.Holds base (d + n)) :
    m'.Holds base (d + k) := by
  obtain ⟨below, htaken, hleft⟩ := h
  obtain ⟨top, hstack, hlength⟩ := hm
  obtain ⟨left, hleft, hk⟩ := hleft
  have hbelow : below = top.drop n ++ base := by
    rw [htaken.eq_drop.1, hstack, List.drop_append_of_le_length (by omega)]
  refine ⟨left ++ top.drop n, ?_, ?_⟩
  · rw [hleft, hbelow, List.append_assoc]
  · rw [List.length_append, List.length_drop]
    omega

theorem exchanges_same (h : m'.stack = m.stack) : Exchanges m 0 0 m' :=
  ⟨m.stack, holds_zero.2 rfl, holds_zero.2 h⟩

theorem exchanges_push {v : Value} (h : m'.stack = v :: m.stack) : Exchanges m 0 1 m' :=
  ⟨m.stack, holds_zero.2 rfl, [v], h, rfl⟩

theorem exchanges_pop {v : Value} (h : m.stack = v :: m'.stack) : Exchanges m 1 0 m' :=
  ⟨m'.stack, ⟨[v], h, rfl⟩, holds_zero.2 rfl⟩

theorem Exchanges.trans {j : Nat} (h : Exchanges m n 0 m₁) (g : Exchanges m₁ j 0 m') :
    Exchanges m (n + j) 0 m' := by
  obtain ⟨below, htaken, hbelow⟩ := h
  obtain ⟨below', htaken', hleft⟩ := g
  obtain ⟨top, hstack, rfl⟩ := htaken
  obtain ⟨top', hstack', rfl⟩ := htaken'
  rw [holds_zero] at hbelow
  refine ⟨below', ⟨top ++ top', ?_, List.length_append⟩, hleft⟩
  rw [hstack, ← hbelow, hstack', List.append_assoc]

/-! ## Instructions without control flow -/

theorem exchanges_of_effect? (h : m.effect? i = some m') (hlocal : i.op.isLocal = true)
    (ht : Trades sigs i n k) : Exchanges m n k m' := by
  have hstacks := (cellChange_of_effect? h).stacks
  unfold Stacks at hstacks
  cases ht with
  | plain _ hpush hpop =>
    split at hstacks
    · next hop => exact absurd hop hpush
    · next hop => exact absurd hop hpop
    · exact exchanges_same hstacks
  | push hop =>
    rw [hop] at hstacks
    obtain ⟨v, hv⟩ := hstacks
    exact exchanges_push hv
  | pop hop =>
    rw [hop] at hstacks
    obtain ⟨v, hv⟩ := hstacks
    exact exchanges_pop hv
  | call hop =>
    rw [hop] at hlocal
    cases hlocal

/-! ## Parameters and builtins -/

theorem exchanges_pop? {v : Value} (h : pop? m = (.ok (some v), m')) : Exchanges m 1 0 m' := by
  rw [pop?_eq] at h
  obtain ⟨hhead, rfl⟩ := Prod.mk.inj h
  obtain ⟨rest, hstack⟩ := List.head?_eq_some_iff.1 (Except.ok.inj hhead)
  exact exchanges_pop (v := v) (by simp [hstack])

theorem exchanges_popParams {function : Name} {slots : List Slot} {f g : Frame}
    (h : popParams function slots f m = (.ok g, m')) : Exchanges m slots.length 0 m' := by
  induction slots generalizing f m with
  | nil =>
    cases h
    exact exchanges_same rfl
  | cons p rest ih =>
    rw [popParams] at h
    obtain ⟨o, m₁, hp, h₁⟩ := Exec.bind_eq_ok h
    cases o with
    | none => exact absurd h₁ Exec.fail_ne_ok
    | some v =>
      rw [List.length_cons, Nat.add_comm]
      exact (exchanges_pop? hp).trans (ih h₁)

theorem exchanges_popArgs {builtin : Name} {n : Nat} {args out : List Value}
    (h : popArgs builtin n args m = (.ok out, m')) : Exchanges m n 0 m' := by
  induction n generalizing args m with
  | zero =>
    cases h
    exact exchanges_same rfl
  | succ n ih =>
    rw [popArgs] at h
    obtain ⟨o, m₁, hp, h₁⟩ := Exec.bind_eq_ok h
    cases o with
    | none => exact absurd h₁ Exec.fail_ne_ok
    | some v =>
      rw [Nat.add_comm]
      exact (exchanges_pop? hp).trans (ih h₁)

theorem leaves_result (b : Builtin) : b.result.leaves = if b.pushes then 1 else 0 := by
  cases b <;> rfl

theorem exchanges_callBuiltin {b : Builtin} (h : callBuiltin b m = (.ok (), m')) :
    Exchanges m b.arity b.result.leaves m' := by
  unfold callBuiltin at h
  obtain ⟨args, m₁, hargs, h₁⟩ := Exec.bind_eq_ok h
  obtain ⟨r, m₂, hr, h₂⟩ := Exec.bind_eq_ok h₁
  obtain ⟨below, htaken, hbelow⟩ := exchanges_popArgs hargs
  have hlent : m₂.Holds below 0 := by
    cases hr
    exact hbelow
  cases r with
  | error e => exact absurd h₂ Exec.fail_ne_ok
  | ok v =>
    rw [leaves_result]
    simp only at h₂
    split at h₂
    · next hpushes =>
      cases h₂
      rw [if_pos hpushes]
      refine ⟨below, htaken, [v], ?_, rfl⟩
      rw [← holds_zero.1 hlent]
      rfl
    · next hpushes =>
      cases h₂
      rw [if_neg hpushes]
      exact ⟨below, htaken, hlent⟩

end Machine

end UnitScript
