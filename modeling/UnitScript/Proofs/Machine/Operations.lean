import UnitScript.Machine.Run
import UnitScript.Proofs.Machine.Execution
import UnitScript.Proofs.Machine.Relocation

/-!
# What steps are made of

A step of an instruction without control flow is put together from a few operations: reading an
operand, declaring and overwriting a cell, and work on the stack, the heap and the console. So are
the parts of a call in front of the function's body. What the operations have in common, and keep
when they are put together, holds of all of them.
-/

namespace UnitScript

/-- The operands that an instruction reads. -/
def Instruction.loads (i : Instruction) : List Operand :=
  match i.op with
  | .mov | .add | .sub | .mul | .div | .cmp | .alloc | .deref => i.args.dropLast
  | .pmov | .push | .call | .ret | .jeq | .jne => i.args
  | _ => []

namespace Machine

/-- Computations put together from the operations of the machine: what they read from and write to
is told by `reads` and `writes`. The second computation is the first one on a machine that has older
blocks in its heap, and its result is that of the first under `g`. -/
inductive Composed (old : Heap) (reads writes : Operand → Prop) :
    {α α' : Type} → (α → α') → Exec α → Exec α' → Prop where
  | pure {α α' : Type} {g : α → α'} (a : α) : Composed old reads writes g (pure a) (pure (g a))
  | fail {α α' : Type} {g : α → α'} (f : Fault) :
      Composed old reads writes g (Exec.fail f) (Exec.fail f)
  | bind {α α' β β' : Type} {g : α → α'} {g' : β → β'} {x : Exec α} {x' : Exec α'}
      {k : α → Exec β} {k' : α' → Exec β'} : Composed old reads writes g x x' →
      (∀ a, Composed old reads writes g' (k a) (k' (g a))) →
      Composed old reads writes g' (x >>= k) (x' >>= k')
  | load {o : Operand} : reads o →
      Composed old reads writes (Value.shift old.size) (load o) (load o)
  | storeTo {o : Operand} (v : Value) : writes o →
      Composed old reads writes id (storeTo o v) (storeTo o (v.shift old.size))
  | declare {x : Name} (s : Storage) : writes (.cell x) →
      Composed old reads writes id
        (modify fun m => m.setFrame (m.frame.insert x (zero s)) : Exec PUnit)
        (modify fun m => m.setFrame (m.frame.insert x (zero s)) : Exec PUnit)
  | push (v : Value) : Composed old reads writes id (push v) (push (v.shift old.size))
  | pop : Composed old reads writes (Option.map (Value.shift old.size)) pop? pop?
  | heap {α α' : Type} {g : α → α'} {f : Heap → α × Heap} {e : Heap → α' × Heap} :
      (∀ h, e (old.above h) = (g (f h).1, old.above (f h).2)) →
      Composed old reads writes g
        (modifyGet fun m => ((f m.heap).1, { m with heap := (f m.heap).2 }) : Exec α)
        (modifyGet fun m => ((e m.heap).1, { m with heap := (e m.heap).2 }) : Exec α')
  | reading {α α' : Type} {g : α → α'} {k : Heap → Exec α} {l : Heap → Exec α'} :
      (∀ h, Composed old reads writes g (k h) (l (old.above h))) →
      Composed old reads writes g ((get : Exec Machine) >>= fun m => k m.heap)
        ((get : Exec Machine) >>= fun m => l m.heap)
  | builtin (b : Builtin) (args : List Value) :
      Composed old reads writes (Except.map (Value.shift old.size))
        (modifyGet (applyBuiltin b args)) (modifyGet (applyBuiltin b (args.map (Value.shift old.size))))

variable {old : Heap} {reads writes : Operand → Prop} {α α' : Type} {g : α → α'}

/-! ## Operations without cells -/

theorem composed_orFault {r : Except Fault α} {r' : Except Fault α'} (h : r' = r.map g) :
    Composed old reads writes g (orFault r) (orFault r') := by
  subst h
  cases r with
  | error f => exact .fail f
  | ok a => exact .pure a

theorem composed_orAddressFault {r : Except AddressError α} {r' : Except AddressError α'}
    (h : r' = r.map g) : Composed old reads writes g (orAddressFault r) (orAddressFault r') := by
  subst h
  cases r with
  | error e => exact .fail _
  | ok a => exact .pure a

theorem composed_popArgs (builtin : Name) (n : Nat) (args : List Value) :
    Composed old reads writes (List.map (Value.shift old.size)) (popArgs builtin n args)
      (popArgs builtin n (args.map (Value.shift old.size))) := by
  induction n generalizing args with
  | zero => exact .pure args
  | succ n ih =>
    apply Composed.pop.bind
    intro o
    cases o with
    | none => exact .fail _
    | some v => exact ih (v :: args)

theorem composed_popParams (function : Name) (slots : List Slot) (frame : Frame) :
    Composed old reads writes (NameMap.map (Value.shift old.size)) (popParams function slots frame)
      (popParams function slots (frame.map (Value.shift old.size))) := by
  induction slots generalizing frame with
  | nil => exact .pure frame
  | cons slot rest ih =>
    apply Composed.pop.bind
    intro o
    cases o with
    | none => exact .fail _
    | some v =>
      have hrest := ih (frame.insert slot.name v)
      rw [NameMap.map_insert] at hrest
      exact hrest

theorem composed_callBuiltin (b : Builtin) :
    Composed old reads writes id (callBuiltin b) (callBuiltin b) := by
  apply (composed_popArgs b.name b.arity []).bind
  intro args
  apply (Composed.builtin b args).bind
  intro r
  cases r with
  | error e => exact .fail _
  | ok v =>
    simp only [Except.map]
    split
    · exact .push v
    · exact .pure ()

theorem composed_jump (all : List Instruction) (target : Int) :
    Composed old reads writes id (jump all target) (jump all target) := by
  unfold jump
  split
  · exact .fail _
  · exact .pure _

/-! ## Instructions -/

theorem composed_callee {o : Operand} (ho : reads o) :
    Composed old reads writes id (callee o) (callee o) := by
  cases o with
  | func name => exact .pure name
  | cell name =>
    apply (Composed.load ho).bind
    intro v
    cases v with
    | func name => exact .pure name
    | null | int | ptr | nowhere | string | invalid => exact .fail _
  | imm | data | unknown => exact .fail _

theorem composed_alloc (count : Value) {dst : Operand} (hdst : writes dst) :
    Composed old reads writes id (alloc count dst) (alloc (count.shift old.size) dst) := by
  cases count with
  | int n =>
    simp only [alloc, Value.shift]
    split
    · exact .fail _
    · have hheap : ∀ h : Heap, (((old.above h).alloc n.toNatClampNeg).2,
          ((old.above h).alloc n.toNatClampNeg).1) =
          ((h.alloc n.toNatClampNeg).2.shift old.size, old.above (h.alloc n.toNatClampNeg).1) := by
        intro h
        rw [Heap.alloc_above]
      apply (Composed.heap (f := fun h => ((h.alloc n.toNatClampNeg).2, (h.alloc n.toNatClampNeg).1))
        (e := fun h => ((h.alloc n.toNatClampNeg).2, (h.alloc n.toNatClampNeg).1)) hheap).bind
      exact fun p => .storeTo p hdst
  | null | ptr | nowhere | string | func | invalid =>
    refine .reading (k := fun h => Exec.fail (.badCount (Value.text h _)))
      (l := fun h => Exec.fail (.badCount (Value.text h _))) fun h => ?_
    rw [Value.text_above]
    exact .fail _

theorem composed_storeThrough (src base index : Value) :
    Composed old reads writes id (storeThrough src base index)
      (storeThrough (src.shift old.size) (base.shift old.size) (index.shift old.size)) := by
  cases index with
  | int n =>
    refine .reading (k := fun h => orAddressFault ((base.move n).address h) >>= fun p =>
        modify fun m => { m with heap := m.heap.set p.1 p.2 src })
      (l := fun h => orAddressFault (((base.shift old.size).move n).address h) >>= fun p =>
        modify fun m => { m with heap := m.heap.set p.1 p.2 (src.shift old.size) }) fun h => ?_
    rw [Value.move_shift]
    apply (composed_orAddressFault (Value.address_above old h (base.move n))).bind
    intro p
    refine .heap (f := fun h => ((), h.set p.1 p.2 src))
      (e := fun h => ((), h.set (old.size + p.1) p.2 (src.shift old.size))) fun h => ?_
    rw [Heap.set_above]
  | null | ptr | nowhere | string | func | invalid => exact .fail _

theorem composed_compared {i : Instruction} (hi : ∀ o ∈ i.args, reads o) :
    Composed old reads writes (Prod.map (Value.shift old.size) (Value.shift old.size)) (compared i)
      (compared i) := by
  obtain ⟨op, args⟩ := i
  match args with
  | x :: y :: _ =>
    apply (Composed.load (hi x (by simp))).bind
    intro a
    apply (Composed.load (hi y (by simp))).bind
    exact fun b => .pure (a, b)
  | [] | [_] => exact .fail _

theorem composed_local {i : Instruction} (run run' : Function → Exec Unit)
    (hop : i.op.isLocal = true) (hr : ∀ o ∈ i.loads, reads o) (hw : ∀ o ∈ i.args, writes o) :
    Composed old reads writes id (step run i) (step run' i) := by
  obtain ⟨op, args, storage, relation, target, children, func⟩ := i
  cases op with
  | nop => exact .pure ()
  | var =>
    match args with
    | [.cell name] => exact .declare storage (hw _ (by simp))
    | [] | [.imm _] | [.data _] | [.func _] | [.unknown _] => exact .fail _
    | o :: _ :: _ => cases o <;> exact .fail _
  | mov =>
    match args with
    | [src, dst] =>
      apply (Composed.load (hr src (by simp [Instruction.loads]))).bind
      exact fun v => .storeTo v (hw dst (by simp))
    | [] | [_] | _ :: _ :: _ :: _ => exact .fail _
  | add | sub | mul | div =>
    match args with
    | [x, y, dst] =>
      apply (Composed.load (hr x (by simp [Instruction.loads]))).bind
      intro a
      apply (Composed.load (hr y (by simp [Instruction.loads]))).bind
      intro b
      apply (composed_orFault (arith_shift _ a b)).bind
      exact fun v => .storeTo v (hw dst (by simp))
    | [] | [_] | [_, _] | _ :: _ :: _ :: _ :: _ => exact .fail _
  | cmp =>
    match args with
    | [x, y, dst] =>
      apply (Composed.load (hr x (by simp [Instruction.loads]))).bind
      intro a
      apply (Composed.load (hr y (by simp [Instruction.loads]))).bind
      intro b
      have hsame : compare relation (a.shift old.size) (b.shift old.size) =
          (compare relation a b).map id := by
        rw [compare_shift]
        cases compare relation a b <;> rfl
      apply (composed_orFault hsame).bind
      exact fun holds => .storeTo (.int (if holds then 1 else 0)) (hw dst (by simp))
    | [] | [_] | [_, _] | _ :: _ :: _ :: _ :: _ => exact .fail _
  | alloc =>
    match args with
    | [n, dst] =>
      apply (Composed.load (hr n (by simp [Instruction.loads]))).bind
      exact fun v => composed_alloc v (hw dst (by simp))
    | [] | [_] | _ :: _ :: _ :: _ => exact .fail _
  | pmov =>
    match args with
    | [x, y, z] =>
      apply (Composed.load (hr x (by simp [Instruction.loads]))).bind
      intro src
      apply (Composed.load (hr y (by simp [Instruction.loads]))).bind
      intro base
      apply (Composed.load (hr z (by simp [Instruction.loads]))).bind
      exact fun index => composed_storeThrough src base index
    | [] | [_] | [_, _] | _ :: _ :: _ :: _ :: _ => exact .fail _
  | deref =>
    match args with
    | [addr, dst] =>
      apply (Composed.load (hr addr (by simp [Instruction.loads]))).bind
      intro p
      refine .reading (k := fun h => orAddressFault (h.read p) >>= fun v => Machine.storeTo dst v)
        (l := fun h => orAddressFault (h.read (p.shift old.size)) >>= fun v =>
          Machine.storeTo dst v) fun h => ?_
      apply (composed_orAddressFault (Heap.read_above old h p)).bind
      exact fun v => .storeTo v (hw dst (by simp))
    | [] | [_] | _ :: _ :: _ :: _ => exact .fail _
  | push =>
    match args with
    | [x] => exact (Composed.load (hr x (by simp [Instruction.loads]))).bind fun v => .push v
    | [] | _ :: _ :: _ => exact .fail _
  | pop =>
    match args with
    | [dst] =>
      apply Composed.pop.bind
      intro o
      cases o with
      | none => exact .fail _
      | some v => exact .storeTo v (hw dst (by simp))
    | [] | _ :: _ :: _ => exact .fail _
  | call | ret | jeq | jne | jmp | scope | func | unknown => cases hop

/-! ## Executions -/

/-- The part of a call behind its operand. -/
def applying (run : Function → Exec Unit) (name : Name) : Exec Unit := do
  match (← get).functions.get? name with
  | some f => run f
  | none =>
    match Builtin.find? name with
    | some b => callBuiltin b
    | none => Exec.fail (.undefinedFunction name)

/-- The rules by which `R n` goes from the operations to executions of at most `n` instructions. As
with operations, the second computation may be the first one above older blocks. -/
structure Rules (old : Heap) (limits : Limits)
    (R : Nat → {α α' : Type} → (α → α') → Exec α → Exec α' → Prop) : Prop where
  composed {n : Nat} {α α' : Type} {g : α → α'} {x : Exec α} {x' : Exec α'} :
    Composed old (fun _ => True) (fun _ => True) g x x' → R n g x x'
  bind {n : Nat} {α α' β β' : Type} {g : α → α'} {g' : β → β'} {x : Exec α} {x' : Exec α'}
    {k : α → Exec β} {k' : α' → Exec β'} :
    R n g x x' → (∀ a, R n g' (k a) (k' (g a))) → R n g' (x >>= k) (x' >>= k')
  wrap {n : Nat} {x : Exec Unit} (place : RunError → RunError) :
    R n id x x → R n id (Exec.wrap place x) (Exec.wrap place x)
  register {n : Nat} (record : Option FunctionRecord) : R n id (register record) (register record)
  leave {n : Nat} (args : List Operand) : R n id (leave args) (leave args)
  call {n : Nat} {run : List Instruction → Exec Bool} (name : Name) :
    (∀ c, R n id (run c) (run c)) →
    R n id (applying (invoke limits run) name) (applying (invoke limits run) name)
  count {n : Nat} {x : Exec Bool} : R n id x x →
    R (n + 1) id (countStep limits >>= fun _ => x) (countStep limits >>= fun _ => x)
  spent : R 0 id (throw .outOfFuel : Exec Bool) (throw .outOfFuel)

section Rules

variable {limits : Limits} {R : Nat → {α α' : Type} → (α → α') → Exec α → Exec α' → Prop} {n : Nat}

theorem Rules.step (h : Rules old limits R) {run : List Instruction → Exec Bool}
    (hrun : ∀ c, R n id (run c) (run c)) (i : Instruction) :
    R n id (step (invoke limits run) i) (step (invoke limits run) i) := by
  have hfail : ∀ f : Fault, R n id (Exec.fail f : Exec Unit) (Exec.fail f) :=
    fun f => h.composed (.fail f)
  by_cases hop : i.op.isLocal = true
  · exact h.composed (composed_local _ _ hop (fun _ _ => trivial) fun _ _ => trivial)
  · obtain ⟨op, args, storage, relation, target, children, func⟩ := i
    cases op with
    | call =>
      match args with
      | [o] =>
        apply h.bind (h.composed (composed_callee (o := o) trivial))
        exact fun name => h.call name hrun
      | [] | _ :: _ :: _ => exact hfail _
    | func => exact h.register func
    | ret | jeq | jne | jmp | scope | unknown => exact hfail _
    | nop | var | mov | add | sub | mul | div | cmp | alloc | pmov | deref | push | pop =>
      exact absurd rfl hop

/-- What follows the rules holds of every execution. -/
theorem Rules.exec (h : Rules old limits R) (fuel : Nat) (all rest : List Instruction) :
    R fuel id (exec limits fuel all rest) (exec limits fuel all rest) := by
  induction fuel generalizing all rest with
  | zero =>
    cases rest with
    | nil => exact h.composed (.pure false)
    | cons i rest => exact h.spent
  | succ fuel ih =>
    cases rest with
    | nil => exact h.composed (.pure false)
    | cons i rest =>
      have hjump : R fuel id (jump all i.target >>= fun rest' => Machine.exec limits fuel all rest')
          (jump all i.target >>= fun rest' => Machine.exec limits fuel all rest') :=
        h.bind (h.composed (composed_jump all i.target)) fun rest' => ih all rest'
      rw [Machine.exec]
      apply h.count
      cases hop : i.op with
      | jmp => exact hjump
      | jeq | jne =>
        apply h.bind (h.composed (composed_compared (i := i) fun _ _ => trivial))
        intro q
        simp only [Prod.map, Value.same_shift]
        split
        · exact hjump
        · exact ih all rest
      | scope =>
        apply h.bind (ih i.children i.children)
        intro returned
        cases returned with
        | true => exact h.composed (.pure (g := id) true)
        | false => exact ih all rest
      | ret => exact h.bind (h.leave i.args) fun _ => h.composed (.pure (g := id) true)
      | nop | var | mov | add | sub | mul | div | cmp | alloc | pmov | deref | push | pop | call
      | func | unknown =>
        apply h.bind (h.wrap (.during i) (h.step (fun body => ih body body) i))
        exact fun _ => ih all rest

end Rules

end Machine

end UnitScript
