import UnitScript.Machine.Run

/-!
# What single instructions do

An instruction that neither jumps nor calls has an effect on the machine or none. A step of it has
that effect: it declares at most one cell, in the innermost frame, or overwrites at most one cell, in
the innermost frame or else at the top level. Where there is no effect, the step fails with a fault
that the form of the instruction and the machine account for, and leaves the cells as they were.
-/

namespace UnitScript

namespace Exec

variable {α β : Type} {x : Exec α} {f : α → Exec β} {m m' : Machine}

theorem bind_of_ok {a : α} (h : x m = (.ok a, m')) : (x >>= f) m = f a m' := by
  simp only [bind, ExceptT.bind, ExceptT.mk, StateT.bind]
  rw [h]
  rfl

theorem bind_of_error {e : Stop} (h : x m = (.error e, m')) : (x >>= f) m = (.error e, m') := by
  simp only [bind, ExceptT.bind, ExceptT.mk, StateT.bind]
  rw [h]
  rfl

theorem wrap_of_ok {a : α} (place : RunError → RunError) (h : x m = (.ok a, m')) :
    wrap place x m = (.ok a, m') := by
  unfold wrap
  rw [h]

theorem wrap_of_error {e : RunError} (place : RunError → RunError)
    (h : x m = (.error (.error e), m')) : wrap place x m = (.error (.error (place e)), m') := by
  unfold wrap
  rw [h]

theorem get_bind (f : Machine → Exec β) (m : Machine) :
    ((get : Exec Machine) >>= f) m = f m m := rfl

end Exec

namespace Machine

/-! ## Effects of single instructions -/

def tick (m : Machine) : Machine := { m with steps := m.steps + 1 }

/-- What an operand stands for. -/
def value? (m : Machine) : Operand → Option Value
  | .imm v => some (.int v)
  | .cell name => m.lookup? name
  | .data name => (m.data.get? name).map .string
  | .func name => some (.func name)
  | .unknown _ => none

/-- The machine with a cell overwritten, if the operand is a declared cell. -/
def assign? (m : Machine) (dst : Operand) (v : Value) : Option Machine :=
  match dst with
  | .cell name =>
    if m.frame.contains name then some (m.setFrame (m.frame.insert name v))
    else if m.globals.contains name then some { m with globals := m.globals.insert name v }
    else none
  | _ => none

/-- The machine after an allocation of `count` cells. -/
def alloc? (m : Machine) (count : Value) (dst : Operand) : Option Machine :=
  match count with
  | .int n =>
    if n < 0 then none
    else { m with heap := (m.heap.alloc n.toNatClampNeg).1 }.assign? dst (.ptr m.heap.size 0)
  | _ => none

/-- The machine after a store through a pointer. -/
def storeThrough? (m : Machine) (src base index : Value) : Option Machine :=
  match index with
  | .int n =>
    match (base.move n).address m.heap with
    | .ok (block, place) => some { m with heap := m.heap.set block place src }
    | .error _ => none
  | _ => none

/-- The effect of an instruction that neither jumps nor calls; none when it fails. -/
def effect? (m : Machine) (i : Instruction) : Option Machine :=
  match i.op, i.args with
  | .nop, _ => some m
  | .var, [.cell name] => some (m.setFrame (m.frame.insert name (zero i.storage)))
  | .mov, [src, dst] => do m.assign? dst (← m.value? src)
  | .add, [x, y, dst] | .sub, [x, y, dst] | .mul, [x, y, dst] | .div, [x, y, dst] => do
    m.assign? dst (← (arith i.op (← m.value? x) (← m.value? y)).toOption)
  | .cmp, [x, y, dst] => do
    m.assign? dst (.int
      (if ← (compare i.relation (← m.value? x) (← m.value? y)).toOption then 1 else 0))
  | .alloc, [n, dst] => do m.alloc? (← m.value? n) dst
  | .pmov, [x, y, z] => do m.storeThrough? (← m.value? x) (← m.value? y) (← m.value? z)
  | .deref, [addr, dst] => do m.assign? dst (← (m.heap.read (← m.value? addr)).toOption)
  | .push, [x] => do return { m with stack := (← m.value? x) :: m.stack }
  | .pop, [dst] =>
    match m.stack with
    | [] => none
    | v :: rest => { m with stack := rest }.assign? dst v
  | _, _ => none

end Machine

namespace Opcode

/-- Whether an instruction neither jumps nor calls, enters a scope, returns or registers. -/
def isLocal : Opcode → Bool
  | nop | var | mov | add | sub | mul | div | cmp | alloc | pmov | deref | push | pop => true
  | _ => false

def isJump : Opcode → Bool
  | jeq | jne | jmp => true
  | _ => false

/-- Whether the instruction that follows in the list is the next one to be executed. -/
def isStep : Opcode → Bool
  | jeq | jne | jmp | scope | ret => false
  | _ => true

end Opcode

theorem Instruction.isStep_of_isLocal {i : Instruction} (h : i.op.isLocal = true) : i.op.isStep = true := by
  cases hop : i.op <;> rw [hop] at h <;> first | rfl | cases h

namespace Relation

def isKnown (r : Relation) : Bool := r = eq || r = ne || r = lt || r = le || r = gt || r = ge

end Relation

namespace Operand

def readFault? : Operand → Option Fault
  | cell name => some (.undeclaredCell name)
  | data name => some (.undefinedData name)
  | unknown code => some (.unknownOperand code)
  | imm _ | func _ => none

def writeFault : Operand → Fault
  | cell name => .storeToUndeclared name
  | o => .notCell o

end Operand

namespace Fault

/-- Whether a fault comes from the values at hand, and not from the form of an instruction. -/
def isOfValues : Fault → Bool
  | stackUnderflow | badIndex _ | address _ | notCallable .. | undefinedFunction _ | missingParam ..
  | missingArg _ | builtin _ | arithKinds .. | divisionByZero | compareKinds .. => true
  | _ => false

end Fault

namespace Instruction

def declares? (i : Instruction) : Option Name :=
  match i.op, i.args with
  | .var, [.cell x] => some x
  | _, _ => none

/-- The cell that an instruction overwrites. -/
def stores? (i : Instruction) : Option Name :=
  match i.op, i.args with
  | .mov, [_, .cell x] | .alloc, [_, .cell x] | .deref, [_, .cell x] | .pop, [.cell x] => some x
  | .add, [_, _, .cell x] | .sub, [_, _, .cell x] | .mul, [_, _, .cell x] | .div, [_, _, .cell x]
  | .cmp, [_, _, .cell x] => some x
  | _, _ => none

/-- What an instruction without control flow does to the stack: it pushes a value, takes one, or
leaves the stack as it is. -/
def Stacks (i : Instruction) (s s' : List Value) : Prop :=
  match i.op with
  | .push => ∃ v, s' = v :: s
  | .pop => ∃ v, s = v :: s'
  | _ => s' = s

/-- The number of operands that a step of the opcode takes; none for those that do not care. -/
def takes? (i : Instruction) : Option Nat :=
  match i.op with
  | .var | .push | .pop | .call => some 1
  | .mov | .alloc | .deref => some 2
  | .add | .sub | .mul | .div | .cmp | .pmov => some 3
  | _ => none

/-- The operand that a step of the instruction writes to. -/
def destination? (i : Instruction) : Option Operand :=
  match i.op with
  | .var | .mov | .add | .sub | .mul | .div | .cmp | .alloc | .deref | .pop => i.args.getLast?
  | _ => none

theorem mem_of_destination? {i : Instruction} {o : Operand} (h : i.destination? = some o) :
    o ∈ i.args := by
  unfold destination? at h
  split at h
  all_goals first
    | exact List.mem_of_getLast? h
    | cases h

end Instruction

namespace Machine

open Instruction

/-! ## Cells and faults -/

def declared (m : Machine) (x : Name) : Prop := m.frame.contains x = true

structure SameCells (m m' : Machine) : Prop where
  frames : m'.frames = m.frames
  globals : m'.globals = m.globals
  functions : m'.functions = m.functions
  data : m'.data = m.data

/-- What an instruction without control flow does to the cells, besides its work on the stack:
nothing, or it declares or overwrites the one cell that it is for. -/
inductive CellChange (i : Instruction) (m m' : Machine) : Prop where
  | none : SameCells m m' → i.Stacks m.stack m'.stack → CellChange i m m'
  | declared {x v} : i.declares? = some x → i.Stacks m.stack m.stack →
      m' = m.setFrame (m.frame.insert x v) → CellChange i m m'
  | stored {x v m₀} : i.stores? = some x → SameCells m m₀ → i.Stacks m.stack m₀.stack →
      m₀.assign? (.cell x) v = some m' → CellChange i m m'

/-- The faults that a step of an instruction can end with, and what each of them says about the
instruction and the machine. -/
inductive FaultOf (m : Machine) (i : Instruction) : Fault → Prop where
  | count {n} : i.takes? = some n → i.args.length ≠ n →
      FaultOf m i (.operandCount n i.args.length)
  | read {o f} : i.op ≠ .var → o ∈ i.args → m.value? o = none → o.readFault? = some f →
      FaultOf m i f
  | notCell {o} : i.destination? = some o → (∀ x, o ≠ .cell x) → FaultOf m i (.notCell o)
  | undeclared {x} : i.op ≠ .var → .cell x ∈ i.args → ¬m.declared x →
      FaultOf m i (.storeToUndeclared x)
  | relation : i.op = .cmp → i.relation.isKnown = false →
      FaultOf m i (.unknownRelation i.relation)
  | size {o dst v text} : i.op = .alloc → i.args = [o, dst] → m.value? o = some v →
      (∀ n, v = .int n → n < 0) → FaultOf m i (.badCount text)
  | target {o} : i.op = .call → i.args = [o] → (∀ x, o ≠ .cell x) → (∀ name, o ≠ .func name) →
      FaultOf m i (.notFunction o)
  | noRecord : i.op = .func → i.func = none → FaultOf m i .noRecord
  | badBody {record cause} : i.op = .func → i.func = some record →
      Decoding.runCode record.body = .error cause → FaultOf m i (.badBody record.name cause)
  | opcode : i.op.isKnown = false → FaultOf m i (.unknownOpcode i.op)
  | values {f} : f.isOfValues = true → FaultOf m i f

variable {m m' m₀ : Machine} {i : Instruction} {v : Value} {α : Type} {o dst : Operand}

theorem SameCells.refl (m : Machine) : SameCells m m := ⟨rfl, rfl, rfl, rfl⟩

theorem SameCells.trans (h : SameCells m m₀) (g : SameCells m₀ m') : SameCells m m' :=
  ⟨g.frames.trans h.frames, g.globals.trans h.globals, g.functions.trans h.functions,
    g.data.trans h.data⟩

theorem SameCells.frame (h : SameCells m m') : m'.frame = m.frame := by
  unfold Machine.frame
  rw [h.frames, h.globals]

theorem exists_cell_of_assign? {dst : Operand} (h : m.assign? dst v = some m') :
    ∃ x, dst = .cell x ∧ m.assign? (.cell x) v = some m' := by
  cases dst with
  | cell x => exact ⟨x, rfl, h⟩
  | imm | data | func | unknown => cases h

/-! ## Steps -/

theorem load_of_some {v : Value} (h : m.value? o = some v) : load o m = (.ok v, m) := by
  cases o with
  | imm v => cases h; rfl
  | func name => cases h; rfl
  | unknown code => cases h
  | cell name =>
    have hl : m.lookup? name = some v := h
    change (lookup name) m = _
    unfold lookup
    rw [Exec.get_bind, hl]
    rfl
  | data name =>
    obtain ⟨s, hs, rfl⟩ := Option.map_eq_some_iff.1 h
    simp only [load]
    rw [Exec.get_bind, hs]
    rfl

theorem load_eq_error (h : m.value? o = none) :
    ∃ f, o.readFault? = some f ∧ load o m = (.error (.error (.fault f)), m) := by
  cases o with
  | imm v => cases h
  | func name => cases h
  | unknown code => exact ⟨_, rfl, rfl⟩
  | cell name =>
    have hl : m.lookup? name = none := h
    refine ⟨_, rfl, ?_⟩
    change (lookup name) m = _
    unfold lookup
    rw [Exec.get_bind, hl]
    rfl
  | data name =>
    have hd : m.data.get? name = none := Option.map_eq_none_iff.1 h
    refine ⟨_, rfl, ?_⟩
    simp only [load]
    rw [Exec.get_bind, hd]
    rfl

theorem isOfValues_of_arith {op : Opcode} {a b : Value} {f : Fault}
    (h : arith op a b = .error f) : f.isOfValues = true := by
  unfold arith at h
  split at h
  all_goals first
    | cases h; done
    | (cases h; rfl)
    | (split at h <;> cases h; rfl)

theorem faultOf_compare {a b : Value} {f : Fault} (hop : i.op = .cmp)
    (h : compare i.relation a b = .error f) : FaultOf m i f := by
  unfold compare at h
  split at h
  · cases h
  · next heq =>
    split at h
    · cases h
    · next hne =>
      split at h
      · -- two numbers: only a relation that is none of the six is refused
        iterate 4
          split at h
          · cases h
        cases h
        apply FaultOf.relation hop
        simp [Relation.isKnown, *]
      · cases h
        exact .values rfl

/-- What a step of an instruction comes to that has this effect: it has the effect, or it fails with a
fault of the instruction where there is none. -/
def Does (i : Instruction) (m : Machine) (r : Except Stop Unit × Machine) : Option Machine → Prop
  | some m' => r = (.ok (), m') ∧ CellChange i m m'
  | none => ∃ f m', r = (.error (.error (.fault f)), m') ∧ FaultOf m i f ∧ SameCells m m'

theorem does_fail {f : Fault} (h : FaultOf m i f) : Does i m (Exec.fail f m) none :=
  ⟨f, m, rfl, h, .refl m⟩

theorem does_load {k : Value → Exec Unit} {g : Value → Option Machine} (hvar : i.op ≠ .var)
    (ho : o ∈ i.args) (h : ∀ v, m.value? o = some v → Does i m (k v m) (g v)) :
    Does i m ((load o >>= k) m) ((m.value? o).bind g) := by
  cases hv : m.value? o with
  | none =>
    obtain ⟨f, hf, hload⟩ := load_eq_error hv
    exact ⟨f, m, Exec.bind_of_error hload, .read hvar ho hv hf, .refl m⟩
  | some v =>
    rw [Exec.bind_of_ok (load_of_some hv)]
    exact h v hv

theorem does_orFault {r : Except Fault α} {k : α → Exec Unit} {g : α → Option Machine}
    (hr : ∀ f, r = .error f → FaultOf m i f) (h : ∀ a, Does i m (k a m) (g a)) :
    Does i m ((orFault r >>= k) m) (r.toOption.bind g) := by
  cases r with
  | error f => exact does_fail (hr f rfl)
  | ok a => exact h a

theorem does_orAddressFault {r : Except AddressError α} {k : α → Exec Unit}
    {g : α → Option Machine} (h : ∀ a, Does i m (k a m) (g a)) :
    Does i m ((orAddressFault r >>= k) m) (r.toOption.bind g) := by
  cases r with
  | error e => exact does_fail (.values rfl)
  | ok a => exact h a

theorem storeTo_eq (m : Machine) (dst : Operand) (v : Value) :
    storeTo dst v m = match m.assign? dst v with
      | some m' => (.ok (), m')
      | none => (.error (.error (.fault dst.writeFault)), m) := by
  cases dst with
  | cell x =>
    simp only [storeTo, store, assign?]
    rw [Exec.get_bind]
    by_cases hf : m.frame.contains x = true
    · rw [if_pos hf, if_pos hf]
      rfl
    · rw [if_neg hf, if_neg hf]
      by_cases hg : m.globals.contains x = true
      · rw [if_pos hg, if_pos hg]
        rfl
      · rw [if_neg hg, if_neg hg]
        rfl
  | imm | data | func | unknown => rfl

/-- A store at the end of a step, after work on the stack and the heap. -/
theorem does_storeTo (hvar : i.op ≠ .var) (hdst : i.destination? = some dst)
    (hstores : ∀ x, dst = .cell x → i.stores? = some x) (hsame : SameCells m m₀)
    (hstack : i.Stacks m.stack m₀.stack) : Does i m (storeTo dst v m₀) (m₀.assign? dst v) := by
  rw [storeTo_eq]
  cases ha : m₀.assign? dst v with
  | some m' =>
    obtain ⟨x, rfl, ha⟩ := exists_cell_of_assign? ha
    exact ⟨rfl, .stored (hstores x rfl) hsame hstack ha⟩
  | none =>
    refine ⟨_, m₀, rfl, ?_, hsame⟩
    cases dst with
    | cell x =>
      apply FaultOf.undeclared hvar (mem_of_destination? hdst)
      intro hx
      rw [Machine.declared, ← hsame.frame] at hx
      simp [assign?, hx] at ha
    | imm | data | func | unknown => exact .notCell hdst fun _ h => by cases h

theorem does_alloc (hop : i.op = .alloc) (hargs : i.args = [o, dst]) (hv : m.value? o = some v)
    (hstores : ∀ x, dst = .cell x → i.stores? = some x) :
    Does i m (alloc v dst m) (m.alloc? v dst) := by
  cases v with
  | int n =>
    unfold alloc alloc?
    by_cases hn : n < 0
    · simp only [hn, if_true]
      refine does_fail (.size hop hargs hv fun k hk => ?_)
      cases hk
      exact hn
    · simp only [hn, if_false]
      apply does_storeTo (by simp [hop]) (by simp [destination?, hop, hargs]) hstores
      · exact ⟨rfl, rfl, rfl, rfl⟩
      · rw [Stacks, hop]
  | null | ptr | nowhere | string | func | invalid =>
    exact does_fail (.size hop hargs hv fun _ h => by cases h)

theorem does_storeThrough (hop : i.op = .pmov) (src base index : Value) :
    Does i m (storeThrough src base index m) (m.storeThrough? src base index) := by
  cases index with
  | int n =>
    unfold storeThrough storeThrough?
    simp only []
    rw [Exec.get_bind]
    cases ha : (base.move n).address m.heap with
    | error e => exact does_fail (.values rfl)
    | ok p => exact ⟨rfl, .none ⟨rfl, rfl, rfl, rfl⟩ (by rw [Stacks, hop])⟩
  | null | ptr | nowhere | string | func | invalid => exact does_fail (.values rfl)

/-- A step of an instruction that neither jumps nor calls has the effect of the instruction. -/
theorem does_step (invoke : Function → Exec Unit) (m : Machine) (i : Instruction)
    (hop : i.op.isLocal = true) : Does i m (step invoke i m) (m.effect? i) := by
  obtain ⟨op, args, storage, relation, target, children, func⟩ := i
  cases op with
  | nop => exact ⟨rfl, .none (.refl m) rfl⟩
  | var =>
    match args with
    | [.cell name] => exact ⟨rfl, .declared rfl rfl rfl⟩
    | [.imm _] | [.data _] | [.func _] | [.unknown _] =>
      exact does_fail (.notCell rfl fun _ h => by cases h)
    | [] => exact does_fail (.count rfl (by simp))
    | o :: _ :: _ => cases o <;> exact does_fail (.count rfl (by simp))
  | mov =>
    match args with
    | [src, dst] =>
      apply does_load (by simp) (by simp)
      exact fun v _ => does_storeTo (by simp) rfl (by rintro _ rfl; rfl) (.refl m) rfl
    | [] | [_] | _ :: _ :: _ :: _ => exact does_fail (.count rfl (by simp))
  | add | sub | mul | div =>
    match args with
    | [x, y, dst] =>
      apply does_load (by simp) (by simp)
      intro a _
      apply does_load (by simp) (by simp)
      intro b _
      apply does_orFault fun f hf => .values (isOfValues_of_arith hf)
      exact fun v => does_storeTo (by simp) rfl (by rintro _ rfl; rfl) (.refl m) rfl
    | [] | [_] | [_, _] | _ :: _ :: _ :: _ :: _ => exact does_fail (.count rfl (by simp))
  | cmp =>
    match args with
    | [x, y, dst] =>
      apply does_load (by simp) (by simp)
      intro a _
      apply does_load (by simp) (by simp)
      intro b _
      apply does_orFault fun f hf => faultOf_compare rfl hf
      exact fun v => does_storeTo (by simp) rfl (by rintro _ rfl; rfl) (.refl m) rfl
    | [] | [_] | [_, _] | _ :: _ :: _ :: _ :: _ => exact does_fail (.count rfl (by simp))
  | alloc =>
    match args with
    | [n, dst] =>
      apply does_load (by simp) (by simp)
      exact fun v hv => does_alloc rfl rfl hv (by rintro _ rfl; rfl)
    | [] | [_] | _ :: _ :: _ :: _ => exact does_fail (.count rfl (by simp))
  | pmov =>
    match args with
    | [x, y, z] =>
      apply does_load (by simp) (by simp)
      intro src _
      apply does_load (by simp) (by simp)
      intro base _
      apply does_load (by simp) (by simp)
      exact fun index _ => does_storeThrough rfl src base index
    | [] | [_] | [_, _] | _ :: _ :: _ :: _ :: _ => exact does_fail (.count rfl (by simp))
  | deref =>
    match args with
    | [addr, dst] =>
      apply does_load (by simp) (by simp)
      intro p _
      rw [Exec.get_bind]
      apply does_orAddressFault
      exact fun v => does_storeTo (by simp) rfl (by rintro _ rfl; rfl) (.refl m) rfl
    | [] | [_] | _ :: _ :: _ :: _ => exact does_fail (.count rfl (by simp))
  | push =>
    match args with
    | [x] =>
      apply does_load (by simp) (by simp)
      exact fun v _ => ⟨rfl, .none ⟨rfl, rfl, rfl, rfl⟩ ⟨v, rfl⟩⟩
    | [] | _ :: _ :: _ => exact does_fail (.count rfl (by simp))
  | pop =>
    match args with
    | [dst] =>
      simp only [step, effect?]
      unfold pop?
      rw [bind_assoc, Exec.get_bind]
      cases hs : m.stack with
      | nil => exact does_fail (.values rfl)
      | cons v rest =>
        have hsame : SameCells m { m with stack := rest } := ⟨rfl, rfl, rfl, rfl⟩
        exact does_storeTo (by simp) rfl (by rintro _ rfl; rfl) hsame ⟨v, hs⟩
    | [] | _ :: _ :: _ => exact does_fail (.count rfl (by simp))
  | call | ret | jeq | jne | jmp | scope | func | unknown => cases hop

theorem isLocal_of_effect? (h : m.effect? i = some m') : i.op.isLocal = true := by
  obtain ⟨op⟩ := i
  cases op <;> first | rfl | cases h

theorem cellChange_of_effect? (h : m.effect? i = some m') : CellChange i m m' := by
  have hdoes := does_step (fun _ => pure ()) m i (isLocal_of_effect? h)
  rw [h] at hdoes
  exact hdoes.2

end Machine

end UnitScript
