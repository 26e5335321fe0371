import UnitScript.Proofs.Machine.Isolation
import UnitScript.Proofs.Machine.Places
import UnitScript.Proofs.Machine.Relaxation

/-!
# Cells that an execution does not consult

A name stands for a cell of the innermost frame, or else for one of the top level. So a cell that
has just been declared matters to an execution only if the execution names it in its own frame, or,
when it is a cell of the top level, if a function without a cell of that name reads it. An execution
that does neither goes the same way without the declaration.
-/

namespace UnitScript

namespace Instruction

theorem mem_args_of_mem_loads {i : Instruction} {o : Operand} (h : o ∈ i.loads) : o ∈ i.args := by
  unfold loads at h
  split at h
  all_goals first
    | exact (List.dropLast_sublist _).subset h
    | exact h
    | cases h

end Instruction

/-- An instruction is followed by the next one, jumps, holds a scope or returns. -/
theorem Opcode.kinds (op : Opcode) :
    op.isStep = true ∨ op.isJump = true ∨ op = .scope ∨ op = .ret := by
  cases op <;> simp [isStep, isJump]

namespace Machine

open Instruction

/-- The cell `x` was declared when `d` calls were under way. The instruction names it in its own
frame, or reads it from a function that has no cell of that name. -/
def Consults (d : Nat) (x : Name) (i : Instruction) (m : Machine) : Prop :=
  (m.frames.length = d ∧ .cell x ∈ i.args) ∨
    (d = 0 ∧ m.frame.get? x = none ∧ .cell x ∈ i.loads)

/-- Where a jump leads to. -/
def branch (all : List Instruction) (i : Instruction) (rest : List Instruction) :
    Exec (List Instruction) :=
  match i.op with
  | .jmp => jump all i.target
  | _ => do
    let (a, b) ← compared i
    if a.same b == (i.op == .jeq) then jump all i.target else return rest

/-- An execution of `rest`, the end of `all`, comes to an instruction with a property, in a scope or
a function at last. -/
inductive Meets (limits : Limits) (P : Instruction → Machine → Prop) :
    (all rest : List Instruction) → Machine → Prop where
  | here {all i rest m} : P i m → Meets limits P all (i :: rest) m
  | next {all i rest m m'} : Completes limits i m m' → Meets limits P all rest m' →
      Meets limits P all (i :: rest) m
  | branch {all i rest rest' m} : i.op.isJump = true →
      branch all i rest m.tick = (.ok rest', m.tick) →
      Meets limits P all rest' m.tick → Meets limits P all (i :: rest) m
  | enter {all i rest m} : i.op = .scope → Meets limits P i.children i.children m.tick →
      Meets limits P all (i :: rest) m
  | leave {all i rest m m' fuel} : i.op = .scope →
      exec limits fuel i.children i.children m.tick = (.ok false, m') → Meets limits P all rest m' →
      Meets limits P all (i :: rest) m
  | call {all i rest o m m₁ name f frame} : i.op = .call → i.args = [o] →
      callee o m.tick = (.ok name, m.tick) → m.functions.get? name = some f →
      popParams f.record.name f.record.params.reverse .empty m.tick = (.ok frame, m₁) →
      Meets limits P f.body f.body { m₁ with frames := frame :: m₁.frames } →
      Meets limits P all (i :: rest) m

/-! ## Machines that differ in one cell -/

/-- Two frames with the same cells, except that the second has a cell `x` in any case. -/
structure FrameApart (x : Name) (f f' : Frame) : Prop where
  same : ∀ y, y ≠ x → f'.get? y = f.get? y
  has : f'.contains x = true

/-- The frames and the cells of the top level, which differ in the cell `x` of the top level or of
the frame that is the `d`-th from below. -/
inductive CellsApart (x : Name) : Nat → List Frame → Frame → List Frame → Frame → Prop where
  | top {frames g g'} : FrameApart x g g' → CellsApart x 0 frames g frames g'
  | call {f f' below g} (above : List Frame) : FrameApart x f f' →
      CellsApart x (below.length + 1) (above ++ f :: below) g (above ++ f' :: below) g

/-- The machines are the same up to the number of steps and the cell `x` of one frame. -/
structure Apart (d : Nat) (x : Name) (m m' : Machine) : Prop where
  data : m'.data = m.data
  functions : m'.functions = m.functions
  stack : m'.stack = m.stack
  heap : m'.heap = m.heap
  console : m'.console = m.console
  result : m'.result = m.result
  cells : CellsApart x d m.frames m.globals m'.frames m'.globals

variable {α β : Type} {limits limits' : Limits} {fuel : Nat} {all rest : List Instruction}
  {i : Instruction}
  {m m' m₁ : Machine} {d : Nat} {x y : Name} {v : Value} {act : Exec α} {k : α → Exec β}
  {m₂ : Machine} {o : Operand} {reads writes : Operand → Prop}

theorem FrameApart.insert {f f' : Frame} (h : FrameApart x f f') (y : Name) (v : Value) :
    FrameApart x (f.insert y v) (f'.insert y v) := by
  refine ⟨fun z hz => ?_, (contains_insert _ _ _ _).2 (.inr h.has)⟩
  rw [NameMap.get?_insert, NameMap.get?_insert, h.same z hz]

theorem FrameApart.contains {f f' : Frame} (h : FrameApart x f f') (hy : y ≠ x) :
    f'.contains y = f.contains y := by
  rw [NameMap.contains, NameMap.contains, h.same y hy]

/-- What an execution sees of the difference: it is in the innermost frame, or not there. -/
inductive ApartView (d : Nat) (x : Name) (m m' : Machine) : Prop where
  | own : m.frames.length = d → FrameApart x m.frame m'.frame →
      (∀ f f', FrameApart x f f' → Apart d x (m.setFrame f) (m'.setFrame f')) → ApartView d x m m'
  | deeper : m.frames.length ≠ d → m'.frame = m.frame →
      (∀ f, Apart d x (m.setFrame f) (m'.setFrame f)) → ApartView d x m m'

theorem Apart.view (h : Apart d x m m') : ApartView d x m m' := by
  obtain ⟨data, functions, stack, globals, frames, heap, console, steps, result⟩ := m
  obtain ⟨data', functions', stack', globals', frames', heap', console', steps', result'⟩ := m'
  obtain ⟨rfl, rfl, rfl, rfl, rfl, rfl, hcells⟩ := h
  cases hcells with
  | top hg =>
    cases frames with
    | nil => exact .own rfl hg fun f f' hf => ⟨rfl, rfl, rfl, rfl, rfl, rfl, .top hf⟩
    | cons f₀ outer =>
      exact .deeper (by simp) rfl fun f => ⟨rfl, rfl, rfl, rfl, rfl, rfl, .top hg⟩
  | call above hf =>
    cases above with
    | nil =>
      exact .own rfl hf fun f f' hf => ⟨rfl, rfl, rfl, rfl, rfl, rfl, .call [] hf⟩
    | cons f₀ above =>
      refine .deeper ?_ rfl fun g => ⟨rfl, rfl, rfl, rfl, rfl, rfl, .call (g :: above) hf⟩
      simp
      omega

theorem Apart.globals (h : Apart d x m m') :
    d ≠ 0 ∧ m'.globals = m.globals ∨ d = 0 ∧ FrameApart x m.globals m'.globals := by
  have hcells := h.cells
  generalize m.frames = frames, m.globals = g, m'.frames = frames', m'.globals = g' at hcells ⊢
  cases hcells with
  | top hg => exact .inr ⟨rfl, hg⟩
  | call _ _ => exact .inl ⟨Nat.succ_ne_zero _, rfl⟩

theorem Apart.globals_get? (h : Apart d x m m') (hy : y ≠ x) :
    m'.globals.get? y = m.globals.get? y := by
  rcases h.globals with ⟨-, hg⟩ | ⟨-, hg⟩
  · rw [hg]
  · exact hg.same y hy

theorem Apart.frame_get? (h : Apart d x m m') (hy : y ≠ x) :
    m'.frame.get? y = m.frame.get? y := by
  cases h.view with
  | own _ hf => exact hf.same y hy
  | deeper _ hf => rw [hf]

theorem Apart.lookup? (h : Apart d x m m')
    (hx : y = x → m.frames.length ≠ d ∧ (d = 0 → m.declared x)) :
    m'.lookup? y = m.lookup? y := by
  unfold Machine.lookup?
  rw [h.functions]
  by_cases hy : y = x
  · subst hy
    obtain ⟨hdeeper, htop⟩ := hx rfl
    cases h.view with
    | own hown => exact absurd hown hdeeper
    | deeper _ hf =>
      rw [hf]
      rcases h.globals with ⟨-, hg⟩ | ⟨hd, -⟩
      · rw [hg]
      · obtain ⟨v, hv⟩ := Option.isSome_iff_exists.1 (htop hd)
        rw [hv]
  · rw [h.frame_get? hy, h.globals_get? hy]

/-- The cell `x`, declared when `d` calls were under way, does not stand for any of the operands that
are read and written. -/
structure Spares (d : Nat) (x : Name) (reads writes : Operand → Prop) (m : Machine) : Prop where
  reads : reads (.cell x) → m.frames.length ≠ d ∧ (d = 0 → m.declared x)
  writes : writes (.cell x) → m.frames.length ≠ d

theorem spares_of_not_consults (h : ¬Consults d x i m) : Spares d x (· ∈ i.loads) (· ∈ i.args) m where
  reads := by
    intro hx
    refine ⟨fun hown => h (.inl ⟨hown, mem_args_of_mem_loads hx⟩), fun hd => ?_⟩
    exact Option.isSome_iff_ne_none.2 fun hnone => h (.inr ⟨hd, hnone, hx⟩)
  writes := fun hx hown => h (.inl ⟨hown, hx⟩)

theorem Spares.kept {own : Name → Prop} (h : Spares d x reads writes m) (hk : CellsKept own m m₁) :
    Spares d x reads writes m₁ where
  reads := by
    rw [hk.depth]
    exact fun hx => (h.reads hx).imp_right fun htop hd => hk.declared x (htop hd)
  writes := by
    rw [hk.depth]
    exact h.writes

theorem spares_none : Spares d x (fun _ => False) (fun _ => False) m := ⟨False.elim, False.elim⟩

theorem Apart.value? (h : Apart d x m m') (hs : Spares d x reads writes m) (ho : reads o) :
    m'.value? o = m.value? o := by
  cases o with
  | imm | func | unknown => rfl
  | data name => simp only [Machine.value?, h.data]
  | cell name =>
    apply h.lookup?
    rintro rfl
    exact hs.reads ho

theorem Apart.insertGlobal (h : Apart d x m m') (y : Name) (v : Value) :
    Apart d x { m with globals := m.globals.insert y v }
      { m' with globals := m'.globals.insert y v } := by
  refine { h with cells := ?_ }
  have hcells := h.cells
  generalize m.frames = frames, m.globals = g, m'.frames = frames', m'.globals = g' at hcells ⊢
  cases hcells with
  | top hg => exact .top (hg.insert y v)
  | call above hf => exact .call above hf

theorem Apart.insertLocal (h : Apart d x m m') (y : Name) (v : Value) :
    Apart d x (m.setFrame (m.frame.insert y v)) (m'.setFrame (m'.frame.insert y v)) := by
  cases h.view with
  | own _ hf hset => exact hset _ _ (hf.insert y v)
  | deeper _ hf hset =>
    rw [hf]
    exact hset _

theorem Apart.declared_iff (h : Apart d x m m') (hy : m.frames.length = d → y ≠ x) :
    m'.declared y ↔ m.declared y := by
  unfold Machine.declared
  cases h.view with
  | own hown hf => rw [hf.contains (hy hown)]
  | deeper _ hf => rw [hf]

theorem Apart.assign? (h : Apart d x m m') {dst : Operand}
    (hdst : m.frames.length = d → dst ≠ .cell x) (ha : m.assign? dst v = some m₁) :
    ∃ m₁', m'.assign? dst v = some m₁' ∧ Apart d x m₁ m₁' := by
  obtain ⟨y, rfl, ha⟩ := exists_cell_of_assign? ha
  have hdeclared : m'.frame.contains y = true ↔ m.frame.contains y = true :=
    h.declared_iff fun hown hy => hdst hown (by rw [hy])
  simp only [Machine.assign?]
  rcases assign?_eq_some ha with ⟨hy, rfl⟩ | ⟨hnot, -, hglobal, rfl⟩
  · rw [if_pos (hdeclared.2 hy)]
    exact ⟨_, rfl, h.insertLocal y v⟩
  · have hglobal' : m'.globals.contains y = true := by
      rcases h.globals with ⟨-, hg⟩ | ⟨-, hg⟩
      · rwa [hg]
      · by_cases hy : y = x
        · rw [hy]
          exact hg.has
        · rwa [hg.contains hy]
    rw [if_neg fun hy => hnot (hdeclared.1 hy), if_pos hglobal']
    exact ⟨_, rfl, h.insertGlobal y v⟩

/-! ## Instructions -/

theorem Apart.withHeap (h : Apart d x m m') (heap : Heap) :
    Apart d x { m with heap := heap } { m' with heap := heap } := { h with heap := rfl }

theorem Apart.withStack (h : Apart d x m m') (stack : List Value) :
    Apart d x { m with stack := stack } { m' with stack := stack } := { h with stack := rfl }

/-- On machines that are related the computation comes to the same, and they stay related. -/
def Tracks (R : Machine → Machine → Prop) (act : Exec α) : Prop :=
  ∀ m m' a m₁, R m m' → act m = (.ok a, m₁) → ∃ m₁', act m' = (.ok a, m₁') ∧ R m₁ m₁'

variable {R : Machine → Machine → Prop}

theorem tracks_pure (a : α) : Tracks R (pure a : Exec α) := by
  rintro m m' _ _ h ⟨⟩
  exact ⟨m', rfl, h⟩

theorem tracks_fail (f : Fault) : Tracks R (Exec.fail f : Exec α) :=
  fun _ _ _ _ _ hact => absurd hact Exec.fail_ne_ok

theorem Tracks.bind (h : Tracks R act) (hk : ∀ a, Tracks R (k a)) : Tracks R (act >>= k) := by
  intro m m' b m₂ hm hact
  obtain ⟨a, m₁, ha, hb⟩ := Exec.bind_eq_ok hact
  obtain ⟨m₁', ha', hm₁⟩ := h m m' a m₁ hm ha
  obtain ⟨m₂', hb', hm₂⟩ := hk a m₁ m₁' b m₂ hm₁ hb
  exact ⟨m₂', (Exec.bind_of_ok ha').trans hb', hm₂⟩

theorem tracks_pop? {P : Machine → Prop} (hP : ∀ m stack, P m → P { m with stack := stack }) :
    Tracks (fun m m' => Apart d x m m' ∧ P m) pop? := by
  rintro m m' a m₁ ⟨h, hm⟩ hact
  unfold pop? at hact ⊢
  rw [Exec.get_bind] at hact ⊢
  rw [h.stack]
  cases hs : m.stack with
  | nil =>
    rw [hs] at hact
    cases hact
    exact ⟨m', rfl, h, hm⟩
  | cons v rest =>
    rw [hs] at hact
    cases hact
    exact ⟨_, rfl, h.withStack rest, hP m rest hm⟩

/-- A computation for which the cell is of no account does the same in both machines. -/
theorem Composed.tracks {α' : Type} {g : α → α'} {act' : Exec α'}
    (h : Composed #[] reads writes g act act') :
    Tracks (fun m m' => Apart d x m m' ∧ Spares d x reads writes m) act := by
  induction h with
  | pure a => exact tracks_pure a
  | fail f => exact tracks_fail f
  | bind _ _ hx hk => exact hx.bind hk
  | load ho =>
    rintro m m' v m₁ ⟨h, hs⟩ hl
    obtain ⟨hv, rfl⟩ := load_eq_ok hl
    exact ⟨m', load_of_some ((h.value? hs ho).trans hv), h, hs⟩
  | @storeTo o v ho =>
    rintro m m' _ m₁ ⟨h, hs⟩ hact
    rw [storeTo_eq] at hact ⊢
    cases ha : m.assign? o v with
    | none =>
      rw [ha] at hact
      cases hact
    | some m₂ =>
      rw [ha] at hact
      cases hact
      obtain ⟨m₁', ha', h₁⟩ := h.assign? (fun hown hdst => hs.writes (hdst ▸ ho) hown) ha
      rw [ha']
      obtain ⟨y, rfl, ha⟩ := exists_cell_of_assign? ha
      have hkept : CellsKept (fun _ => False) m _ := kept_assign? ha False.elim
      exact ⟨m₁', rfl, h₁, hs.kept hkept⟩
  | @declare y s _ =>
    rintro m m' _ _ ⟨h, hs⟩ ⟨⟩
    have hkept : CellsKept (fun _ => False) m _ := kept_insert m y (zero s)
    exact ⟨_, rfl, h.insertLocal _ _, hs.kept hkept⟩
  | push v =>
    rintro m m' _ _ ⟨h, hs⟩ ⟨⟩
    exact ⟨_, rfl, { h with stack := congrArg (v :: ·) h.stack }, hs.reads, hs.writes⟩
  | pop => exact tracks_pop? fun m stack hs => ⟨hs.reads, hs.writes⟩
  | @heap _ _ _ f =>
    rintro m m' _ _ ⟨h, hs⟩ ⟨⟩
    change ∃ m₁', (Except.ok (f m'.heap).1, { m' with heap := (f m'.heap).2 }) = _ ∧ _
    rw [h.heap]
    exact ⟨_, rfl, h.withHeap _, hs.reads, hs.writes⟩
  | reading _ hk =>
    intro m m' a m₁ h hact
    rw [Exec.get_bind] at hact ⊢
    rw [h.1.heap]
    exact hk m.heap m m' a m₁ h hact
  | builtin b args =>
    rintro m m' _ _ ⟨h, hs⟩ ⟨⟩
    change ∃ m₁', (Except.ok (applyBuiltin b args m').1, (applyBuiltin b args m').2) = _ ∧ _
    simp only [applyBuiltin, h.heap, h.console]
    exact ⟨_, rfl, ⟨h.data, h.functions, h.stack, rfl, rfl, h.result, h.cells⟩, hs.reads, hs.writes⟩

theorem tracks_register (record : Option FunctionRecord) : Tracks (Apart d x) (register record) := by
  cases record with
  | none => exact tracks_fail _
  | some record =>
    simp only [register]
    cases Decoding.runCode record.body with
    | error e => exact tracks_fail _
    | ok body =>
      rintro m m' _ _ h ⟨⟩
      exact ⟨_, rfl, { h with functions := congrArg (fun fs => NameMap.insert fs _ _) h.functions }⟩

theorem composed_branch (hop : i.op.isJump = true) :
    Composed #[] (· ∈ i.loads) writes id (branch all i rest) (branch all i rest) := by
  unfold branch
  cases hi : i.op with
  | jmp => exact composed_jump all i.target
  | jeq | jne =>
    have hloads : i.loads = i.args := by rw [loads, hi]
    apply (composed_compared fun o ho => hloads ▸ ho).bind
    intro p
    simp only [Prod.map, Value.same_shift]
    split
    · exact composed_jump all i.target
    · exact .pure rest
  | _ =>
    rw [hi] at hop
    cases hop

theorem branch_state (hop : i.op.isJump = true) (m : Machine) : (branch all i rest m).2 = m := by
  unfold branch
  cases hi : i.op with
  | jmp => exact jump_state all i.target m
  | jeq | jne =>
    have hstate := compared_state i m
    cases hp : compared i m with
    | mk r m₁ =>
      rw [hp] at hstate
      subst hstate
      cases r with
      | error s => exact congrArg Prod.snd (Exec.bind_of_error hp)
      | ok p =>
        refine (congrArg Prod.snd (Exec.bind_of_ok hp)).trans ?_
        simp only
        split
        · exact jump_state all i.target m₁
        · rfl
  | _ =>
    rw [hi] at hop
    cases hop

/-! ## Calls and blocks -/

theorem Apart.depth (h : Apart d x m m') : m'.frames.length = m.frames.length := by
  have hcells := h.cells
  generalize m.frames = frames, m.globals = g, m'.frames = frames', m'.globals = g' at hcells ⊢
  cases hcells with
  | top => rfl
  | call => simp

theorem Apart.tick (h : Apart d x m m') : Apart d x m.tick m'.tick := { h with }

theorem Apart.pushFrame (h : Apart d x m m') (f : Frame) :
    Apart d x { m with frames := f :: m.frames } { m' with frames := f :: m'.frames } := by
  refine { h with cells := ?_ }
  have hcells := h.cells
  generalize m.frames = frames, m.globals = g, m'.frames = frames', m'.globals = g' at hcells ⊢
  cases hcells with
  | top hg => exact .top hg
  | call above hf => exact .call (f :: above) hf

/-- The frame of a call is taken away; the frame with the difference is further down. -/
theorem Apart.popFrame (h : Apart d x m m') (hd : d < m.frames.length) :
    Apart d x { m with frames := m.frames.tail } { m' with frames := m'.frames.tail } := by
  refine { h with cells := ?_ }
  have hcells := h.cells
  generalize m.frames = frames, m.globals = g, m'.frames = frames', m'.globals = g' at hcells hd ⊢
  cases hcells with
  | top hg => exact .top hg
  | call above hf =>
    cases above with
    | nil => simp at hd
    | cons f above => exact .call above hf

theorem Apart.le_depth (h : Apart d x m m') : d ≤ m.frames.length := by
  have hcells := h.cells
  generalize m.frames = frames, m.globals = g, m'.frames = frames', m'.globals = g' at hcells ⊢
  cases hcells with
  | top => exact Nat.zero_le _
  | call =>
    rw [List.length_append, List.length_cons]
    omega

/-! ## The first step of an execution -/

theorem allows_of_exec {b : Bool} (he : exec limits (fuel + 1) all (i :: rest) m = (.ok b, m₁)) :
    limits.Allows m := by
  by_cases ha : limits.Allows m
  · exact ha
  · rw [exec, Exec.bind_of_error (countStep_of_not_allowed ha)] at he
    cases he

theorem exec_of_ret (hop : i.op = .ret) (ha : limits.Allows m) :
    exec limits (fuel + 1) all (i :: rest) m = (leave i.args >>= fun _ => pure true) m.tick := by
  rw [exec, countStep_bind ha]
  simp only [hop]

/-- A jump is the same as going on where it leads to. -/
theorem exec_branch (hop : i.op.isJump = true) (ha : limits.Allows m) :
    exec limits (fuel + 1) all (i :: rest) m =
      (branch all i rest >>= fun rest' => exec limits fuel all rest') m.tick := by
  rw [exec, countStep_bind ha]
  unfold branch
  cases hi : i.op with
  | jmp => rfl
  | jeq | jne =>
    simp only [bind_assoc]
    refine congrFun (congrArg (compared i >>= ·) (funext fun p => ?_)) m.tick
    split <;> rfl
  | _ =>
    rw [hi] at hop
    cases hop

theorem Apart.leave (h : Apart d x m m') (hop : i.op = .ret) (hno : ¬Consults d x i m)
    (hl : leave i.args m = (.ok (), m₁)) :
    ∃ m₁', Machine.leave i.args m' = (.ok (), m₁') ∧ Apart d x m₁ m₁' := by
  have hread : ∀ o ∈ i.args, m'.value? o = m.value? o := by
    intro o ho
    apply h.value? (spares_of_not_consults hno)
    rw [loads, hop]
    exact ho
  have hempty : m'.frames.isEmpty = m.frames.isEmpty := by
    rw [Bool.eq_iff_iff, List.isEmpty_iff_length_eq_zero, List.isEmpty_iff_length_eq_zero, h.depth]
  cases hargs : i.args with
  | nil =>
    rw [hargs] at hl
    cases hl
    exact ⟨m', rfl, h⟩
  | cons o more =>
    rw [hargs] at hl
    obtain ⟨v, m₂, hv, h₁⟩ := Exec.bind_eq_ok hl
    obtain ⟨hv, rfl⟩ := load_eq_ok hv
    cases h₁
    refine ⟨_, Exec.bind_of_ok (load_of_some ((hread o (by simp [hargs])).trans hv)), ?_⟩
    simp only [hempty]
    split
    · exact { h with result := rfl }
    · exact { h with stack := congrArg (v :: ·) h.stack }

theorem invoke_of_run {run : List Instruction → Exec Bool} {f : Function} {frame : Frame} {b : Bool}
    (hdepth : ¬limits.maxDepth < m.frameCount)
    (hp : popParams f.record.name f.record.params.reverse .empty m = (.ok frame, m₁))
    (hrun : run f.body { m₁ with frames := frame :: m₁.frames } = (.ok b, m₂)) :
    invoke limits run f m = (.ok (), { m₂ with frames := m₂.frames.tail }) := by
  unfold invoke
  rw [Exec.get_bind, if_neg hdepth]
  exact (Exec.bind_of_ok hp).trans (inFrame_eq hrun)

section Steps

variable
  (hrun : ∀ {all rest m m' b m₁}, Apart d x m m' → ¬Meets limits (Consults d x) all rest m →
    exec limits fuel all rest m = (.ok b, m₁) →
    ∃ m₁', exec { limits with steps := 0 } fuel all rest m' = (.ok b, m₁') ∧ Apart d x m₁ m₁')
include hrun

theorem Apart.invoke (h : Apart d x m m') {f : Function}
    (hno : ∀ {frame m₁},
      popParams f.record.name f.record.params.reverse .empty m = (.ok frame, m₁) →
      ¬Meets limits (Consults d x) f.body f.body { m₁ with frames := frame :: m₁.frames })
    (hi : calling limits fuel f m = (.ok (), m₁)) :
    ∃ m₁', calling { limits with steps := 0 } fuel f m' = (.ok (), m₁') ∧ Apart d x m₁ m₁' := by
  have hdepth : ¬limits.maxDepth < m.frameCount := by
    intro hdeep
    unfold calling Machine.invoke at hi
    rw [Exec.get_bind, if_pos hdeep] at hi
    cases hi
  have hdepth' : ¬({ limits with steps := 0 } : Limits).maxDepth < m'.frameCount := by
    rw [frameCount, h.depth]
    exact hdepth
  have hcase := callingCase limits fuel f m
  generalize calling limits fuel f m = res at hi hcase
  cases hcase with
  | tooDeep | missing => cases hi
  | @ran frame r m₂ m₃ hp hbody =>
    cases r with
    | error e => cases hi
    | ok b =>
      cases hi
      obtain ⟨m₂', hp', hm₂, -⟩ :=
        (composed_popParams _ _ _).tracks m m' frame m₂ ⟨h, spares_none⟩ hp
      have hstart := hm₂.pushFrame frame
      obtain ⟨m₃', hbody', hm₃⟩ := hrun hstart (hno hp) hbody
      refine ⟨_, invoke_of_run hdepth' hp' hbody', hm₃.popFrame ?_⟩
      -- the body has left the frames below its own in place
      obtain ⟨g, hframes, -⟩ := confined_exec limits fuel f.body f.body
        { m₂ with frames := frame :: m₂.frames } frame m₂.frames m₂.frames rfl rfl
      rw [hbody] at hframes
      have hle := hm₂.le_depth
      rw [hframes, List.length_cons]
      omega

theorem Apart.step (h : Apart d x m m') (hop : i.op.isStep = true) (hno : ¬Consults d x i m)
    (hcall : ∀ {o name f frame m₁}, i.op = .call → i.args = [o] → callee o m = (.ok name, m) →
      m.functions.get? name = some f →
      popParams f.record.name f.record.params.reverse .empty m = (.ok frame, m₁) →
      ¬Meets limits (Consults d x) f.body f.body { m₁ with frames := frame :: m₁.frames })
    (hs : step (calling limits fuel) i m = (.ok (), m₁)) :
    ∃ m₁', Machine.step (calling { limits with steps := 0 } fuel) i m' = (.ok (), m₁') ∧
      Apart d x m₁ m₁' := by
  have hs₀ := spares_of_not_consults hno
  have hcallee : ∀ {o name}, i.op = .call → i.args = [o] → callee o m = (.ok name, m) →
      callee o m' = (.ok name, m') := by
    intro o name hcall hargs hc
    have ho : o ∈ i.loads := by
      rw [loads, hcall]
      simp [hargs]
    have hcomposed : Composed #[] (· ∈ i.loads) (· ∈ i.args) id (callee o) (callee o) :=
      composed_callee ho
    obtain ⟨m₁', hc', -⟩ := hcomposed.tracks m m' name m ⟨h, hs₀⟩ hc
    obtain ⟨-, rfl⟩ := callee_eq_ok hc'
    exact hc'
  have hcase := stepCase (i := i) (m := m) (calling limits fuel) hop
  generalize hr : Machine.step (calling limits fuel) i m = r at hs hcase
  cases hcase with
  | done hlocal =>
    have hne : i.op ≠ .call := by
      intro hcall
      rw [hcall] at hlocal
      cases hlocal
    obtain ⟨m₁', hs', hm₁, -⟩ := (composed_local _ (fun _ => pure ()) hlocal (fun _ ho => ho)
      fun _ ho => ho).tracks m m' () m₁ ⟨h, hs₀⟩ (hr.trans hs)
    rw [step_of_ne_call _ _ hne] at hs'
    exact ⟨m₁', hs', hm₁⟩
  | failed => cases hs
  | @called o name f hop hargs hc hf =>
    rw [step_call_of_function hop hargs (hcallee hop hargs hc) (by rw [h.functions]; exact hf)]
    exact h.invoke hrun (hcall hop hargs hc hf) hs
  | @lent o name b m₂ hop hargs hc hf hb hbuiltin =>
    cases hs
    rw [step_call_of_builtin hop hargs (hcallee hop hargs hc) (by rw [h.functions]; exact hf) hb]
    obtain ⟨m₁', hb', hm₁, -⟩ :=
      (composed_callBuiltin b).tracks m m' () m₁ ⟨h, spares_none⟩ hbuiltin
    exact ⟨m₁', hb', hm₁⟩
  | @registered record body hop hrecord hbody =>
    rw [step_of_func hop] at hr ⊢
    exact tracks_register i.func m m' () m₁ h (hr.trans hs)

end Steps

/-- An execution that does not consult the cell goes the same way when the cell has been declared,
if no limit on the steps is in its way. -/
theorem Apart.exec {b : Bool} (h : Apart d x m m') (hno : ¬Meets limits (Consults d x) all rest m)
    (he : exec limits fuel all rest m = (.ok b, m₁)) :
    ∃ m₁', Machine.exec { limits with steps := 0 } fuel all rest m' = (.ok b, m₁') ∧
      Apart d x m₁ m₁' := by
  induction fuel generalizing all rest m m' b m₁ with
  | zero =>
    cases rest with
    | nil =>
      cases he
      exact ⟨m', rfl, h⟩
    | cons i rest => cases he
  | succ fuel ih =>
    cases rest with
    | nil =>
      cases he
      exact ⟨m', rfl, h⟩
    | cons i rest =>
      have ha := allows_of_exec he
      have ha' : ({ limits with steps := 0 } : Limits).Allows m' :=
        Limits.allows_of_unbounded (Int.le_refl 0) m'
      have hhere : ¬Consults d x i m.tick := fun hc => hno (.here hc)
      rcases i.op.kinds with hop | hop | hop | hop
      · rw [exec_of_isStep hop ha] at he
        rw [exec_of_isStep hop ha']
        obtain ⟨_, m₂, hs, he⟩ := Exec.bind_eq_ok he
        have hs := Exec.wrap_eq_ok hs
        obtain ⟨m₂', hs', h₂⟩ := h.tick.step (fun h hno he => ih h hno he) hop hhere
          (fun hcall hargs hc hf hp hin => hno (.call hcall hargs hc hf hp hin)) hs
        have hnext : Completes limits i m m₂ := ⟨hop, fuel, _, countStep_of_allowed ha, hs⟩
        rw [Exec.bind_of_ok (Exec.wrap_of_ok _ hs')]
        exact ih h₂ (fun hin => hno (.next hnext hin)) he
      · rw [exec_branch hop ha] at he
        rw [exec_branch hop ha']
        obtain ⟨rest', m₂, hb, he⟩ := Exec.bind_eq_ok he
        have hstate : (branch all i rest m.tick).2 = m.tick := branch_state hop m.tick
        rw [hb] at hstate
        subst hstate
        obtain ⟨m₂', hb', h₂, -⟩ := (composed_branch hop).tracks m.tick m'.tick rest' m.tick
          ⟨h.tick, spares_of_not_consults hhere⟩ hb
        rw [Exec.bind_of_ok hb']
        exact ih h₂ (fun hin => hno (.branch hop hb hin)) he
      · rw [exec_of_scope hop ha] at he
        rw [exec_of_scope hop ha']
        obtain ⟨returned, m₂, hin, he⟩ := Exec.bind_eq_ok he
        obtain ⟨m₂', hin', h₂⟩ := ih h.tick (fun hin => hno (.enter hop hin)) hin
        rw [Exec.bind_of_ok hin']
        cases returned with
        | true =>
          cases he
          exact ⟨m₂', rfl, h₂⟩
        | false => exact ih h₂ (fun hrest => hno (.leave hop hin hrest)) he
      · rw [exec_of_ret hop ha] at he
        rw [exec_of_ret hop ha']
        obtain ⟨_, m₂, hl, he⟩ := Exec.bind_eq_ok he
        obtain ⟨m₂', hl', h₂⟩ := h.tick.leave hop hhere hl
        rw [Exec.bind_of_ok hl']
        cases he
        exact ⟨m₂', rfl, h₂⟩

/-! ## Wider bounds -/

theorem step_of_wider (h : Wider (fun _ => True) limits limits') {fuel' : Nat} (hfuel : fuel ≤ fuel')
    (hs : step (calling limits fuel) i m = (.ok (), m₁)) :
    step (calling limits' fuel') i m = (.ok (), m₁) := by
  have hbody : ∀ body, Repeats (fun _ => True) (exec limits fuel body body)
      (exec limits' fuel' body body) :=
    fun body => repeats_exec h hfuel (fun _ => trivial) body body
  rcases repeats_step (repeats_invoke h hbody) i m with ⟨s, hs', -⟩ | hsame
  · rw [hs] at hs'
    cases hs'
  · rw [hsame, hs]

/-! ## Code that is carried out -/

variable {c : List Instruction}

theorem Apart.passes (h : Apart d x m m') (hno : ¬Meets limits (Consults d x) all (c ++ rest) m)
    (hp : Passes limits c m m₁) :
    ∃ m₁', Passes { limits with steps := 0 } c m' m₁' ∧ Apart d x m₁ m₁' := by
  induction c generalizing m m' with
  | nil =>
    obtain rfl := hp
    exact ⟨m', rfl, h⟩
  | cons i c ih =>
    obtain ⟨m₂, hi, hp⟩ := hp
    obtain ⟨hop, fuel, _, hcount, hs⟩ := hi
    obtain rfl := countStep_eq_ok hcount
    have ha' : ({ limits with steps := 0 } : Limits).Allows m' :=
      Limits.allows_of_unbounded (Int.le_refl 0) m'
    obtain ⟨m₂', hs', h₂⟩ := h.tick.step (fun h hno he => h.exec hno he) hop
      (fun hc => hno (.here hc))
      (fun hcall hargs hc hf hp hin => hno (.call hcall hargs hc hf hp hin)) hs
    have hnext : Completes limits i m m₂ := ⟨hop, fuel, _, hcount, hs⟩
    obtain ⟨m₁', hp', h₁⟩ := ih h₂ (fun hin => hno (.next hnext hin)) hp
    exact ⟨m₁', ⟨m₂', ⟨hop, fuel, _, countStep_of_allowed ha', hs'⟩, hp'⟩, h₁⟩

theorem Completes.of_wider (h : Completes limits i m m₁)
    (hw : Wider (fun _ => True) limits limits') : Completes limits' i m m₁ := by
  obtain ⟨hop, fuel, _, hcount, hs⟩ := h
  obtain rfl := countStep_eq_ok hcount
  refine ⟨hop, fuel, m.tick, countStep_of_allowed (hw.allows ?_), ?_⟩
  · by_cases ha : limits.Allows m
    · exact ha
    · rw [countStep_of_not_allowed ha] at hcount
      cases hcount
  · exact step_of_wider hw (Nat.le_refl fuel) hs

theorem Passes.of_wider (h : Passes limits c m m₁) (hw : Wider (fun _ => True) limits limits') :
    Passes limits' c m m₁ := by
  induction c generalizing m with
  | nil => exact h
  | cons i c ih =>
    obtain ⟨m₂, hi, hp⟩ := h
    exact ⟨m₂, hi.of_wider hw, ih hp⟩

theorem Completes.unique (h : Completes limits i m m₁) (g : Completes limits i m m₂) : m₁ = m₂ := by
  obtain ⟨hop, fuel, _, hcount, hs⟩ := h
  obtain rfl := countStep_eq_ok hcount
  obtain ⟨-, fuel', _, hcount', hs'⟩ := g
  obtain rfl := countStep_eq_ok hcount'
  have hmax := step_of_wider (.refl _ limits) (Nat.le_max_left fuel fuel') hs
  have hmax' := step_of_wider (.refl _ limits) (Nat.le_max_right fuel fuel') hs'
  rw [hmax] at hmax'
  cases hmax'
  rfl

theorem Passes.unique (h : Passes limits c m m₁) (g : Passes limits c m m₂) : m₁ = m₂ := by
  induction c generalizing m with
  | nil => exact Eq.trans h g.symm
  | cons i c ih =>
    obtain ⟨n, hi, hp⟩ := h
    obtain ⟨n', hi', hp'⟩ := g
    cases hi.unique hi'
    exact ih hp hp'

theorem Passes.cellsKept (h : Passes limits c m m₁) : CellsKept (fun _ => False) m m₁ := by
  induction c generalizing m with
  | nil =>
    obtain rfl := h
    exact (SameCells.refl m₁).kept
  | cons i c ih =>
    obtain ⟨n, hi, hp⟩ := h
    exact hi.cellsKept.trans (ih hp)

/-- A cell of a call is consulted by nothing but instructions that name it and are executed in that
call. -/
theorem Meets.in_call (h : Meets limits (Consults d x) all rest m) (hd : 0 < d)
    (hrest : d < m.frames.length ∨
      m.frames.length = d ∧ ∀ i ∈ rest, i.op.isStep = true ∧ .cell x ∉ i.args) : False := by
  -- the depth is kept by everything but a call, whose body is executed further above
  induction h with
  | here hc =>
    rcases hc with ⟨hown, hx⟩ | ⟨hzero, -⟩
    · rcases hrest with hlt | ⟨-, hrest⟩
      · omega
      · exact (hrest _ List.mem_cons_self).2 hx
    · omega
  | next hi _ ih =>
    have hdepth := hi.cellsKept.depth
    apply ih
    rcases hrest with hlt | ⟨hown, hrest⟩
    · exact .inl (by omega)
    · exact .inr ⟨by omega, fun j hj => hrest j (List.mem_cons_of_mem _ hj)⟩
  | branch hop _ _ ih =>
    rcases hrest with hlt | ⟨-, hrest⟩
    · exact ih (.inl hlt)
    · have hstep := (hrest _ List.mem_cons_self).1
      rw [not_isStep_of_isJump hop] at hstep
      cases hstep
  | enter hop _ ih =>
    rcases hrest with hlt | ⟨-, hrest⟩
    · exact ih (.inl hlt)
    · have hstep := (hrest _ List.mem_cons_self).1
      rw [hop] at hstep
      cases hstep
  | @leave all i rest m m' fuel hop hin _ ih =>
    have hdepth := (cellsKept_exec limits fuel i.children i.children m.tick).depth
    rw [hin] at hdepth
    rcases hrest with hlt | ⟨-, hrest⟩
    · exact ih (.inl (Nat.lt_of_lt_of_eq hlt hdepth.symm))
    · have hstep := (hrest _ List.mem_cons_self).1
      rw [hop] at hstep
      cases hstep
  | @call all i rest o m m₁ name f frame _ _ _ _ hp _ ih =>
    have hframes : m₁.frames = m.frames := (popParams_eq_ok hp).frames
    apply ih
    left
    simp only [hframes, List.length_cons]
    rcases hrest with hlt | ⟨hown, -⟩
    · omega
    · omega

end Machine

end UnitScript
