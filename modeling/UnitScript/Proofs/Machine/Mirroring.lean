import UnitScript.Proofs.Machine.Relocation
import UnitScript.Proofs.Machine.Runs

/-!
# Machines with a past

A machine that has run before has older blocks in its heap, functions that are left over, and a console
on which something was printed. An execution on it goes the same way as on a machine without that
past, with all pointers moved behind the older blocks. A function that is left over can be told from
one that is not there only by a lookup of its name, and without a past that lookup fails: the
execution misses a function, and it stops before the function is registered. The only other way to
part is a read beyond those that both consoles answer alike.
-/

namespace UnitScript

def Ending.shift (k : Nat) : Ending → Ending
  | value v => value (v.shift k)
  | e => e

theorem Stop.ending_shift {k : Nat} (s : Stop) : s.ending.shift k = s.ending := by
  cases s <;> rfl

namespace Machine

/-- What a machine has from the runs before: the blocks of its heap, the names of its functions, none
of which is that of a builtin, and the text on its console, where a machine without the past has
`printed`. Its console answers like that of the other machine until `rest` bytes are left there. -/
structure Past where
  blocks : Heap
  known : Name → Prop
  printed : Array UInt8
  shown : Array UInt8
  rest : Nat
  foreign : ∀ n, known n → Builtin.find? n = none

def Past.lift (p : Past) : Value → Value := Value.shift p.blocks.size

/-- The second machine is the first one with a past. Where the first has a function, the second has
the same one. -/
structure Mirrors (p : Past) (m m' : Machine) : Prop where
  data : m'.data = m.data
  functions : ∀ n, m'.functions.get? n = m.functions.get? n ∨
    m.functions.get? n = none ∧ p.known n
  stack : m'.stack = m.stack.map p.lift
  globals : m'.globals = m.globals.map p.lift
  frames : m'.frames = m.frames.map (NameMap.map p.lift)
  heap : m'.heap = p.blocks.above m.heap
  console : Option.Rel (Console.Resumes p.rest p.printed p.shown) m.console m'.console
  steps : m'.steps = m.steps
  result : m'.result = p.lift m.result

variable {α β α' β' : Type} {p : Past} {g : α → α'} {g' : β → β'} {act : Exec α} {act' : Exec α'}
  {k : α → Exec β} {k' : α' → Exec β'} {m m' : Machine}

/-- The computation misses a function: it stops and has not registered one that is known from the
past. -/
def Misses (p : Past) (r : Except Stop α × Machine) : Prop :=
  (∃ s, r.1 = .error s) ∧ ∃ n, p.known n ∧ r.2.functions.get? n = none

def ReadsOn (act : Exec α) : Prop :=
  ∀ m, Console.unread (act m).2.console ≤ Console.unread m.console

/-- With a past the computation comes to the same, except where the one without it misses a function
or reads beyond the part of the input that is answered alike. -/
structure Mirrored (p : Past) (g : α → α') (act : Exec α) (act' : Exec α') : Prop where
  readsOn : ReadsOn act
  outcome : ∀ m m', Mirrors p m m' →
    (Misses p (act m) ∨ Console.unread (act m).2.console < p.rest) ∨
      (act' m').1 = (act m).1.map g ∧ Mirrors p (act m).2 (act' m').2

/-! ## Computations put together -/

theorem ReadsOn.bind (h : ReadsOn act) (hk : ∀ a, ReadsOn (k a)) : ReadsOn (act >>= k) := by
  intro m
  have hact := h m
  rcases Exec.bind_cases act k m with ⟨s, m₁, hx, hbind⟩ | ⟨a, m₁, hx, hbind⟩
  · rw [hx] at hact
    rw [hbind]
    exact hact
  · rw [hx] at hact
    rw [hbind]
    exact Nat.le_trans (hk a m₁) hact

theorem ReadsOn.of_console (h : ∀ m, (act m).2.console = m.console) : ReadsOn act :=
  fun m => Nat.le_of_eq (congrArg Console.unread (h m))

theorem console_setFrame (m : Machine) (f : Frame) : (m.setFrame f).console = m.console := by
  rw [setFrame_state]

theorem console_storeTo (dst : Operand) (v : Value) (m : Machine) :
    (storeTo dst v m).2.console = m.console := by
  cases dst with
  | cell name =>
    simp only [storeTo, store]
    rw [Exec.get_bind]
    split
    · exact console_setFrame m _
    · split <;> rfl
  | imm | data | func | unknown => rfl

theorem mirrored_pure (a : α) : Mirrored p g (pure a) (pure (g a)) :=
  ⟨.of_console fun _ => rfl, fun _ _ h => .inr ⟨rfl, h⟩⟩

theorem mirrored_throw (s : Stop) : Mirrored p g (throw s) (throw s) :=
  ⟨.of_console fun _ => rfl, fun _ _ h => .inr ⟨rfl, h⟩⟩

theorem mirrored_fail (f : Fault) : Mirrored p g (Exec.fail f) (Exec.fail f) := mirrored_throw _

theorem Mirrored.bind (h : Mirrored p g act act') (hk : ∀ a, Mirrored p g' (k a) (k' (g a))) :
    Mirrored p g' (act >>= k) (act' >>= k') := by
  refine ⟨h.readsOn.bind fun a => (hk a).readsOn, ?_⟩
  intro m m' hm
  have hact := h.outcome m m' hm
  cases hr : act m with
  | mk r m₁ =>
    cases hr' : act' m' with
    | mk r' m₁' =>
      rw [hr, hr'] at hact
      cases r with
      | error s =>
        rw [Exec.bind_of_error hr]
        rcases hact with (⟨-, hmissed⟩ | hbeyond) | ⟨heq, hm₁⟩
        · exact .inl (.inl ⟨⟨s, rfl⟩, hmissed⟩)
        · exact .inl (.inr hbeyond)
        · obtain rfl : r' = .error s := heq
          rw [Exec.bind_of_error hr']
          exact .inr ⟨rfl, hm₁⟩
      | ok a =>
        rw [Exec.bind_of_ok hr]
        rcases hact with (⟨⟨s, hs⟩, -⟩ | hbeyond) | ⟨heq, hm₁⟩
        · cases hs
        -- the rest of the computation does not take the read back
        · exact .inl (.inr (Nat.lt_of_le_of_lt ((hk a).readsOn m₁) hbeyond))
        · obtain rfl : r' = .ok (g a) := heq
          rw [Exec.bind_of_ok hr']
          exact (hk a).outcome m₁ m₁' hm₁

theorem Mirrored.wrap (h : Mirrored p g act act') (place : RunError → RunError) :
    Mirrored p g (Exec.wrap place act) (Exec.wrap place act') := by
  constructor
  · intro m
    rw [Exec.wrap_eq]
    exact h.readsOn m
  · intro m m' hm
    rw [Exec.wrap_eq, Exec.wrap_eq]
    rcases h.outcome m m' hm with (⟨⟨s, hs⟩, hmissed⟩ | hbeyond) | ⟨heq, hm₁⟩
    · rw [hs]
      exact .inl (.inl ⟨⟨_, rfl⟩, hmissed⟩)
    · exact .inl (.inr hbeyond)
    · refine .inr ⟨?_, hm₁⟩
      rw [heq]
      cases (act m).1 <;> rfl

theorem mirrored_modify {f f' : Machine → Machine} (hf : ∀ m, (f m).console = m.console)
    (h : ∀ m m', Mirrors p m m' → Mirrors p (f m) (f' m')) :
    Mirrored p id (modify f : Exec PUnit) (modify f' : Exec PUnit) :=
  ⟨.of_console hf, fun m m' hm => .inr ⟨rfl, h m m' hm⟩⟩

/-! ## Cells -/

theorem Mirrors.frame (h : Mirrors p m m') : m'.frame = m.frame.map p.lift := by
  unfold Machine.frame
  rw [h.frames, h.globals]
  cases m.frames <;> rfl

theorem Mirrors.setFrame (h : Mirrors p m m') (f : Frame) :
    Mirrors p (m.setFrame f) (m'.setFrame (f.map p.lift)) := by
  unfold Machine.setFrame
  have hframes := h.frames
  cases hm : m.frames with
  | nil =>
    rw [hm] at hframes
    rw [hframes]
    exact { h with globals := rfl, frames := rfl }
  | cons f₀ outer =>
    rw [hm] at hframes
    rw [hframes]
    exact { h with frames := rfl }

theorem Mirrors.lookup? (h : Mirrors p m m') (name : Name) :
    (m.lookup? name = none ∧ p.known name ∧ m.functions.get? name = none) ∨
      m'.lookup? name = (m.lookup? name).map p.lift := by
  unfold Machine.lookup?
  rw [h.frame, h.globals, NameMap.get?_map, NameMap.get?_map]
  cases m.frame.get? name with
  | some v => exact .inr rfl
  | none =>
    cases m.globals.get? name with
    | some v => exact .inr rfl
    | none =>
      rcases h.functions name with heq | ⟨hnone, hknown⟩
      · have hcontains : m'.functions.contains name = m.functions.contains name := by
          rw [NameMap.contains, NameMap.contains, heq]
        simp only [Option.map_none, hcontains]
        right
        split <;> rfl
      · have hcontains : m.functions.contains name = false := by
          rw [NameMap.contains, hnone]
          rfl
        simp only [Option.map_none, hcontains, p.foreign name hknown]
        exact .inl ⟨rfl, hknown, hnone⟩

theorem mirrored_load (o : Operand) : Mirrored p p.lift (load o) (load o) := by
  refine ⟨.of_console fun m => by rw [load_state], fun m m' hm => ?_⟩
  cases o with
  | imm | func | unknown => exact .inr ⟨rfl, hm⟩
  | cell name =>
    simp only [load, lookup]
    rw [Exec.get_bind, Exec.get_bind]
    rcases hm.lookup? name with ⟨hnone, hknown, habsent⟩ | heq
    · rw [hnone]
      exact .inl (.inl ⟨⟨_, rfl⟩, name, hknown, habsent⟩)
    · rw [heq]
      cases m.lookup? name <;> exact .inr ⟨rfl, hm⟩
  | data name =>
    simp only [load]
    rw [Exec.get_bind, Exec.get_bind, hm.data]
    cases m.data.get? name <;> exact .inr ⟨rfl, hm⟩

theorem mirrored_storeTo (o : Operand) (v : Value) :
    Mirrored p id (storeTo o v) (storeTo o (p.lift v)) := by
  refine ⟨.of_console (console_storeTo o v), fun m m' hm => ?_⟩
  cases o with
  | cell name =>
    simp only [storeTo, store]
    rw [Exec.get_bind, Exec.get_bind, hm.frame, hm.globals, NameMap.contains_map,
      NameMap.contains_map, ← NameMap.map_insert, ← NameMap.map_insert]
    split
    · exact .inr ⟨rfl, hm.setFrame _⟩
    · split
      · exact .inr ⟨rfl, { hm with globals := rfl }⟩
      · exact .inr ⟨rfl, hm⟩
  | imm | data | func | unknown => exact .inr ⟨rfl, hm⟩

theorem mirrored_declare (name : Name) (s : Storage) :
    Mirrored p id (modify fun m => m.setFrame (m.frame.insert name (zero s)) : Exec PUnit)
      (modify fun m => m.setFrame (m.frame.insert name (zero s)) : Exec PUnit) := by
  refine mirrored_modify (fun m => console_setFrame m _) fun m m' hm => ?_
  have hset := hm.setFrame (m.frame.insert name (zero s))
  rw [NameMap.map_insert, ← hm.frame, Past.lift, zero_shift] at hset
  exact hset

/-! ## Stack, heap and console -/

theorem mirrored_push (v : Value) : Mirrored p id (push v) (push (p.lift v)) :=
  mirrored_modify (fun _ => rfl) fun m m' hm => { hm with stack := by rw [hm.stack, List.map_cons] }

theorem mirrored_pop? : Mirrored p (Option.map p.lift) pop? pop? := by
  constructor
  · apply ReadsOn.of_console
    intro m
    unfold pop?
    rw [Exec.get_bind]
    cases m.stack <;> rfl
  · intro m m' hm
    unfold pop?
    rw [Exec.get_bind, Exec.get_bind, hm.stack]
    cases m.stack with
    | nil => exact .inr ⟨rfl, hm⟩
    | cons v rest => exact .inr ⟨rfl, { hm with stack := rfl }⟩

theorem mirrored_builtin (b : Builtin) (args : List Value) :
    Mirrored p (Except.map p.lift) (modifyGet (applyBuiltin b args))
      (modifyGet (applyBuiltin b (args.map p.lift))) := by
  refine ⟨fun m => b.unread_apply_le m.heap args m.console, fun m m' hm => ?_⟩
  rcases Builtin.apply_resumed b p.blocks m.heap args hm.console with
    hbeyond | ⟨hvalue, hconsole⟩
  · exact .inl (.inr hbeyond)
  · rw [← hm.heap] at hvalue hconsole
    exact .inr ⟨congrArg Except.ok hvalue, { hm with console := hconsole }⟩

/-- Every operation of the machine goes the same way with a past, and so does what is put together
from them. -/
theorem Composed.mirrored
    (h : Composed p.blocks (fun _ => True) (fun _ => True) g act act') : Mirrored p g act act' := by
  induction h with
  | pure a => exact mirrored_pure a
  | fail f => exact mirrored_fail f
  | bind _ _ hx hk => exact hx.bind hk
  | load => exact mirrored_load _
  | storeTo v => exact mirrored_storeTo _ v
  | declare s => exact mirrored_declare _ s
  | push v => exact mirrored_push v
  | pop => exact mirrored_pop?
  | heap hf =>
    refine ⟨.of_console fun _ => rfl, fun m m' hm => ?_⟩
    have hheap := hf m.heap
    rw [← hm.heap] at hheap
    refine .inr ⟨?_, { hm with heap := congrArg Prod.snd hheap }⟩
    exact congrArg (fun r => Except.ok r.1) hheap
  | reading _ hk =>
    refine ⟨fun m => (hk m.heap).readsOn m, fun m m' hm => ?_⟩
    rw [Exec.get_bind, Exec.get_bind, hm.heap]
    exact (hk m.heap).outcome m m' hm
  | builtin b args => exact mirrored_builtin b args

/-! ## Instructions -/

theorem mirrored_register (record : Option FunctionRecord) :
    Mirrored p id (register record) (register record) := by
  cases record with
  | none => exact mirrored_fail _
  | some record =>
    simp only [register]
    cases Decoding.runCode record.body with
    | error e => exact mirrored_fail _
    | ok body =>
      refine mirrored_modify (fun _ => rfl) fun m m' hm => { hm with functions := fun n => ?_ }
      simp only [NameMap.get?_insert]
      split
      · exact .inl rfl
      · exact hm.functions n

theorem mirrored_applying {run : Function → Exec Unit} (h : ∀ f, Mirrored p id (run f) (run f))
    (name : Name) : Mirrored p id (applying run name) (applying run name) := by
  have hbuiltin : ∀ b, Mirrored p id (callBuiltin b) (callBuiltin b) :=
    fun b => (composed_callBuiltin b).mirrored
  unfold applying
  constructor
  · intro m
    rw [Exec.get_bind]
    cases m.functions.get? name with
    | some f => exact (h f).readsOn m
    | none =>
      cases Builtin.find? name with
      | some b => exact (hbuiltin b).readsOn m
      | none => exact Nat.le_refl _
  · intro m m' hm
    rw [Exec.get_bind, Exec.get_bind]
    rcases hm.functions name with heq | ⟨hnone, hknown⟩
    · rw [heq]
      cases m.functions.get? name with
      | some f => exact (h f).outcome m m' hm
      | none =>
        cases Builtin.find? name with
        | some b => exact (hbuiltin b).outcome m m' hm
        | none => exact .inr ⟨rfl, hm⟩
    · rw [hnone, p.foreign name hknown]
      exact .inl (.inl ⟨⟨_, rfl⟩, name, hknown, hnone⟩)

/-! ## Calls, blocks and runs -/

theorem mirrored_inFrame {body : Exec Bool} (h : Mirrored p id body body) (function : Name)
    (frame : Frame) :
    Mirrored p id (inFrame body function frame) (inFrame body function (frame.map p.lift)) := by
  constructor
  · intro m
    cases hr : body { m with frames := frame :: m.frames } with
    | mk r m₁ =>
      have hbody := h.readsOn { m with frames := frame :: m.frames }
      rw [hr] at hbody
      rw [inFrame_eq hr]
      exact hbody
  · intro m m' hm
    have hbody := h.outcome { m with frames := frame :: m.frames }
      { m' with frames := frame.map p.lift :: m'.frames }
      { hm with frames := by rw [hm.frames, List.map_cons] }
    cases hr : body { m with frames := frame :: m.frames } with
    | mk r m₁ =>
      cases hr' : body { m' with frames := frame.map p.lift :: m'.frames } with
      | mk r' m₁' =>
        rw [hr, hr'] at hbody
        rw [inFrame_eq hr, inFrame_eq hr']
        rcases hbody with (⟨⟨s, hs⟩, hmissed⟩ | hbeyond) | ⟨heq, hm₁⟩
        · obtain rfl : r = .error s := hs
          exact .inl (.inl ⟨⟨_, rfl⟩, hmissed⟩)
        · exact .inl (.inr hbeyond)
        · obtain rfl : r' = r.map id := heq
          refine .inr ⟨?_, { hm₁ with frames := ?_ }⟩
          · cases r <;> rfl
          · rw [hm₁.frames, List.map_tail]

theorem mirrored_invoke (limits : Limits) {run : List Instruction → Exec Bool}
    (h : ∀ c, Mirrored p id (run c) (run c)) (f : Function) :
    Mirrored p id (invoke limits run f) (invoke limits run f) := by
  have hrun : Mirrored p id
      (popParams f.record.name f.record.params.reverse .empty >>=
        inFrame (run f.body) f.record.name)
      (popParams f.record.name f.record.params.reverse .empty >>=
        inFrame (run f.body) f.record.name) :=
    (composed_popParams _ _ .empty).mirrored.bind fun frame => mirrored_inFrame (h f.body) _ frame
  constructor
  · intro m
    unfold invoke
    rw [Exec.get_bind]
    split
    · exact Nat.le_refl _
    · exact hrun.readsOn m
  · intro m m' hm
    have hcount : m'.frameCount = m.frameCount := by
      rw [frameCount, frameCount, hm.frames, List.length_map]
    unfold invoke
    rw [Exec.get_bind, Exec.get_bind, hcount]
    split
    · exact .inr ⟨rfl, hm⟩
    · exact hrun.outcome m m' hm

theorem mirrored_countStep (limits : Limits) :
    Mirrored p id (countStep limits) (countStep limits) := by
  constructor
  · intro m
    by_cases ha : limits.Allows m
    · rw [countStep_of_allowed ha]
      exact Nat.le_refl _
    · rw [countStep_of_not_allowed ha]
      exact Nat.le_refl _
  · intro m m' hm
    have htick : Mirrors p m.tick m'.tick := { hm with steps := by rw [tick, tick, hm.steps] }
    have hallows : limits.Allows m' ↔ limits.Allows m := by
      rw [Limits.Allows, Limits.Allows, hm.steps]
    by_cases ha : limits.Allows m
    · rw [countStep_of_allowed ha, countStep_of_allowed (hallows.2 ha)]
      exact .inr ⟨rfl, htick⟩
    · rw [countStep_of_not_allowed ha, countStep_of_not_allowed (fun ha' => ha (hallows.1 ha'))]
      exact .inr ⟨rfl, htick⟩

theorem mirrored_leave (args : List Operand) : Mirrored p id (leave args) (leave args) := by
  cases args with
  | nil => exact mirrored_pure ()
  | cons o more =>
    apply (mirrored_load o).bind
    intro v
    apply mirrored_modify
    · intro m
      split <;> rfl
    · intro m m' hm
      have hempty : m'.frames.isEmpty = m.frames.isEmpty := by rw [hm.frames, List.isEmpty_map]
      simp only [hempty]
      split
      · exact { hm with result := rfl }
      · exact { hm with stack := by rw [hm.stack, List.map_cons] }

theorem mirrored_rules (limits : Limits) : Rules p.blocks limits fun _ {_ _} => Mirrored p where
  composed h := h.mirrored
  bind h hk := h.bind hk
  wrap place h := h.wrap place
  register := mirrored_register
  leave := mirrored_leave
  call name h := mirrored_applying (mirrored_invoke limits h) name
  count h := (mirrored_countStep limits).bind fun _ => h
  spent := mirrored_throw _

theorem mirrored_exec (limits : Limits) (fuel : Nat) (all rest : List Instruction) :
    Mirrored p id (exec limits fuel all rest) (exec limits fuel all rest) :=
  (mirrored_rules limits).exec fuel all rest

theorem mirrored_registerAll (is : List Instruction) :
    Mirrored p id (registerAll is) (registerAll is) := by
  induction is with
  | nil => exact mirrored_pure ()
  | cons i rest ih =>
    rw [registerAll]
    split
    · exact (mirrored_register i.func).bind fun _ => ih
    · exact ih

theorem concluded_mirrored {r r' : Except Stop Bool × Machine}
    (h : (Misses p r ∨ Console.unread r.2.console < p.rest) ∨
      r'.1 = r.1.map id ∧ Mirrors p r.2 r'.2) :
    (∃ n, p.known n ∧ (concluded r).2.functions.get? n = none) ∨
      Console.unread (concluded r).2.console < p.rest ∨
      (concluded r').1 = (concluded r).1.shift p.blocks.size ∧
        Mirrors p (concluded r).2 (concluded r').2 := by
  obtain ⟨result, m⟩ := r
  obtain ⟨result', m'⟩ := r'
  rcases h with (⟨⟨s, hs⟩, hmissed⟩ | hbeyond) | ⟨heq, hm⟩
  · obtain rfl : result = .error s := hs
    exact .inl hmissed
  · cases result <;> exact .inr (.inl hbeyond)
  · obtain rfl : result' = result.map id := heq
    refine .inr (.inr ?_)
    cases result with
    | error s => exact ⟨s.ending_shift.symm, hm⟩
    | ok b => exact ⟨congrArg Ending.value hm.result, hm⟩

theorem Mirrors.to_end (h : Mirrors p m.restart m'.restart) (fuel : Nat) (limits : Limits)
    (u : CodeUnit) :
    (∃ n, p.known n ∧ (runWithin fuel limits u m).2.functions.get? n = none) ∨
      Console.unread (runWithin fuel limits u m).2.console < p.rest ∨
      (runWithin fuel limits u m').1 = (runWithin fuel limits u m).1.shift p.blocks.size ∧
        Mirrors p (runWithin fuel limits u m).2 (runWithin fuel limits u m').2 := by
  cases hreg : registerAll (Instruction.walkAll u.code) m.restart with
  | mk r start =>
    cases hreg' : registerAll (Instruction.walkAll u.code) m'.restart with
    | mk r' start' =>
      have hstart := (mirrored_registerAll (Instruction.walkAll u.code)).outcome _ _ h
      rw [hreg, hreg'] at hstart
      cases r with
      | error s =>
        rw [runWithin_of_unregistered hreg]
        rcases hstart with (⟨-, hmissed⟩ | hbeyond) | ⟨heq, hm⟩
        · exact .inl hmissed
        · exact .inr (.inl hbeyond)
        · obtain rfl : r' = .error s := heq
          rw [runWithin_of_unregistered hreg']
          exact .inr (.inr ⟨s.ending_shift.symm, hm⟩)
      | ok _ =>
        have hexec := mirrored_exec (p := p) limits fuel u.code u.code
        rw [runWithin_of_registered hreg]
        rcases hstart with (⟨⟨s, hs⟩, -⟩ | hbeyond) | ⟨heq, hm⟩
        · cases hs
        · have hread := Nat.lt_of_le_of_lt (hexec.readsOn start) hbeyond
          refine .inr (.inl ?_)
          generalize exec limits fuel u.code u.code start = r at hread ⊢
          obtain ⟨result, m₁⟩ := r
          cases result <;> exact hread
        · obtain rfl : r' = .ok () := heq
          rw [runWithin_of_registered hreg']
          exact concluded_mirrored (hexec.outcome start start' hm)

end Machine

end UnitScript
