import Mathlib.Logic.Relation
import UnitScript.Proofs.Machine.Relaxation

/-!
# What the guards ensure

With a limit on the steps a run ends, and it has started at most one instruction more than the limit
allows, the one that is refused. With a limit on the depth of calls there are never more frames than
the limit and one. Apart from that the limits have no influence: a run that does not end with the
error of a limit is the same with a higher limit, or with none on the steps.
-/

namespace UnitScript

def Ending.root? : Ending → Option RunError
  | error e => some e.root
  | value _ | outOfFuel => none

theorem Stop.root?_ending (s : Stop) {e : RunError} (h : s.root = .error e) :
    s.ending.root? = some e := by
  cases s with
  | error e' =>
    cases h
    rfl
  | outOfFuel => cases h

theorem Stop.eq_of_ending {s : Stop} (h : s.ending = .outOfFuel) : s = .outOfFuel := by
  cases s with
  | outOfFuel => rfl
  | error e => cases h

namespace Machine

open Instruction

variable {α β α' : Type} {g : α → α'} {act : Exec α} {act' : Exec α'} {k : α → Exec β}
  {limits : Limits} {n fuel : Nat} {m : Machine}

/-! ## The limit on the steps -/

/-- What a computation comes to that has spent its steps under a limit of `n`: it does not meet the
bound on its length, and if it has not failed, it is within the limit. -/
structure Metered (n : Nat) (m : Machine) (r : Except Stop α × Machine) : Prop where
  ended : r.1 ≠ .error .outOfFuel
  started : m.steps ≤ r.2.steps
  refused : r.2.steps ≤ n + 1
  allowed : ∀ a, r.1 = .ok a → r.2.steps ≤ n

/-- Within a limit of `n` steps, with a bound above what is left of them. -/
def Meters (n fuel : Nat) (act : Exec α) : Prop :=
  ∀ m : Machine, m.steps ≤ n → n < m.steps + fuel → Metered n m (act m)

def Uncounted (act : Exec α) : Prop :=
  ∀ m, (act m).1 ≠ .error .outOfFuel ∧ (act m).2.steps = m.steps

theorem Uncounted.bind (h : Uncounted act) (hk : ∀ a, Uncounted (k a)) : Uncounted (act >>= k) := by
  intro m
  have hact := h m
  rcases Exec.bind_cases act k m with ⟨s, m₁, hx, hbind⟩ | ⟨a, m₁, hx, hbind⟩
  · rw [hx] at hact
    rw [hbind]
    exact ⟨fun hs => hact.1 (by rw [Except.error.inj hs]), hact.2⟩
  · rw [hx] at hact
    rw [hbind]
    exact ⟨(hk a m₁).1, (hk a m₁).2.trans hact.2⟩

theorem uncounted_pure (a : α) : Uncounted (pure a : Exec α) := fun _ => ⟨by rintro ⟨⟩, rfl⟩

theorem uncounted_fail (f : Fault) : Uncounted (Exec.fail f : Exec α) :=
  fun _ => ⟨by rintro ⟨⟩, rfl⟩

theorem steps_setFrame (m : Machine) (f : Frame) : (m.setFrame f).steps = m.steps := by
  rw [setFrame_state]

theorem uncounted_storeTo (dst : Operand) (v : Value) : Uncounted (storeTo dst v) := by
  intro m
  cases dst with
  | cell name =>
    simp only [storeTo, store]
    rw [Exec.get_bind]
    split
    · exact ⟨by rintro ⟨⟩, steps_setFrame m _⟩
    · split <;> exact ⟨by rintro ⟨⟩, rfl⟩
  | imm | data | func | unknown => exact ⟨by rintro ⟨⟩, rfl⟩

theorem Composed.uncounted (h : Composed #[] (fun _ => True) (fun _ => True) g act act') :
    Uncounted act := by
  induction h with
  | pure a => exact uncounted_pure a
  | fail f => exact uncounted_fail f
  | push | heap | builtin => exact fun _ => ⟨by rintro ⟨⟩, rfl⟩
  | bind _ _ hx hk => exact hx.bind hk
  | @load o =>
    intro m
    cases hv : m.value? o with
    | some v =>
      rw [load_of_some hv]
      exact ⟨by rintro ⟨⟩, rfl⟩
    | none =>
      obtain ⟨f, -, hload⟩ := load_eq_error hv
      rw [hload]
      exact ⟨by rintro ⟨⟩, rfl⟩
  | storeTo v => exact uncounted_storeTo _ v
  | declare => exact fun m => ⟨by rintro ⟨⟩, steps_setFrame m _⟩
  | pop =>
    intro m
    unfold pop?
    rw [Exec.get_bind]
    cases m.stack <;> exact ⟨by rintro ⟨⟩, rfl⟩
  | reading _ hk => exact fun m => hk m.heap m

theorem uncounted_register (record : Option FunctionRecord) : Uncounted (register record) := by
  intro m
  refine ⟨?_, by rw [register_state]⟩
  cases record with
  | none => rintro ⟨⟩
  | some record =>
    simp only [register]
    cases Decoding.runCode record.body <;> rintro ⟨⟩

theorem uncounted_registerAll (is : List Instruction) : Uncounted (registerAll is) := by
  induction is with
  | nil => exact uncounted_pure ()
  | cons i rest ih =>
    rw [registerAll]
    split
    · exact (uncounted_register i.func).bind fun _ => ih
    · exact ih

theorem uncounted_leave (args : List Operand) : Uncounted (leave args) := by
  intro m
  have hcase := leaveCase args m
  generalize leave args m = r at hcase ⊢
  cases hcase <;> exact ⟨by rintro ⟨⟩, rfl⟩

theorem Uncounted.meters (h : Uncounted act) (n fuel : Nat) : Meters n fuel act := by
  intro m hm _
  obtain ⟨hended, hsteps⟩ := h m
  exact ⟨hended, Nat.le_of_eq hsteps.symm, by omega, fun _ _ => by omega⟩

theorem Meters.bind (h : Meters n fuel act) (hk : ∀ a, Meters n fuel (k a)) :
    Meters n fuel (act >>= k) := by
  intro m hm hfuel
  have hact := h m hm hfuel
  rcases Exec.bind_cases act k m with ⟨s, m₁, hx, hbind⟩ | ⟨a, m₁, hx, hbind⟩
  · rw [hx] at hact
    rw [hbind]
    refine ⟨fun hs => hact.ended ?_, hact.started, hact.refused, fun b hb => by cases hb⟩
    rw [Except.error.inj hs]
  · rw [hx] at hact
    rw [hbind]
    have hstarted : m.steps ≤ m₁.steps := hact.started
    have hrest := hk a m₁ (hact.allowed a rfl) (by omega)
    exact ⟨hrest.ended, Nat.le_trans hstarted hrest.started, hrest.refused, hrest.allowed⟩

theorem Metered.amid {r : Except Stop α} {m' : Machine} (h : Metered n m (r, m'))
    (place : RunError → RunError) : Metered n m (r.mapError (Stop.amid place), m') := by
  refine ⟨fun hs => ?_, h.started, h.refused, fun a ha => ?_⟩
  · match r with
    | .error .outOfFuel => exact h.ended rfl
  · match r with
    | .ok b => exact h.allowed b rfl

theorem Meters.wrap (h : Meters n fuel act) (place : RunError → RunError) :
    Meters n fuel (Exec.wrap place act) := by
  intro m hm hfuel
  rw [Exec.wrap_eq]
  exact (h m hm hfuel).amid place

/-- Starting an instruction takes one of the steps that are left, or ends the execution. -/
theorem meters_count (hn : 0 < n) (hsteps : limits.steps = n) (h : Meters n fuel act) :
    Meters n (fuel + 1) (countStep limits >>= fun _ => act) := by
  intro m hm hfuel
  have htick : m.tick.steps = m.steps + 1 := rfl
  by_cases ha : limits.Allows m
  · rw [countStep_bind ha]
    unfold Limits.Allows at ha
    have hact := h m.tick (by omega) (by omega)
    exact ⟨hact.ended, Nat.le_of_succ_le hact.started, hact.refused, hact.allowed⟩
  · rw [Exec.bind_of_error (countStep_of_not_allowed ha)]
    exact ⟨by rintro ⟨⟩, Nat.le_succ _, Nat.succ_le_succ hm, fun a h => by cases h⟩

theorem meters_inFrame {body : Exec Bool} (h : Meters n fuel body) (function : Name)
    (frame : Frame) : Meters n fuel (inFrame body function frame) := by
  intro m hm hfuel
  have hbody := h { m with frames := frame :: m.frames } hm hfuel
  cases hr : body { m with frames := frame :: m.frames } with
  | mk r m' =>
    rw [hr] at hbody
    rw [inFrame_eq hr]
    apply Metered.amid
    refine ⟨fun hs => hbody.ended ?_, hbody.started, hbody.refused, fun a ha => ?_⟩
    · match r with
      | .error .outOfFuel => rfl
    · match r with
      | .ok b => exact hbody.allowed b rfl

theorem meters_invoke {run : List Instruction → Exec Bool} (h : ∀ c, Meters n fuel (run c))
    (f : Function) : Meters n fuel (invoke limits run f) := by
  have hrun : Meters n fuel (popParams f.record.name f.record.params.reverse .empty >>=
      inFrame (run f.body) f.record.name) :=
    ((composed_popParams _ _ _).uncounted.meters n fuel).bind fun frame =>
      meters_inFrame (h f.body) _ frame
  intro m hm hfuel
  unfold invoke
  rw [Exec.get_bind]
  split
  · exact ⟨by rintro ⟨⟩, Nat.le_refl _, Nat.le_succ_of_le hm, fun a h => by cases h⟩
  · exact hrun m hm hfuel

theorem meters_applying {run : Function → Exec Unit} (h : ∀ f, Meters n fuel (run f))
    (name : Name) : Meters n fuel (applying run name) := by
  intro m hm hfuel
  unfold applying
  rw [Exec.get_bind]
  cases m.functions.get? name with
  | some f => exact h f m hm hfuel
  | none =>
    cases Builtin.find? name with
    | some b => exact (composed_callBuiltin b).uncounted.meters n fuel m hm hfuel
    | none => exact (uncounted_fail _).meters n fuel m hm hfuel

theorem meters_rules (hn : 0 < n) (hsteps : limits.steps = n) :
    Rules #[] limits fun fuel {_ _} _ act _ => Meters n fuel act where
  composed h := h.uncounted.meters n _
  bind h hk := h.bind hk
  wrap place h := h.wrap place
  register record := (uncounted_register record).meters n _
  leave args := (uncounted_leave args).meters n _
  call name h := meters_applying (meters_invoke h) name
  count h := meters_count hn hsteps h
  spent := fun m hm hfuel => by omega

/-- Every recursion of an execution has taken a step, so a bound above the steps that are left is
never met. -/
theorem meters_exec (hn : 0 < n) (hsteps : limits.steps = n) (fuel : Nat)
    (all rest : List Instruction) : Meters n fuel (exec limits fuel all rest) :=
  (meters_rules hn hsteps).exec fuel all rest

/-! ## The limit on the depth of calls -/

/-- A moment of an execution: with `fuel` as its bound, `rest` is to be executed as the end of
`all`. -/
structure Moment where
  fuel : Nat
  all : List Instruction
  rest : List Instruction
  machine : Machine

/-- The moments that a moment leads to: those of a scope or a function that is entered, and that
behind the instruction. A conditional jump may go either way. -/
inductive Moment.Next (limits : Limits) : Moment → Moment → Prop where
  | jump {fuel all i rest rest' m m₁} : i.op.isJump = true → countStep limits m = (.ok (), m₁) →
      jump all i.target m₁ = (.ok rest', m₁) →
      Next limits ⟨fuel + 1, all, i :: rest, m⟩ ⟨fuel, all, rest', m₁⟩
  | pass {fuel all i rest m m₁} : i.op.isJump = true → countStep limits m = (.ok (), m₁) →
      Next limits ⟨fuel + 1, all, i :: rest, m⟩ ⟨fuel, all, rest, m₁⟩
  | enter {fuel all i rest m m₁} : i.op = .scope → countStep limits m = (.ok (), m₁) →
      Next limits ⟨fuel + 1, all, i :: rest, m⟩ ⟨fuel, i.children, i.children, m₁⟩
  | leave {fuel all i rest m m₁ m₂} : i.op = .scope → countStep limits m = (.ok (), m₁) →
      exec limits fuel i.children i.children m₁ = (.ok false, m₂) →
      Next limits ⟨fuel + 1, all, i :: rest, m⟩ ⟨fuel, all, rest, m₂⟩
  | step {fuel all i rest m m₁ m₂} : i.op.isStep = true → countStep limits m = (.ok (), m₁) →
      step (invoke limits fun body => exec limits fuel body body) i m₁ = (.ok (), m₂) →
      Next limits ⟨fuel + 1, all, i :: rest, m⟩ ⟨fuel, all, rest, m₂⟩
  | call {fuel all i rest o m m₁ m₂ name f frame} : i.op = .call → i.args = [o] →
      countStep limits m = (.ok (), m₁) → callee o m₁ = (.ok name, m₁) →
      m₁.functions.get? name = some f → ¬limits.maxDepth < m₁.frameCount →
      popParams f.record.name f.record.params.reverse .empty m₁ = (.ok frame, m₂) →
      Next limits ⟨fuel + 1, all, i :: rest, m⟩
        ⟨fuel, f.body, f.body, { m₂ with frames := frame :: m₂.frames }⟩

/-- The functions are known under their own names, and there are no more frames than the limit
allows. -/
structure InDepth (limits : Limits) (m : Machine) : Prop where
  stocked : m.Stocked fun _ => True
  depth : m.frameCount ≤ limits.maxDepth + 1

theorem InDepth.maintained (h : InDepth limits m) {m' : Machine}
    (hm : Maintained (fun _ => True) m m') : InDepth limits m' := by
  refine ⟨hm.stocked, ?_⟩
  unfold frameCount
  rw [hm.cells.depth]
  exact h.depth

theorem InDepth.tick (h : InDepth limits m) : InDepth limits m.tick :=
  h.maintained ((sameCells_tick m).maintained h.stocked)

theorem supplies_true (c : List Instruction) : Supplies (fun _ => True) c :=
  fun _ _ _ _ _ _ _ => trivial

theorem Moment.Next.inDepth {p q : Moment} (h : Moment.Next limits p q)
    (hp : InDepth limits p.machine) : InDepth limits q.machine := by
  have hexec : ∀ fuel all rest (m : Machine), m.Stocked (fun _ => True) →
      Maintained (fun _ => True) m (exec limits fuel all rest m).2 :=
    fun fuel all rest m hm => maintained_exec (fun f _ => supplies_true f.body) limits fuel
      (supplies_true all) (supplies_true rest) hm
  cases h with
  | jump _ hc | pass _ hc | enter _ hc =>
    obtain rfl := countStep_eq_ok hc
    exact hp.tick
  | @leave fuel _ i _ _ _ _ _ hc hin =>
    obtain rfl := countStep_eq_ok hc
    have hkept := hexec fuel i.children i.children _ hp.tick.stocked
    rw [hin] at hkept
    exact hp.tick.maintained hkept
  | @step fuel _ i _ _ _ _ hop hc hstep =>
    obtain rfl := countStep_eq_ok hc
    have hkept := maintained_step (fun f _ => supplies_true f.body)
      (fun all rest m _ _ hm => hexec fuel all rest m hm) (fun _ _ _ _ _ => trivial) hop
      hp.tick.stocked
    rw [hstep] at hkept
    exact hp.tick.maintained hkept
  | call _ _ hc _ _ hdeep hpop =>
    -- the only way to one frame more, and it is open only within the limit
    obtain rfl := countStep_eq_ok hc
    have hsame := popParams_eq_ok hpop
    refine ⟨hp.tick.stocked.of_functions hsame.functions, ?_⟩
    simp only [frameCount, List.length_cons, hsame.frames] at hdeep ⊢
    omega

theorem inDepth_of_next {p q : Moment} (h : Relation.ReflTransGen (Moment.Next limits) p q)
    (hp : InDepth limits p.machine) : InDepth limits q.machine := by
  induction h with
  | refl => exact hp
  | tail _ hnext ih => exact hnext.inDepth ih

/-! ## Runs -/

variable {u : CodeUnit}

theorem metered_run (hn : 0 < n) (hsteps : limits.steps = n) (hfuel : n < fuel) (u : CodeUnit)
    (m : Machine) : (runWithin fuel limits u m).1 ≠ .outOfFuel ∧
      (runWithin fuel limits u m).2.steps ≤ n + 1 := by
  have hreg := uncounted_registerAll (walkAll u.code) m.restart
  have hcase := runCase fuel limits u m
  generalize runWithin fuel limits u m = r at hcase ⊢
  cases hcase with
  | unregistered hr =>
    rw [hr] at hreg
    refine ⟨fun hs => hreg.1 ?_, Nat.le_trans (Nat.le_of_eq hreg.2) (Nat.zero_le _)⟩
    rw [Stop.eq_of_ending hs]
  | @stopped _ start _ hr hexec =>
    rw [hr] at hreg
    have hzero : start.steps = 0 := hreg.2
    have hmeter := meters_exec hn hsteps fuel u.code u.code start (by omega) (by omega)
    rw [hexec] at hmeter
    refine ⟨fun hs => hmeter.ended ?_, hmeter.refused⟩
    rw [Stop.eq_of_ending hs]
  | @ended _ start _ hr hexec =>
    rw [hr] at hreg
    have hzero : start.steps = 0 := hreg.2
    have hmeter := meters_exec hn hsteps fuel u.code u.code start (by omega) (by omega)
    rw [hexec] at hmeter
    exact ⟨by rintro ⟨⟩, hmeter.refused⟩

theorem runWithin_of_more_steps (hn : 0 < n) (hsteps : limits.steps = n) (hfuel : n < fuel)
    {limits' : Limits} (hmore : limits'.steps ≤ 0 ∨ limits.steps ≤ limits'.steps)
    (hdepth : limits'.maxDepth = limits.maxDepth) {fuel' : Nat} (hfuel' : fuel ≤ fuel')
    (hbudget : (runWithin fuel limits u m).1.root? ≠ some .stepBudget) :
    runWithin fuel' limits' u m = runWithin fuel limits u m := by
  have hwider : Wider (fun s => s = .outOfFuel ∨ s = .error .stepBudget) limits limits' := by
    refine ⟨.inr ⟨.inr rfl, ?_⟩, .inl hdepth⟩
    omega
  rcases runWithin_of_wider hwider hfuel' (fun _ => .inl rfl) u m with ⟨s, hs, hcut | hcut⟩ | hsame
  · cases s with
    | outOfFuel => exact absurd hs (metered_run hn hsteps hfuel u m).1
    | error e => cases hcut
  · rw [hs] at hbudget
    exact absurd (s.root?_ending hcut) hbudget
  · exact hsame

theorem runWithin_of_more_depth {limits' : Limits} (hsteps : limits'.steps = limits.steps)
    (hdepth : limits.maxDepth ≤ limits'.maxDepth)
    (hroot : ∀ k, (runWithin fuel limits u m).1.root? ≠ some (.callDepth k)) :
    runWithin fuel limits' u m = runWithin fuel limits u m := by
  have hwider : Wider (fun s => ∃ k, s = .error (.callDepth k)) limits limits' :=
    ⟨.inl hsteps, .inr ⟨fun k => ⟨k, rfl⟩, hdepth⟩⟩
  rcases runWithin_of_wider hwider (Nat.le_refl fuel) (fun h => absurd h (Nat.lt_irrefl _)) u m with
    ⟨s, hs, k, hcut⟩ | hsame
  · have hk := hroot k
    rw [hs] at hk
    exact absurd (s.root?_ending hcut) hk
  · exact hsame

theorem frames_registerAll (is : List Instruction) (m : Machine) :
    (registerAll is m.restart).2.frames = [] := by
  rw [registerAll_state]
  rfl

theorem Serves.inDepth_start (hm : Serves u m) {start : Machine}
    (hstart : registerAll (walkAll u.code) m.restart = (.ok (), start)) : InDepth limits start := by
  refine ⟨hm.stocked_start (fun f _ => supplies_true f.body) (supplies_true u.code) hstart, ?_⟩
  have hframes := frames_registerAll (walkAll u.code) m
  rw [hstart] at hframes
  unfold frameCount
  rw [hframes]
  exact Nat.le_add_left 1 _

theorem Serves.frames_run (hm : Serves u m) (fuel : Nat) (limits : Limits) :
    (runWithin fuel limits u m).2.frames = [] := by
  have hframes := frames_registerAll (walkAll u.code) m
  have hexec : ∀ {start : Machine}, registerAll (walkAll u.code) m.restart = (.ok (), start) →
      (exec limits fuel u.code u.code start).2.frames = [] := by
    intro start hstart
    rw [hstart] at hframes
    have hstocked := hm.stocked_start (fun f _ => supplies_true f.body) (supplies_true u.code) hstart
    have hkept := maintained_exec (fun f _ => supplies_true f.body) limits fuel
      (supplies_true u.code) (supplies_true u.code) hstocked
    apply List.eq_nil_of_length_eq_zero
    rw [hkept.cells.depth, hframes]
    rfl
  have hcase := runCase fuel limits u m
  generalize runWithin fuel limits u m = r at hcase ⊢
  cases hcase with
  | unregistered hr =>
    rw [hr] at hframes
    exact hframes
  | stopped hr he | ended hr he =>
    have hend := hexec hr
    rw [he] at hend
    exact hend

end Machine

open Machine

/-- The moments of a run of a unit. -/
def CodeUnit.ComesTo (u : CodeUnit) (limits : Limits) (fuel : Nat) (m : Machine) (p : Moment) :
    Prop :=
  ∃ start, registerAll (Instruction.walkAll u.code) m.restart = (.ok (), start) ∧
    Relation.ReflTransGen (Moment.Next limits) ⟨fuel, u.code, u.code, start⟩ p

/-- The limits bound a run and change nothing else about it. With a limit of `n` steps it ends after
at most `n + 1` started instructions; unless it ends with the error of this limit, it is the same
with every higher limit and with none, and if it does, so it does with every lower limit. At no
moment there are more frames than the limit on the depth and one, none of a call is left at the end,
and unless the run ends with the error of this limit, it is the same with every greater depth. -/
theorem CodeUnit.limits_only_bound {u : CodeUnit} {m : Machine} (hm : Serves u m)
    (limits : Limits) :
    (∀ n : Nat, 0 < n →
      let upTo := fun k : Nat => run { limits with steps := k } u m
      ((upTo n).1 ≠ .outOfFuel ∧ (upTo n).2.steps ≤ n + 1) ∧
      ((upTo n).1.root? ≠ some .stepBudget →
        (∀ k, n ≤ k → upTo k = upTo n) ∧
        ∀ fuel, n < fuel → runWithin fuel { limits with steps := 0 } u m = upTo n) ∧
      ((upTo n).1.root? = some .stepBudget →
        ∀ k, 0 < k → k ≤ n → (upTo k).1.root? = some .stepBudget)) ∧
    (∀ fuel,
      (∀ p, u.ComesTo limits fuel m p → p.machine.frameCount ≤ limits.maxDepth + 1) ∧
      (runWithin fuel limits u m).2.frameCount = 1 ∧
      ((∀ k, (runWithin fuel limits u m).1.root? ≠ some (.callDepth k)) →
        ∀ limits', limits'.steps = limits.steps → limits.maxDepth ≤ limits'.maxDepth →
          runWithin fuel limits' u m = runWithin fuel limits u m)) ∧
    (limits.depth ≤ 0 → limits.maxDepth = 1024) := by
  have hrun : ∀ n : Nat, 0 < n → run { limits with steps := n } u m =
      runWithin (n + 1) { limits with steps := n } u m := by
    intro n hn
    have hpos : ¬((n : Int) ≤ 0) := by omega
    have hfuel : fuelFor { limits with steps := n } = n + 1 := if_neg hpos
    rw [run, hfuel]
  have hmore : ∀ n k : Nat, 0 < n → n ≤ k →
      (run { limits with steps := n } u m).1.root? ≠ some .stepBudget →
      run { limits with steps := k } u m = run { limits with steps := n } u m := by
    intro n k hn hk hbudget
    rw [hrun n hn] at hbudget ⊢
    rw [hrun k (by omega)]
    refine runWithin_of_more_steps hn rfl (Nat.lt_succ_self n) (.inr ?_) ?_ (Nat.succ_le_succ hk)
      hbudget
    · exact Int.ofNat_le.2 hk
    · rfl
  refine ⟨fun n hn => ?_, fun fuel => ⟨fun p hp => ?_, ?_, fun hroot limits' hsteps hdepth => ?_⟩,
    fun hdepth => if_pos hdepth⟩
  · dsimp only
    refine ⟨?_, fun hbudget => ⟨fun k hk => hmore n k hn hk hbudget, fun fuel hfuel => ?_⟩,
      fun hbudget k hk hle => ?_⟩
    · rw [hrun n hn]
      exact metered_run hn rfl (Nat.lt_succ_self n) u m
    · rw [hrun n hn] at hbudget ⊢
      refine runWithin_of_more_steps hn rfl (Nat.lt_succ_self n) (.inl ?_) ?_ hfuel hbudget
      · exact Int.le_refl 0
      · rfl
    · -- otherwise the run with the lower limit would be the one with the higher
      refine Classical.byContradiction fun hother => hother ?_
      rwa [← hmore k n hk hle hother]
  · obtain ⟨start, hstart, hpath⟩ := hp
    exact (inDepth_of_next hpath (hm.inDepth_start hstart)).depth
  · unfold frameCount
    rw [hm.frames_run fuel limits]
    rfl
  · exact runWithin_of_more_depth hsteps hdepth hroot

/-- A unit that calls a function which calls itself. -/
def recursingUnit : CodeUnit where
  name := "recursing"
  code :=
    [.function ⟨"f", [], .none, (Encoding.code [.call (.func "f")]).toOption.getD []⟩,
      .call (.func "f")]

/-- With a depth of 2 the fourth instruction is one call too deep, if the limit on the steps lets it
start; without that limit the run is the same. -/
theorem recursing_bounded :
    let m := ofUnit recursingUnit none
    (run ⟨3, 2⟩ recursingUnit m).1.root? = some .stepBudget ∧
      (run ⟨1, 2⟩ recursingUnit m).1.root? = some .stepBudget ∧
      (run ⟨4, 2⟩ recursingUnit m).1.root? = some (.callDepth 3) ∧
      (∀ fuel, 4 < fuel → (runWithin fuel ⟨0, 2⟩ recursingUnit m).1.root? = some (.callDepth 3)) ∧
      ∀ fuel p, recursingUnit.ComesTo ⟨0, 2⟩ fuel m p → p.machine.frameCount ≤ 3 := by
  intro m
  obtain ⟨hsteps, hdepth, -⟩ := CodeUnit.limits_only_bound (u := recursingUnit) (.new none) ⟨0, 2⟩
  have hthree : (run ⟨3, 2⟩ recursingUnit m).1.root? = some .stepBudget := rfl
  have hfour : (run ⟨4, 2⟩ recursingUnit m).1.root? = some (.callDepth 3) := rfl
  refine ⟨hthree, (hsteps 3 (by decide)).2.2 hthree 1 (by decide) (by decide), hfour, ?_, ?_⟩
  · intro fuel hfuel
    have hother : (run ⟨4, 2⟩ recursingUnit m).1.root? ≠ some .stepBudget := by
      rw [hfour]
      rintro ⟨⟩
    have hsame := ((hsteps 4 (by decide)).2.1 hother).2 fuel hfuel
    exact (congrArg (fun r => r.1.root?) hsame).trans hfour
  · exact fun fuel p hp => (hdepth fuel).1 p hp

end UnitScript
