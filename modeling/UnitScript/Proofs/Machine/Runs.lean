import UnitScript.Proofs.Machine.Continuity

/-!
# Runs one after the other

A machine can run its unit again and again; the functions, the heap and the console stay from one run
to the next. At every place that one of the runs comes to, the data are those of the unit, and the
functions of the machine are functions of the unit or stand in the body of one.
-/

namespace UnitScript

def Stop.ending : Stop → Ending
  | error e => .error e
  | outOfFuel => .outOfFuel

namespace Machine

open Instruction

variable {u : CodeUnit} {m m' start : Machine} {limits : Limits} {fuel : Nat} {Q : Function → Prop}
  {code all rest : List Instruction}

/-- What a run comes to: a function of the unit cannot be registered, or the code is executed. -/
inductive RunCase (fuel : Nat) (limits : Limits) (u : CodeUnit) (m : Machine) :
    Ending × Machine → Prop where
  | unregistered {s} {m' : Machine} :
      registerAll (walkAll u.code) m.restart = (.error s, m') →
      RunCase fuel limits u m (s.ending, m')
  | stopped {s} {start m' : Machine} :
      registerAll (walkAll u.code) m.restart = (.ok (), start) →
      exec limits fuel u.code u.code start = (.error s, m') →
      RunCase fuel limits u m (s.ending, m')
  | ended {b} {start m' : Machine} :
      registerAll (walkAll u.code) m.restart = (.ok (), start) →
      exec limits fuel u.code u.code start = (.ok b, m') →
      RunCase fuel limits u m (.value m'.result, m')

def concluded (r : Except Stop Bool × Machine) : Ending × Machine :=
  match r.1 with
  | .ok _ => (.value r.2.result, r.2)
  | .error s => (s.ending, r.2)

theorem runWithin_of_registered (h : registerAll (walkAll u.code) m.restart = (.ok (), start)) :
    runWithin fuel limits u m = concluded (exec limits fuel u.code u.code start) := by
  simp only [runWithin]
  rw [Exec.bind_of_ok h]
  cases hexec : exec limits fuel u.code u.code start with
  | mk r m' =>
    cases r with
    | error s =>
      rw [Exec.bind_of_error hexec]
      cases s <;> rfl
    | ok b =>
      rw [Exec.bind_of_ok hexec]
      rfl

theorem runWithin_of_unregistered {s : Stop}
    (h : registerAll (walkAll u.code) m.restart = (.error s, m')) :
    runWithin fuel limits u m = (s.ending, m') := by
  simp only [runWithin]
  rw [Exec.bind_of_error h]
  cases s <;> rfl

theorem runCase (fuel : Nat) (limits : Limits) (u : CodeUnit) (m : Machine) :
    RunCase fuel limits u m (runWithin fuel limits u m) := by
  cases hreg : registerAll (walkAll u.code) m.restart with
  | mk r start =>
    cases r with
    | error s =>
      rw [runWithin_of_unregistered hreg]
      exact .unregistered hreg
    | ok _ =>
      rw [runWithin_of_registered hreg]
      cases hexec : exec limits fuel u.code u.code start with
      | mk r m' =>
        cases r with
        | error s => exact .stopped hreg hexec
        | ok b => exact .ended hreg hexec

/-! ## Registering the functions of a unit -/

theorem stocked_register {i : Instruction} (hi : Supplied Q i) (hop : i.op = .func)
    (hm : m.Stocked Q) : (register i.func m).2.Stocked Q := by
  have hcase : StepCase (fun _ => pure ()) i m (register i.func m) := by
    rw [← step_of_func hop]
    exact stepCase_func hop
  generalize register i.func m = r at hcase ⊢
  cases hcase with
  | failed _ hsame => exact hm.of_functions hsame.functions
  | registered hfunc hrecord hbody => exact hm.insert (hi hfunc _ _ hrecord hbody)
  | done hlocal =>
    rw [hop] at hlocal
    cases hlocal
  | called hcall | lent hcall =>
    rw [hop] at hcall
    cases hcall

theorem stocked_registerAll {is : List Instruction} (his : ∀ i ∈ is, Supplied Q i)
    (hm : m.Stocked Q) : (registerAll is m).2.Stocked Q := by
  induction is generalizing m with
  | nil => exact hm
  | cons i rest ih =>
    rw [List.forall_mem_cons] at his
    rw [registerAll]
    split
    · next hop =>
      have hreg := stocked_register his.1 hop hm
      rcases Exec.bind_cases (register i.func) (fun _ => registerAll rest) m with
        ⟨s, m₁, hr, hbind⟩ | ⟨_, m₁, hr, hbind⟩
      · rw [hr] at hreg
        rw [hbind]
        exact hreg
      · rw [hr] at hreg
        rw [hbind]
        exact ih his.2 hreg
    · exact ih his.2 hm

theorem registerAll_of_isOk {is : List Instruction} (h : (registerAll is m).1.isOk = true) :
    registerAll is m = (.ok (), (registerAll is m).2) := by
  generalize registerAll is m = r at h ⊢
  obtain ⟨result, m'⟩ := r
  cases result with
  | ok _ => rfl
  | error _ => cases h

theorem register_state (record : Option FunctionRecord) (m : Machine) :
    (register record m).2 = { m with functions := (register record m).2.functions } := by
  cases record with
  | none => rfl
  | some record =>
    simp only [register]
    cases Decoding.runCode record.body <;> rfl

theorem registerAll_state (is : List Instruction) (m : Machine) :
    (registerAll is m).2 = { m with functions := (registerAll is m).2.functions } := by
  induction is generalizing m with
  | nil => rfl
  | cons i rest ih =>
    rw [registerAll]
    split
    · have hreg := register_state i.func m
      rcases Exec.bind_cases (register i.func) (fun _ => registerAll rest) m with
        ⟨s, m₁, hr, hbind⟩ | ⟨_, m₁, hr, hbind⟩
      · rw [hr] at hreg
        rw [hbind]
        exact hreg
      · obtain ⟨functions, rfl⟩ : ∃ functions, m₁ = { m with functions := functions } := by
          rw [hr] at hreg
          exact ⟨m₁.functions, hreg⟩
        rw [hbind]
        exact ih _
    · exact ih m

theorem registerAll_eq {is : List Instruction} {r : Except Stop Unit}
    (h : registerAll is m = (r, m')) : m' = { m with functions := m'.functions } := by
  have hstate := registerAll_state is m
  rwa [h] at hstate

/-! ## Machines that a unit is run on -/

/-- The machines that a unit is run on: a new one, or one that has run it before, to whatever end. -/
inductive Serves (u : CodeUnit) : Machine → Prop where
  | new (console : Option Console) : Serves u (ofUnit u console)
  | again {m : Machine} (fuel : Nat) (limits : Limits) : Serves u m →
      Serves u (runWithin fuel limits u m).2

/-- What a new machine has and every part of a run keeps is had by all machines that serve. -/
theorem Serves.invariant {P : Machine → Prop} (hnew : ∀ console, P (ofUnit u console))
    (hreg : ∀ m, P m → P (registerAll (walkAll u.code) m.restart).2)
    (hexec : ∀ limits fuel m, P m → P (exec limits fuel u.code u.code m).2)
    (h : Serves u m) : P m := by
  induction h with
  | new console => exact hnew console
  | @again m fuel limits _ ih =>
    have hstart := hreg m ih
    have hcase := runCase fuel limits u m
    generalize runWithin fuel limits u m = r at hcase ⊢
    cases hcase with
    | unregistered hr =>
      rw [hr] at hstart
      exact hstart
    | @stopped _ start _ hr he | @ended _ start _ hr he =>
      rw [hr] at hstart
      have hend := hexec limits fuel start hstart
      rw [he] at hend
      exact hend

theorem Serves.stocked (hQ : ∀ f, Q f → Supplies Q f.body) (hcode : Supplies Q u.code)
    (h : Serves u m) : m.Stocked Q := by
  apply h.invariant
  · intro console name f hf
    cases hf
  · exact fun m hm => stocked_registerAll (m := m.restart) hcode hm
  · exact fun limits fuel m hm => (maintained_exec hQ limits fuel hcode hcode hm).stocked

theorem Serves.stocked_start (hQ : ∀ f, Q f → Supplies Q f.body) (hcode : Supplies Q u.code)
    (h : Serves u m) (hstart : registerAll (walkAll u.code) m.restart = (.ok (), start)) :
    start.Stocked Q := by
  have hstocked := h.stocked hQ hcode
  have hregistered := stocked_registerAll (m := m.restart) hcode hstocked
  rwa [hstart] at hregistered

theorem Serves.data (h : Serves u m) :
    m.data = NameMap.ofList (u.data.map fun d => (d.name, d.value)) := by
  apply h.invariant (P := fun m => m.data = NameMap.ofList (u.data.map fun d => (d.name, d.value)))
  · exact fun console => rfl
  · intro m hm
    rw [registerAll_state]
    exact hm
  · exact fun limits fuel m hm => (cellsKept_exec limits fuel _ _ m).data.trans hm

/-! ## Places -/

theorem Completes.maintained (hQ : ∀ f, Q f → Supplies Q f.body) {i : Instruction}
    (h : Completes limits i m m') (hi : Supplied Q i) (hm : m.Stocked Q) : Maintained Q m m' := by
  obtain ⟨hop, fuel, m₁, hc, hstep⟩ := h
  obtain rfl := countStep_eq_ok hc
  have htick : Maintained Q m m.tick := (sameCells_tick m).maintained hm
  have hrun : ∀ all rest m, Supplies Q all → Supplies Q rest → m.Stocked Q →
      Maintained Q m (exec limits fuel all rest m).2 :=
    fun _ _ _ ha hr hm => maintained_exec hQ limits fuel ha hr hm
  have hkept := maintained_step hQ hrun hi hop htick.stocked
  rw [hstep] at hkept
  exact htick.trans hkept

end Machine

/-- A run of the unit on a machine comes to a place: `rest` is to be executed next, and `all` is the
block that jumps refer to. -/
def CodeUnit.RunsInto (u : CodeUnit) (limits : Limits) (m₀ : Machine)
    (all rest : List Instruction) (m : Machine) : Prop :=
  ∃ start, Machine.registerAll (Instruction.walkAll u.code) m₀.restart = (.ok (), start) ∧
    Machine.Visits limits u.code start all rest m

end UnitScript
