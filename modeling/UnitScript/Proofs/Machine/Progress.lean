import UnitScript.Proofs.Machine.Cells

/-!
# How a computation of the machine came about

What a computation that succeeded says about its parts: one lemma for each function of the machine
that an execution is made of.
-/

namespace UnitScript

namespace Exec

variable {α β : Type} {x : Exec α} {f : α → Exec β} {m m' : Machine} {b : β}

theorem bind_eq_ok (h : (x >>= f) m = (.ok b, m')) :
    ∃ a m₁, x m = (.ok a, m₁) ∧ f a m₁ = (.ok b, m') := by
  cases hx : x m with
  | mk r m₁ =>
    cases r with
    | ok a => exact ⟨a, m₁, rfl, by rwa [bind_of_ok hx] at h⟩
    | error e =>
      rw [bind_of_error hx] at h
      cases h

theorem wrap_eq_ok {place : RunError → RunError} {a : α} (h : wrap place x m = (.ok a, m')) :
    x m = (.ok a, m') := by
  unfold wrap at h
  split at h
  · cases h
  · exact h

theorem fail_ne_ok {fault : Fault} {a : α} : (fail fault : Exec α) m ≠ (.ok a, m') := by
  intro h
  cases h

end Exec

namespace Machine

variable {m m' : Machine} {limits : Limits} {i : Instruction}
  {run : Function → Exec Unit} {u : Unit}

theorem load_eq_ok {o : Operand} {v : Value} (h : load o m = (.ok v, m')) :
    m.value? o = some v ∧ m' = m := by
  cases hv : m.value? o with
  | none =>
    obtain ⟨f, -, hload⟩ := load_eq_error hv
    rw [hload] at h
    cases h
  | some w =>
    rw [load_of_some hv] at h
    cases h
    exact ⟨rfl, rfl⟩

theorem register_eq_ok {func : Option FunctionRecord} (h : register func m = (.ok u, m')) :
    ∃ record body, func = some record ∧ Decoding.runCode record.body = .ok body ∧
      m' = { m with functions := m.functions.insert record.name ⟨record, body⟩ } := by
  cases func with
  | none => exact absurd h Exec.fail_ne_ok
  | some record =>
    unfold register at h
    cases hb : Decoding.runCode record.body with
    | error e =>
      simp only [hb] at h
      exact absurd h Exec.fail_ne_ok
    | ok body =>
      simp only [hb] at h
      cases h
      exact ⟨record, body, rfl, hb, rfl⟩

theorem step_of_func (hop : i.op = .func) : step run i m = register i.func m := by
  obtain ⟨op⟩ := i
  subst hop
  rfl

theorem step_func_eq_ok (hop : i.op = .func) (h : step run i m = (.ok u, m')) :
    ∃ record body, i.func = some record ∧ Decoding.runCode record.body = .ok body ∧
      m' = { m with functions := m.functions.insert record.name ⟨record, body⟩ } := by
  rw [step_of_func hop] at h
  exact register_eq_ok h

theorem step_local_eq_ok (hop : i.op.isLocal = true)
    (h : step run i m = (.ok u, m')) : m.effect? i = some m' := by
  have hd := does_step run m i hop
  cases he : m.effect? i with
  | none =>
    rw [he] at hd
    obtain ⟨f, m₁, hf, -⟩ := hd
    rw [hf] at h
    cases h
  | some m₁ =>
    rw [he] at hd
    rw [hd.1] at h
    cases h
    rfl

theorem countStep_eq_ok (h : countStep limits m = (.ok u, m')) : m' = m.tick := by
  by_cases ha : limits.Allows m
  · rw [countStep_of_allowed ha] at h
    cases h
    rfl
  · rw [countStep_of_not_allowed ha] at h
    cases h

theorem jump_eq_ok {all rest : List Instruction} {t : Int} (h : jump all t m = (.ok rest, m')) :
    (∃ k, rest = all.drop k) ∧ m' = m := by
  unfold jump at h
  split at h
  · exact absurd h Exec.fail_ne_ok
  · cases h
    exact ⟨⟨_, rfl⟩, rfl⟩

end Machine

end UnitScript
