/-!
# Computations that carry a state and may fail

Readers and the compiler are computations of this kind, and the writers are those without a state.
A computation made of two parts succeeds just when both parts do; the lemmas take a success apart
into those of the parts.
-/

namespace UnitScript

variable {σ ε α β : Type} {t s : σ}

theorem ok_bind {x : Except ε α} {f : α → Except ε β} {b : β} :
    (x >>= f) = .ok b ↔ ∃ a, x = .ok a ∧ f a = .ok b := by
  cases x <;> simp [bind, Except.bind]

theorem ok_return {a b : α} : (pure a : Except ε α) = .ok b ↔ a = b := by
  change Except.ok a = Except.ok b ↔ _
  simp

theorem eq_ok_of_isOk {x : Except ε α} (h : x.isOk = true) (d : α) : x = .ok (x.toOption.getD d) := by
  cases x with
  | ok a => rfl
  | error e => cases h

theorem bind_eq_ok {x : StateT σ (Except ε) α} {f : α → StateT σ (Except ε) β} {b : β} :
    (x >>= f) s = .ok (b, t) ↔ ∃ a u, x s = .ok (a, u) ∧ f a u = .ok (b, t) := by
  change (x s >>= fun p => f p.1 p.2) = _ ↔ _
  cases hx : x s with
  | error e => simp [bind, Except.bind]
  | ok p =>
    obtain ⟨a, u⟩ := p
    simp only [bind, Except.bind, Except.ok.injEq, Prod.mk.injEq]
    constructor
    · intro h
      exact ⟨a, u, ⟨rfl, rfl⟩, h⟩
    · rintro ⟨_, _, ⟨rfl, rfl⟩, h⟩
      exact h

theorem pure_eq_ok {a b : α} : (pure a : StateT σ (Except ε) α) s = .ok (b, t) ↔ a = b ∧ s = t := by
  change Except.ok (a, s) = Except.ok (b, t) ↔ _
  simp

theorem throw_ne_ok {e : ε} {b : α} : (throw e : StateT σ (Except ε) α) s ≠ .ok (b, t) := by
  change Except.error e ≠ Except.ok (b, t)
  simp

theorem get_eq_ok {a : σ} : (get : StateT σ (Except ε) σ) s = .ok (a, t) ↔ a = s ∧ t = s := by
  change Except.ok (s, s) = Except.ok (a, t) ↔ _
  simp [eq_comm]

theorem set_eq_ok {u : σ} {x : PUnit} :
    (set u : StateT σ (Except ε) PUnit) s = .ok (x, t) ↔ t = u := by
  change Except.ok (PUnit.unit, u) = Except.ok (x, t) ↔ _
  simp [eq_comm]

theorem modify_eq_ok {g : σ → σ} {x : PUnit} :
    (modify g : StateT σ (Except ε) PUnit) s = .ok (x, t) ↔ t = g s := by
  change Except.ok (PUnit.unit, g s) = Except.ok (x, t) ↔ _
  simp [eq_comm]

theorem map_eq_ok {g : α → β} {x : StateT σ (Except ε) α} {b : β} :
    (g <$> x) s = .ok (b, t) ↔ ∃ a, x s = .ok (a, t) ∧ b = g a := by
  change (x s >>= fun p => pure (g p.1, p.2)) = _ ↔ _
  cases hx : x s with
  | error e => simp [bind, Except.bind]
  | ok p =>
    obtain ⟨a, u⟩ := p
    simp only [bind, Except.bind, pure, Except.pure, Except.ok.injEq, Prod.mk.injEq]
    constructor
    · rintro ⟨rfl, rfl⟩
      exact ⟨a, ⟨rfl, rfl⟩, rfl⟩
    · rintro ⟨_, ⟨rfl, rfl⟩, rfl⟩
      exact ⟨rfl, rfl⟩

end UnitScript
