import UnitScript.Proofs.Machine.Runs

/-!
# Wider bounds

Three bounds watch over an execution: the limit on the steps, the limit on the depth of calls, and the
bound on the length of the computation. A bound does nothing but cut an execution short. So an
execution that is not cut short by a bound goes the same way when the bound is wider, to the same
result and the same state.
-/

namespace UnitScript

def Stop.root : Stop → Stop
  | error e => error e.root
  | outOfFuel => outOfFuel

theorem Stop.root_during (s : Stop) (i : Instruction) : (s.amid (.during i)).root = s.root := by
  cases s <;> rfl

theorem Stop.root_within (s : Stop) (f : Name) : (s.amid (.within f)).root = s.root := by
  cases s <;> rfl

namespace Machine

variable {α β : Type} {cut : Stop → Prop} {limits limits' : Limits} {act act' : Exec α}
  {k k' : α → Exec β} {m : Machine} {i : Instruction}

/-- The computation stops for one of the reasons. -/
def IsCut (cut : Stop → Prop) (r : Except Stop α × Machine) : Prop :=
  ∃ s, r.1 = .error s ∧ cut s.root

/-- Unless the first computation stops for one of the reasons, the second is the same. -/
def Repeats (cut : Stop → Prop) (act act' : Exec α) : Prop :=
  ∀ m, IsCut cut (act m) ∨ act' m = act m

/-! ## Computations put together -/

theorem Repeats.refl (cut : Stop → Prop) (act : Exec α) : Repeats cut act act := fun _ => .inr rfl

theorem Repeats.bind (h : Repeats cut act act') (hk : ∀ a, Repeats cut (k a) (k' a)) :
    Repeats cut (act >>= k) (act' >>= k') := by
  intro m
  cases hr : act m with
  | mk r m₁ =>
    rcases h m with hcut | hsame
    · obtain ⟨s, hs, hcut⟩ := hcut
      rw [hr] at hs
      have hr' : act m = (.error s, m₁) := hr.trans (Prod.ext hs rfl)
      rw [Exec.bind_of_error hr']
      exact .inl ⟨s, rfl, hcut⟩
    · rw [hr] at hsame
      cases r with
      | error s =>
        rw [Exec.bind_of_error hr, Exec.bind_of_error hsame]
        exact .inr rfl
      | ok a =>
        rw [Exec.bind_of_ok hr, Exec.bind_of_ok hsame]
        exact hk a m₁

/-- The place that an error gets does not hide its reason. -/
theorem Repeats.wrap (h : Repeats cut act act') {place : RunError → RunError}
    (hplace : ∀ s : Stop, (s.amid place).root = s.root) :
    Repeats cut (Exec.wrap place act) (Exec.wrap place act') := by
  intro m
  rw [Exec.wrap_eq, Exec.wrap_eq]
  rcases h m with ⟨s, hs, hcut⟩ | hsame
  · refine .inl ⟨s.amid place, ?_, ?_⟩
    · rw [hs]
      rfl
    · rwa [hplace]
  · rw [hsame]
    exact .inr rfl

/-! ## Limits -/

/-- Limits that are wider at most where a run of the narrower ones stops for one of the reasons. -/
structure Wider (cut : Stop → Prop) (limits limits' : Limits) : Prop where
  steps : limits'.steps = limits.steps ∨ cut (.error .stepBudget) ∧
    (limits'.steps ≤ 0 ∨ 0 < limits.steps ∧ limits.steps ≤ limits'.steps)
  depth : limits'.maxDepth = limits.maxDepth ∨ (∀ n, cut (.error (.callDepth n))) ∧
    limits.maxDepth ≤ limits'.maxDepth

theorem Wider.refl (cut : Stop → Prop) (limits : Limits) : Wider cut limits limits :=
  ⟨.inl rfl, .inl rfl⟩

theorem Wider.maxDepth_le (h : Wider cut limits limits') : limits.maxDepth ≤ limits'.maxDepth := by
  rcases h.depth with heq | ⟨-, hle⟩
  · exact Nat.le_of_eq heq.symm
  · exact hle

theorem Wider.allows (h : Wider cut limits limits') (ha : limits.Allows m) : limits'.Allows m := by
  unfold Limits.Allows at ha ⊢
  rcases h.steps with heq | ⟨-, hfree | hle⟩
  · rwa [heq]
  · omega
  · omega

theorem repeats_countStep (h : Wider cut limits limits') :
    Repeats cut (countStep limits) (countStep limits') := by
  intro m
  by_cases ha : limits.Allows m
  · rw [countStep_of_allowed ha, countStep_of_allowed (h.allows ha)]
    exact .inr rfl
  · rcases h.steps with heq | ⟨hcut, -⟩
    · right
      unfold countStep
      rw [heq]
    · rw [countStep_of_not_allowed ha]
      exact .inl ⟨_, rfl, hcut⟩

/-! ## Instructions -/

theorem repeats_inFrame {body body' : Exec Bool} (h : Repeats cut body body') (function : Name)
    (frame : Frame) : Repeats cut (inFrame body function frame) (inFrame body' function frame) := by
  intro m
  cases hr : body { m with frames := frame :: m.frames } with
  | mk r m₁ =>
    rcases h { m with frames := frame :: m.frames } with ⟨s, hs, hcut⟩ | hsame
    · rw [hr] at hs
      rw [inFrame_eq hr]
      refine .inl ⟨s.amid (.within function), ?_, ?_⟩
      · rw [show r = .error s from hs]
        rfl
      · rwa [Stop.root_within]
    · rw [hr] at hsame
      rw [inFrame_eq hr, inFrame_eq hsame]
      exact .inr rfl

theorem repeats_invoke (h : Wider cut limits limits') {body body' : List Instruction → Exec Bool}
    (hbody : ∀ c, Repeats cut (body c) (body' c)) (f : Function) :
    Repeats cut (invoke limits body f) (invoke limits' body' f) := by
  have hrun : Repeats cut
      (popParams f.record.name f.record.params.reverse .empty >>=
        inFrame (body f.body) f.record.name)
      (popParams f.record.name f.record.params.reverse .empty >>=
        inFrame (body' f.body) f.record.name) :=
    (Repeats.refl cut _).bind fun frame => repeats_inFrame (hbody f.body) _ frame
  intro m
  unfold invoke
  rw [Exec.get_bind, Exec.get_bind]
  by_cases hdeep : limits.maxDepth < m.frameCount
  · rw [if_pos hdeep]
    rcases h.depth with heq | ⟨hcut, -⟩
    · rw [if_pos (by rwa [heq])]
      exact .inr rfl
    · exact .inl ⟨_, rfl, hcut m.frameCount⟩
  · have hdeep' : ¬limits'.maxDepth < m.frameCount := by
      have := h.maxDepth_le
      omega
    rw [if_neg hdeep, if_neg hdeep']
    exact hrun m

theorem step_of_ne_call (run run' : Function → Exec Unit) (hop : i.op ≠ .call) :
    step run i = step run' i := by
  obtain ⟨op, args, storage, relation, target, children, func⟩ := i
  cases op with
  | call => exact absurd rfl hop
  | var =>
    match args with
    | [o] => cases o <;> rfl
    | [] => rfl
    | o :: _ :: _ => cases o <;> rfl
  | push | pop =>
    match args with
    | [] | [_] | _ :: _ :: _ => rfl
  | mov | alloc | deref =>
    match args with
    | [] | [_] | [_, _] | _ :: _ :: _ :: _ => rfl
  | add | sub | mul | div | cmp | pmov =>
    match args with
    | [] | [_] | [_, _] | [_, _, _] | _ :: _ :: _ :: _ :: _ => rfl
  | nop | func | ret | jeq | jne | jmp | scope | unknown => rfl

theorem repeats_step {run run' : Function → Exec Unit} (h : ∀ f, Repeats cut (run f) (run' f))
    (i : Instruction) : Repeats cut (step run i) (step run' i) := by
  by_cases hop : i.op = .call
  · obtain ⟨op, args⟩ := i
    subst hop
    match args with
    | [o] =>
      apply (Repeats.refl cut (callee o)).bind
      intro name m
      rw [Exec.get_bind, Exec.get_bind]
      cases m.functions.get? name with
      | some f => exact h f m
      | none => exact .inr rfl
    | [] | _ :: _ :: _ => exact .refl cut _
  · rw [step_of_ne_call run run' hop]
    exact .refl cut _

theorem repeats_exec (h : Wider cut limits limits') {fuel fuel' : Nat} (hfuel : fuel ≤ fuel')
    (hcut : fuel < fuel' → cut .outOfFuel) (all rest : List Instruction) :
    Repeats cut (exec limits fuel all rest) (exec limits' fuel' all rest) := by
  induction fuel generalizing fuel' all rest with
  | zero =>
    cases rest with
    | nil =>
      intro m
      rw [exec_nil, exec_nil]
      exact .inr rfl
    | cons i rest =>
      intro m
      cases fuel' with
      | zero => exact .inr rfl
      | succ fuel' => exact .inl ⟨_, rfl, hcut (Nat.succ_pos fuel')⟩
  | succ fuel ih =>
    obtain ⟨fuel', rfl⟩ : ∃ n, fuel' = n + 1 := ⟨fuel' - 1, by omega⟩
    have ih' : ∀ all rest, Repeats cut (exec limits fuel all rest) (exec limits' fuel' all rest) :=
      fun all rest => ih (Nat.le_of_succ_le_succ hfuel) (fun hlt => hcut (Nat.succ_lt_succ hlt)) all rest
    cases rest with
    | nil =>
      intro m
      rw [exec_nil, exec_nil]
      exact .inr rfl
    | cons i rest =>
      have hjump : Repeats cut (jump all i.target >>= fun rest' => exec limits fuel all rest')
          (jump all i.target >>= fun rest' => exec limits' fuel' all rest') :=
        (Repeats.refl cut _).bind fun rest' => ih' all rest'
      have hinvoke := repeats_invoke h fun body => ih' body body
      rw [exec, exec]
      apply (repeats_countStep h).bind
      intro _
      cases hop : i.op with
      | jmp => exact hjump
      | jeq | jne =>
        apply (Repeats.refl cut (compared i)).bind
        intro p
        simp only
        split
        · exact hjump
        · exact ih' all rest
      | scope =>
        apply (ih' i.children i.children).bind
        intro returned
        cases returned with
        | true => exact .refl cut (pure true)
        | false => exact ih' all rest
      | ret => exact .refl cut _
      | nop | var | mov | add | sub | mul | div | cmp | alloc | pmov | deref | push | pop | call
      | func | unknown =>
        apply ((repeats_step hinvoke i).wrap fun s => s.root_during i).bind
        exact fun _ => ih' all rest

/-! ## Runs -/

theorem runWithin_of_wider (h : Wider cut limits limits') {fuel fuel' : Nat} (hfuel : fuel ≤ fuel')
    (hcut : fuel < fuel' → cut .outOfFuel) (u : CodeUnit) (m : Machine) :
    (∃ s : Stop, (runWithin fuel limits u m).1 = s.ending ∧ cut s.root) ∨
      runWithin fuel' limits' u m = runWithin fuel limits u m := by
  cases hreg : registerAll (Instruction.walkAll u.code) m.restart with
  | mk r start =>
    cases r with
    | error s =>
      rw [runWithin_of_unregistered hreg, runWithin_of_unregistered hreg]
      exact .inr rfl
    | ok _ =>
      rw [runWithin_of_registered hreg, runWithin_of_registered hreg]
      rcases repeats_exec h hfuel hcut u.code u.code start with ⟨s, hs, hcut⟩ | hsame
      · refine .inl ⟨s, ?_, hcut⟩
        simp only [concluded, hs]
      · rw [hsame]
        exact .inr rfl

end Machine

end UnitScript
