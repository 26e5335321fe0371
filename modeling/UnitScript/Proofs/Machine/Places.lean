import UnitScript.Proofs.Machine.Discipline

/-!
# The places of a run

An execution comes from place to place: over an instruction that was carried out, by a jump, into a
scope and out of it, and into a function. Places are sound from a sound start on, and from a sound
place code that has nothing to do with an own cell leaves the cell as it was, whatever it calls.
-/

namespace UnitScript.Machine

open Instruction

/-- An instruction that does not jump, started on `m`, is carried out and leaves `m'`. -/
def Completes (limits : Limits) (i : Instruction) (m m' : Machine) : Prop :=
  i.op.isStep = true ∧ ∃ fuel m₁, countStep limits m = (.ok (), m₁) ∧
    step (invoke limits fun body => exec limits fuel body body) i m₁ = (.ok (), m')

/-- The instructions are carried out one after the other. -/
def Passes (limits : Limits) : List Instruction → Machine → Machine → Prop
  | [], m, m' => m' = m
  | i :: c, m, m' => ∃ m₁, Completes limits i m m₁ ∧ Passes limits c m₁ m'

/-- The places that an execution of `code` started on `start` comes to: at each one `rest` is to be
executed next, and `all` is the block that jumps refer to. A conditional jump may go either way. -/
inductive Visits (limits : Limits) (code : List Instruction) (start : Machine) :
    (all rest : List Instruction) → Machine → Prop where
  | start : Visits limits code start code code start
  | next {all i rest m m'} : Visits limits code start all (i :: rest) m → Completes limits i m m' →
      Visits limits code start all rest m'
  | jump {all i rest rest' m m'} : Visits limits code start all (i :: rest) m →
      i.op.isJump = true → countStep limits m = (.ok (), m') →
      jump all i.target m' = (.ok rest', m') → Visits limits code start all rest' m'
  | pass {all i rest m m'} : Visits limits code start all (i :: rest) m →
      i.op.isJump = true → countStep limits m = (.ok (), m') → Visits limits code start all rest m'
  | enter {all i rest m m'} : Visits limits code start all (i :: rest) m →
      i.op = .scope → countStep limits m = (.ok (), m') →
      Visits limits code start i.children i.children m'
  | leave {all i rest m m₁ m' fuel} : Visits limits code start all (i :: rest) m →
      i.op = .scope → countStep limits m = (.ok (), m₁) →
      exec limits fuel i.children i.children m₁ = (.ok false, m') →
      Visits limits code start all rest m'
  | call {all i rest o m m₁ m₂ name f frame} : Visits limits code start all (i :: rest) m →
      i.op = .call → i.args = [o] → countStep limits m = (.ok (), m₁) →
      callee o m₁ = (.ok name, m₁) → m₁.functions.get? name = some f →
      popParams f.record.name f.record.params.reverse .empty m₁ = (.ok frame, m₂) →
      Visits limits code start f.body f.body { m₂ with frames := frame :: m₂.frames }

variable {own : Name → Prop} {code all rest c d : List Instruction} {i : Instruction}
  {start m m₁ m' : Machine} {limits : Limits} {x : Name}

theorem Completes.kept (h : Completes limits i m m') (hs : Sound own all (i :: rest) m) :
    Kept own m m' ∧ ∀ x, i.declares? = some x → m'.declared x := by
  obtain ⟨hop, fuel, m₁, hc, hstep⟩ := h
  obtain rfl := countStep_eq_ok hc
  have htick := (sameCells_tick m).keeps hs.tame
  have hk := step_keeps (fun _ _ _ hq => hq.kept_exec limits fuel) hs.tick hop
  rw [hstep] at hk
  exact ⟨htick.trans hk, fun x hx => declared_of_step hx hstep⟩

theorem Completes.sound (h : Completes limits i m m') (hs : Sound own all (i :: rest) m) :
    Sound own all rest m' := by
  obtain ⟨hk, hd⟩ := h.kept hs
  exact hs.next hk hd

theorem Visits.sound (h : Visits limits code start all rest m) (hs : Sound own code code start) :
    Sound own all rest m := by
  induction h with
  | start => exact hs
  | next _ hi ih => exact hi.sound ih
  | jump _ hi hc hj ih =>
    obtain rfl := countStep_eq_ok hc
    obtain ⟨⟨k, rfl⟩, -⟩ := jump_eq_ok hj
    exact ih.tick.jump hi k
  | pass _ hi hc ih =>
    obtain rfl := countStep_eq_ok hc
    exact ih.tick.pass hi
  | enter _ hi hc ih =>
    obtain rfl := countStep_eq_ok hc
    exact ih.tick.enter hi
  | @leave _ _ _ _ _ _ fuel _ hi hc hin ih =>
    obtain rfl := countStep_eq_ok hc
    have hk := (ih.tick.enter hi).kept_exec limits fuel
    rw [hin] at hk
    exact ih.tick.leave hi hk
  | call _ _ _ hc _ hf hp ih =>
    obtain rfl := countStep_eq_ok hc
    exact ih.tick.tame.sound hf (popParams_eq_ok hp).functions

theorem Visits.passes (h : Visits limits code start all (c ++ rest) m) (hp : Passes limits c m m') :
    Visits limits code start all rest m' := by
  induction c generalizing m with
  | nil =>
    obtain rfl := hp
    exact h
  | cons i c ih =>
    obtain ⟨m₁, hi, hp⟩ := hp
    exact ih (h.next hi) hp

theorem passes_append : Passes limits (c ++ d) m m' ↔
    ∃ m₁, Passes limits c m m₁ ∧ Passes limits d m₁ m' := by
  induction c generalizing m with
  | nil =>
    constructor
    · exact fun h => ⟨m, rfl, h⟩
    · rintro ⟨m₁, rfl, h⟩
      exact h
  | cons i c ih =>
    constructor
    · rintro ⟨m₁, hi, h⟩
      obtain ⟨m₂, hc, hd⟩ := ih.1 h
      exact ⟨m₂, ⟨m₁, hi, hc⟩, hd⟩
    · rintro ⟨m₂, ⟨m₁, hi, hc⟩, hd⟩
      exact ⟨m₁, hi, ih.2 ⟨m₂, hc, hd⟩⟩

/-- An execution that ends normally has passed through the code that it started with. -/
theorem passes_of_exec {fuel : Nat} {b : Bool} (hc : ∀ i ∈ c, i.op.isStep = true)
    (h : exec limits fuel all (c ++ rest) m = (.ok b, m')) :
    ∃ m₁ fuel', Passes limits c m m₁ ∧ exec limits fuel' all rest m₁ = (.ok b, m') := by
  induction c generalizing m fuel with
  | nil => exact ⟨m, fuel, rfl, h⟩
  | cons i c ih =>
    rw [List.forall_mem_cons] at hc
    cases fuel with
    | zero => cases h
    | succ fuel =>
      have hturn := turn limits fuel all (c ++ rest) i m
      rw [← List.cons_append, h] at hturn
      generalize hr : ((.ok b, m') : Except Stop Bool × Machine) = r at hturn
      cases hturn with
      | refused | unread | astray | failed => cases hr
      | stepped hi hcount hstep =>
        obtain ⟨m₂, fuel', hp, he⟩ := ih hc.2 hr.symm
        exact ⟨m₂, fuel', ⟨_, ⟨hi, fuel, _, hcount, hstep⟩, hp⟩, he.trans hr⟩
      | jumped hi | notJumped hi =>
        rw [not_isStep_of_isJump hi] at hc
        cases hc.1
      | ended hi | passed hi | returned hi =>
        rw [hi] at hc
        cases hc.1

theorem Passes.sound (h : Passes limits c m m') (hs : Sound own all (c ++ rest) m) :
    Sound own all rest m' := by
  induction c generalizing m with
  | nil =>
    obtain rfl := h
    exact hs
  | cons i c ih =>
    obtain ⟨m₁, hi, h⟩ := h
    exact ih h (hi.sound hs)

/-! ## Cells that code leaves alone -/

theorem Completes.frame_get? (h : Completes limits i m m') (hs : Sound own all (i :: rest) m)
    (hi : Spares x i) (hx : own x) : m'.frame.get? x = m.frame.get? x := by
  obtain ⟨-, fuel, m₁, hc, hstep⟩ := h
  obtain rfl := countStep_eq_ok hc
  rw [← (sameCells_tick m).frame]
  rcases hi with hop | ⟨hop, hd, hst⟩
  · have hcall := call_leaves (fun _ _ _ hq => hq.kept_exec limits fuel) hs.tick.tame hop
    rw [hstep] at hcall
    exact hcall.1.frame_get? hx
  · have hchange := cellChange_of_effect? (step_local_eq_ok hop hstep)
    exact hchange.frame_get? hd hst

/-- A call that is started at a sound place leaves all frames and the own cells of the top level as
they were, however it ends. -/
theorem Sound.perform_call (hs : Sound own all (i :: rest) m) (hop : i.op = .call)
    (limits : Limits) (fuel : Nat) : Undisturbed own m (perform limits fuel i m).2 := by
  have hcall := (call_leaves (fun _ _ _ hq => hq.kept_exec limits fuel) hs.tick.tame hop).1
  unfold perform
  rcases countStep_cases limits m with hc | hc
  · rw [Exec.bind_of_error hc]
    exact (sameCells_tick m).undisturbed
  · rw [Exec.bind_of_ok hc, Exec.wrap_eq]
    exact ⟨hcall.frames, hcall.globals, hcall.owned, hcall.data⟩

theorem Passes.frame_get? (h : Passes limits c m m') (hs : Sound own all (c ++ rest) m)
    (hc : ∀ i ∈ c, Spares x i) (hx : own x) : m'.frame.get? x = m.frame.get? x := by
  induction c generalizing m with
  | nil =>
    obtain rfl := h
    rfl
  | cons i c ih =>
    obtain ⟨m₁, hi, h⟩ := h
    rw [ih h (hi.sound hs) fun j hj => hc j (List.mem_cons_of_mem _ hj)]
    exact hi.frame_get? hs (hc i List.mem_cons_self) hx

/-! ## The start of a run -/

theorem registerAll_eq_ok {is : List Instruction} {u : Unit} (ht : m.Tame own)
    (his : ∀ i ∈ is, ClosedFunction own i) (h : registerAll is m = (.ok u, m')) :
    m'.Tame own := by
  induction is generalizing m with
  | nil =>
    cases h
    exact ht
  | cons i rest ih =>
    rw [List.forall_mem_cons] at his
    rw [registerAll] at h
    by_cases hop : i.op = .func
    · rw [if_pos hop] at h
      obtain ⟨_, m₁, hreg, h₁⟩ := Exec.bind_eq_ok h
      obtain ⟨record, body, hrecord, hbody, rfl⟩ := register_eq_ok hreg
      exact ih (ht.insert (his.1 hop record body hrecord hbody)) his.2 h₁
    · rw [if_neg hop] at h
      exact ih ht his.2 h

theorem sound_start {u : Unit} (ht : m.Tame own) (hcode : Closed own code)
    (h : registerAll (walkAll code) m.restart = (.ok u, m')) : Sound own code code m' := by
  have htame : m'.Tame own := registerAll_eq_ok (m := m.restart) ht hcode.2.functions h
  exact ⟨htame, hcode.2.mono fun _ hx => hx.elim, .inl hcode.1⟩

end UnitScript.Machine
