import UnitScript.Proofs.Machine.Operations
import UnitScript.Proofs.Machine.Outcome

/-!
# Calls see no frame of their callers

Code reads and writes the cells of its own frame and those of the top level. A computation within a
call is confined: the frames of the callers stay as they are, and the outcome does not depend on what
is in them. A call as a whole is isolated from every frame below the top level, because it runs in a
frame of its own that is taken away again, whether it succeeds or fails.
-/

namespace UnitScript.Machine

variable {α β α' : Type} {g : α → α'} {act : Exec α} {act' : Exec α'} {k : α → Exec β}
  {limits : Limits}

/-- Within a call, the frames of the callers stay as they are, and with other cells in them the
computation goes the same way. -/
def Confined (act : Exec α) : Prop :=
  ∀ (m : Machine) (f : Frame) (outer outer' : List Frame), m.frames = f :: outer →
    outer'.length = outer.length → ∃ f', (act m).2.frames = f' :: outer ∧
      act { m with frames := f :: outer' } = ((act m).1, { (act m).2 with frames := f' :: outer' })

/-- All frames stay as they are, and with other cells in them the computation goes the same way. -/
def Isolated (act : Exec α) : Prop :=
  ∀ (m : Machine) (frames : List Frame), frames.length = m.frames.length →
    (act m).2.frames = m.frames ∧
      act { m with frames := frames } = ((act m).1, { (act m).2 with frames := frames })

theorem Isolated.confined (h : Isolated act) : Confined act := by
  intro m f outer outer' hm hlen
  have hall : (f :: outer').length = m.frames.length := by
    rw [hm, List.length_cons, List.length_cons, hlen]
  have hi := h m (f :: outer') hall
  exact ⟨f, hi.1.trans hm, hi.2⟩

/-! ## Computations put together -/

theorem isolated_pure (a : α) : Isolated (pure a : Exec α) := fun _ _ _ => ⟨rfl, rfl⟩

theorem isolated_throw (s : Stop) : Isolated (throw s : Exec α) := fun _ _ _ => ⟨rfl, rfl⟩

theorem isolated_fail (f : Fault) : Isolated (Exec.fail f : Exec α) := isolated_throw _

theorem Isolated.bind (h : Isolated act) (hk : ∀ a, Isolated (k a)) : Isolated (act >>= k) := by
  intro m frames hlen
  have hact := h m frames hlen
  cases hr : act m with
  | mk r m₁ =>
    rw [hr] at hact
    have hlen₁ : frames.length = m₁.frames.length := by rw [hact.1, hlen]
    cases r with
    | error e =>
      rw [Exec.bind_of_error hr, Exec.bind_of_error hact.2]
      exact ⟨hact.1, rfl⟩
    | ok a =>
      rw [Exec.bind_of_ok hr, Exec.bind_of_ok hact.2]
      have hrest := hk a m₁ frames hlen₁
      exact ⟨hrest.1.trans hact.1, hrest.2⟩

theorem Confined.bind (h : Confined act) (hk : ∀ a, Confined (k a)) : Confined (act >>= k) := by
  intro m f outer outer' hm hlen
  obtain ⟨f₁, hframes, hact⟩ := h m f outer outer' hm hlen
  cases hr : act m with
  | mk r m₁ =>
    rw [hr] at hframes hact
    cases r with
    | error e =>
      rw [Exec.bind_of_error hr, Exec.bind_of_error hact]
      exact ⟨f₁, hframes, rfl⟩
    | ok a =>
      rw [Exec.bind_of_ok hr, Exec.bind_of_ok hact]
      exact hk a m₁ f₁ outer outer' hframes hlen

theorem Isolated.wrap (h : Isolated act) (place : RunError → RunError) :
    Isolated (Exec.wrap place act) := by
  intro m frames hlen
  have hact := h m frames hlen
  rw [Exec.wrap_eq, Exec.wrap_eq, hact.2]
  exact ⟨hact.1, rfl⟩

theorem Confined.wrap (h : Confined act) (place : RunError → RunError) :
    Confined (Exec.wrap place act) := by
  intro m f outer outer' hm hlen
  obtain ⟨f₁, hframes, hact⟩ := h m f outer outer' hm hlen
  refine ⟨f₁, ?_⟩
  rw [Exec.wrap_eq, Exec.wrap_eq, hact]
  exact ⟨hframes, rfl⟩

theorem Isolated.get_bind {k : Machine → Exec α} (hk : ∀ m, Isolated (k m))
    (h : ∀ (m : Machine) frames, frames.length = m.frames.length →
      k { m with frames := frames } = k m) : Isolated ((get : Exec Machine) >>= k) := by
  intro m frames hlen
  rw [Exec.get_bind, Exec.get_bind, h m frames hlen]
  exact hk m m frames hlen

theorem Confined.get_bind {k : Machine → Exec α} (hk : ∀ m, Confined (k m))
    (h : ∀ (m : Machine) f outer outer', m.frames = f :: outer →
      k { m with frames := f :: outer' } = k m) : Confined ((get : Exec Machine) >>= k) := by
  intro m f outer outer' hm hlen
  rw [Exec.get_bind, Exec.get_bind, h m f outer outer' hm]
  exact hk m m f outer outer' hm hlen

theorem isolated_modify {g : Machine → Machine} (hg : ∀ m, (g m).frames = m.frames)
    (h : ∀ (m : Machine) frames, frames.length = m.frames.length →
      g { m with frames := frames } = { g m with frames := frames }) :
    Isolated (modify g : Exec PUnit) := by
  intro m frames hlen
  refine ⟨hg m, ?_⟩
  change (Except.ok (), g { m with frames := frames }) = _
  rw [h m frames hlen]
  rfl

/-! ## Stack, heap and console -/

theorem isolated_push (v : Value) : Isolated (push v) :=
  isolated_modify (fun _ => rfl) fun _ _ _ => rfl

theorem isolated_pop? : Isolated pop? := by
  apply Isolated.get_bind
  · intro m
    cases m.stack with
    | nil => exact isolated_pure _
    | cons v rest =>
      apply Isolated.bind
      · exact isolated_modify (fun _ => rfl) fun _ _ _ => rfl
      · exact fun _ => isolated_pure _
  · intro m frames _
    rfl

theorem Composed.isolated (h : Composed #[] (fun _ => False) (fun _ => False) g act act') :
    Isolated act := by
  induction h with
  | pure a => exact isolated_pure a
  | fail f => exact isolated_fail f
  | bind _ _ hx hk => exact hx.bind hk
  | load ho | storeTo _ ho | declare _ ho => exact ho.elim
  | push v => exact isolated_push v
  | pop => exact isolated_pop?
  | heap | builtin => exact fun _ _ _ => ⟨rfl, rfl⟩
  | reading _ hk => exact Isolated.get_bind (fun m => hk m.heap) fun _ _ _ => rfl

theorem isolated_register (record : Option FunctionRecord) : Isolated (register record) := by
  cases record with
  | none => exact isolated_fail _
  | some record =>
    unfold register
    simp only
    split
    · exact isolated_fail _
    · exact isolated_modify (fun _ => rfl) fun _ _ _ => rfl

theorem isolated_countStep (limits : Limits) : Isolated (countStep limits) := by
  apply Isolated.bind
  · exact isolated_modify (fun _ => rfl) fun _ _ _ => rfl
  · intro _
    apply Isolated.get_bind
    · intro m
      split
      · exact isolated_throw _
      · exact isolated_pure _
    · intro m frames _
      rfl

/-! ## Cells -/

section Cells

variable {m : Machine} {f : Frame} {outer outer' : List Frame}

theorem lookup?_outer (hm : m.frames = f :: outer) (name : Name) :
    ({ m with frames := f :: outer' } : Machine).lookup? name = m.lookup? name := by
  simp [lookup?, Machine.frame, hm]

theorem confined_load (o : Operand) : Confined (load o) := by
  cases o with
  | imm | func => exact (isolated_pure _).confined
  | unknown => exact (isolated_fail _).confined
  | data name =>
    apply Confined.get_bind
    · intro m
      cases m.data.get? name with
      | none => exact (isolated_fail _).confined
      | some s => exact (isolated_pure _).confined
    · intro m f outer outer' _
      rfl
  | cell name =>
    apply Confined.get_bind
    · intro m
      cases m.lookup? name with
      | none => exact (isolated_fail _).confined
      | some v => exact (isolated_pure _).confined
    · intro m f outer outer' hm
      rw [lookup?_outer hm]

/-- A store within a call goes to the cell of the call, or else to that of the top level. -/
theorem store_eq (hm : m.frames = f :: outer) (name : Name) (v : Value) :
    store name v m =
      if f.contains name then (.ok (), { m with frames := f.insert name v :: outer })
      else if m.globals.contains name then (.ok (), { m with globals := m.globals.insert name v })
      else (.error (.error (.fault (.storeToUndeclared name))), m) := by
  have hframe : m.frame = f := by simp [Machine.frame, hm]
  unfold store
  rw [Exec.get_bind, hframe]
  by_cases hf : f.contains name = true
  · rw [if_pos hf, if_pos hf]
    simp only [setFrame, hm]
    rfl
  · rw [if_neg hf, if_neg hf]
    by_cases hg : m.globals.contains name = true
    · rw [if_pos hg, if_pos hg]
      rfl
    · rw [if_neg hg, if_neg hg]
      rfl

theorem confined_store (name : Name) (v : Value) : Confined (store name v) := by
  intro m f outer outer' hm _
  rw [store_eq hm, store_eq (m := { m with frames := f :: outer' }) rfl]
  by_cases hf : f.contains name = true
  · rw [if_pos hf, if_pos hf]
    exact ⟨_, rfl, rfl⟩
  · rw [if_neg hf, if_neg hf]
    by_cases hg : m.globals.contains name = true
    · rw [if_pos hg, if_pos hg]
      exact ⟨f, hm, rfl⟩
    · rw [if_neg hg, if_neg hg]
      exact ⟨f, hm, rfl⟩

theorem confined_storeTo (o : Operand) (v : Value) : Confined (storeTo o v) := by
  cases o with
  | cell name => exact confined_store name v
  | imm | data | func | unknown => exact (isolated_fail _).confined

theorem confined_declare (name : Name) (v : Value) :
    Confined (modify fun m => m.setFrame (m.frame.insert name v) : Exec PUnit) := by
  intro m f outer outer' hm _
  have hset : ∀ (n : Machine) rest, n.frames = f :: rest →
      (modify fun m => m.setFrame (m.frame.insert name v) : Exec PUnit) n =
        (.ok (), { n with frames := f.insert name v :: rest }) := by
    intro n rest hn
    change (Except.ok (), n.setFrame (n.frame.insert name v)) = _
    simp [setFrame, Machine.frame, hn]
  rw [hset m outer hm, hset { m with frames := f :: outer' } outer' rfl]
  exact ⟨_, rfl, rfl⟩

/-- Every operation of the machine is confined, and so is what is put together from them. -/
theorem Composed.confined (h : Composed #[] (fun _ => True) (fun _ => True) g act act') :
    Confined act := by
  induction h with
  | pure a => exact (isolated_pure a).confined
  | fail f => exact (isolated_fail f).confined
  | bind _ _ hx hk => exact hx.bind hk
  | load => exact confined_load _
  | storeTo v => exact confined_storeTo _ v
  | declare s => exact confined_declare _ (zero s)
  | push v => exact (isolated_push v).confined
  | pop => exact isolated_pop?.confined
  | heap | builtin => exact Isolated.confined fun _ _ _ => ⟨rfl, rfl⟩
  | reading _ hk => exact Confined.get_bind (fun m => hk m.heap) fun _ _ _ _ _ => rfl

end Cells

/-! ## Instructions -/

theorem isolated_applying {run : Function → Exec Unit} (h : ∀ f, Isolated (run f)) (name : Name) :
    Isolated (applying run name) := by
  apply Isolated.get_bind
  · intro m
    cases m.functions.get? name with
    | some f => exact h f
    | none =>
      cases Builtin.find? name with
      | some b => exact (composed_callBuiltin b).isolated
      | none => exact isolated_fail _
  · intro m frames _
    rfl

theorem isolated_inFrame {body : Exec Bool} (h : Confined body) (function : Name) (frame : Frame) :
    Isolated (inFrame body function frame) := by
  intro m frames hlen
  obtain ⟨f, hframes, hbody⟩ :=
    h { m with frames := frame :: m.frames } frame m.frames frames rfl hlen
  cases hr : body { m with frames := frame :: m.frames } with
  | mk r m₁ =>
    rw [hr] at hframes hbody
    have hbody' : body { ({ m with frames := frames } : Machine) with frames := frame :: frames } =
        (r, { m₁ with frames := f :: frames }) := hbody
    rw [inFrame_eq hr, inFrame_eq (m := { m with frames := frames }) hbody']
    constructor
    · change m₁.frames.tail = m.frames
      rw [hframes]
      rfl
    · rfl

/-- A function runs in a frame of its own, which is taken away whatever the outcome: what is confined
to that frame is isolated from all others. -/
theorem isolated_invoke {body : List Instruction → Exec Bool} (h : ∀ c, Confined (body c))
    (f : Function) : Isolated (invoke limits body f) := by
  unfold invoke
  apply Isolated.get_bind
  · intro m
    have hrun : Isolated (popParams f.record.name f.record.params.reverse .empty >>=
        inFrame (body f.body) f.record.name) :=
      (composed_popParams _ _ _).isolated.bind fun frame => isolated_inFrame (h f.body) _ frame
    split
    · exact (isolated_throw _).bind fun _ => hrun
    · exact hrun
  · intro m frames hlen
    simp [frameCount, hlen]

theorem confined_leave (args : List Operand) : Confined (leave args) := by
  cases args with
  | nil => exact (isolated_pure _).confined
  | cons o args =>
    apply (confined_load o).bind
    intro v
    apply Isolated.confined
    apply isolated_modify
    · intro m
      split <;> rfl
    · intro m frames hlen
      have hempty : frames.isEmpty = m.frames.isEmpty := by
        rw [Bool.eq_iff_iff, List.isEmpty_iff_length_eq_zero, List.isEmpty_iff_length_eq_zero, hlen]
      simp only [hempty]
      split <;> rfl

theorem confined_rules (limits : Limits) : Rules #[] limits fun _ {_ _} _ act _ => Confined act where
  composed h := h.confined
  bind h hk := h.bind hk
  wrap place h := h.wrap place
  register record := (isolated_register record).confined
  leave := confined_leave
  call name h := (isolated_applying (isolated_invoke h) name).confined
  count h := (isolated_countStep limits).confined.bind fun _ => h
  spent := (isolated_throw _).confined

theorem confined_exec (limits : Limits) (fuel : Nat) (all rest : List Instruction) :
    Confined (exec limits fuel all rest) :=
  (confined_rules limits).exec fuel all rest

/-! ## Direct calls -/

/-- A direct call, of any function and to any outcome, leaves the frames of its callers as they are;
with any other cells in them it ends in the same way, with the same stack, console, heap, functions
and cells of the top level. -/
theorem direct_call_isolated (limits : Limits) (fuel : Nat) {i : Instruction} {m : Machine}
    {name : Name} (hop : i.op = .call) (hargs : i.args = [.func name]) (cells : List Frame)
    (hcells : cells.length = m.frames.length) :
    (perform limits fuel i m).2.frames = m.frames ∧
      perform limits fuel i { m with frames := cells } =
        ((perform limits fuel i m).1, { (perform limits fuel i m).2 with frames := cells }) := by
  have hinvoke : ∀ f, Isolated (calling limits fuel f) :=
    isolated_invoke fun body => confined_exec limits fuel body body
  have hstep : Isolated (step (calling limits fuel) i) := by
    obtain ⟨op⟩ := i
    subst hop hargs
    exact isolated_applying hinvoke name
  have hperform : Isolated (perform limits fuel i) :=
    (isolated_countStep limits).bind fun _ => hstep.wrap _
  exact hperform m cells hcells

/-- A function that sets a cell of the top level, calls itself with what it divides by, and so ends
with a division by zero in the second call. -/
def dividing : Function where
  record := ⟨"dividing", [⟨"n", .i64⟩], .none, []⟩
  body :=
    [.arith .div (.imm 6) (.cell "n") (.cell "total"), .push (.imm 0), .call (.func "dividing")]

/-- The machine in the middle of two calls. -/
def dividingCallers : Machine where
  functions := NameMap.ofList [(Bytes.ofString "dividing", dividing)]
  globals := NameMap.ofList [(Bytes.ofString "total", .int 1)]
  frames := [NameMap.ofList [(Bytes.ofString "n", .int 8)], .empty]
  stack := [.int 2]

/-- The call fails in its second frame; the callers' frames are left, and other cells in them make no
difference. -/
theorem dividing_isolated :
    let call : Instruction := .call (.func "dividing")
    let cells : List Frame := [.empty, NameMap.ofList [(Bytes.ofString "total", .null)]]
    let ended := perform {} 9 call dividingCallers
    (∃ e, ended.1 = .error (.error e) ∧ e.root = .fault .divisionByZero) ∧
      ended.2.globals.get? "total" = some (.int 3) ∧
      ended.2.frames = dividingCallers.frames ∧
      perform {} 9 call { dividingCallers with frames := cells } =
        (ended.1, { ended.2 with frames := cells }) := by
  intro call cells ended
  have hiso := direct_call_isolated {} 9 (i := call) (m := dividingCallers) rfl rfl cells rfl
  exact ⟨⟨_, rfl, rfl⟩, rfl, hiso.1, hiso.2⟩

end UnitScript.Machine
