import UnitScript.Proofs.Machine.Execution

/-!
# Which cells are kept

An instruction that neither jumps nor calls declares or overwrites at most one cell. All other cells,
the outer frames and the functions stay as they are, and no declaration is taken back.
-/

namespace UnitScript

namespace Instruction

variable {i : Instruction}

theorem isLocal_of_declares? {x : Name} (h : i.declares? = some x) : i.op.isLocal = true := by
  unfold declares? at h
  split at h
  · next hop _ =>
    rw [hop]
    rfl
  · cases h

theorem not_isJump_of_isLocal (h : i.op.isLocal = true) : i.op.isJump = false := by
  cases hop : i.op <;> rw [hop] at h <;> first | rfl | cases h

theorem not_isLocal_of_isJump (h : i.op.isJump = true) : i.op.isLocal = false := by
  cases hop : i.op <;> rw [hop] at h <;> first | rfl | cases h

end Instruction

namespace Machine

variable {m m' m₀ : Machine} {i : Instruction} {x y : Name} {v : Value}

theorem sameCells_tick (m : Machine) : SameCells m m.tick := ⟨rfl, rfl, rfl, rfl⟩

/-! ## What a piece of code keeps -/

/-- The outer frames and the data stay as they are, no declaration is taken back, and within a function
the cells of the top level that are in `own` keep their values. -/
structure CellsKept (own : Name → Prop) (m m' : Machine) : Prop where
  depth : m'.frames.length = m.frames.length
  outer : m'.frames.tail = m.frames.tail
  declared : ∀ x, m.declared x → m'.declared x
  globals : ∀ x, m.globals.contains x = true → m'.globals.contains x = true
  owned : m.frames ≠ [] → ∀ x, own x → m'.globals.get? x = m.globals.get? x
  data : m'.data = m.data

variable {own : Name → Prop}

theorem SameCells.kept (h : SameCells m m') : CellsKept own m m' := by
  refine ⟨by rw [h.frames], by rw [h.frames], fun x hx => ?_, fun x hx => ?_, fun _ x _ => ?_,
    h.data⟩
  · unfold Machine.declared
    rw [h.frame]
    exact hx
  · rw [h.globals]
    exact hx
  · rw [h.globals]

theorem CellsKept.trans (h : CellsKept own m m₀) (g : CellsKept own m₀ m') :
    CellsKept own m m' := by
  refine ⟨g.depth.trans h.depth, g.outer.trans h.outer, fun x hx => g.declared x (h.declared x hx),
    fun x hx => g.globals x (h.globals x hx), fun hf x hx => ?_, g.data.trans h.data⟩
  have hf₀ : m₀.frames ≠ [] := by
    intro h₀
    have hlen := h.depth
    rw [h₀] at hlen
    exact hf (List.eq_nil_of_length_eq_zero hlen.symm)
  rw [g.owned hf₀ x hx, h.owned hf x hx]

@[simp] theorem frame_setFrame (m : Machine) (f : Frame) : (m.setFrame f).frame = f := by
  unfold setFrame
  cases hf : m.frames with
  | nil => simp [Machine.frame]
  | cons => simp [Machine.frame]

theorem setFrame_state (m : Machine) (f : Frame) :
    m.setFrame f = { m with globals := (m.setFrame f).globals, frames := (m.setFrame f).frames } := by
  unfold setFrame
  split <;> rfl

@[simp] theorem functions_setFrame (m : Machine) (f : Frame) :
    (m.setFrame f).functions = m.functions := by
  rw [setFrame_state]

@[simp] theorem data_setFrame (m : Machine) (f : Frame) : (m.setFrame f).data = m.data := by
  rw [setFrame_state]

theorem frame_withGlobals (hf : m.frames ≠ []) (g : Frame) :
    ({ m with globals := g } : Machine).frame = m.frame := by
  cases hm : m.frames with
  | nil => exact absurd hm hf
  | cons f rest => simp [Machine.frame, hm]

theorem contains_insert (f : Frame) (x y : Name) (v : Value) :
    (f.insert x v).contains y = true ↔ x = y ∨ f.contains y = true := by
  unfold NameMap.contains
  rw [NameMap.get?_insert]
  by_cases h : x = y <;> simp [h]

theorem declared_of_effect? (hx : i.declares? = some x) (h : m.effect? i = some m') :
    m'.declared x := by
  obtain ⟨op⟩ := i
  unfold Instruction.declares? at hx
  split at hx
  · rename_i y hop hargs
    cases hx
    subst hop hargs
    cases h
    unfold Machine.declared
    rw [frame_setFrame, contains_insert]
    exact .inl rfl
  · cases hx

theorem kept_insert (m : Machine) (x : Name) (v : Value) :
    CellsKept own m (m.setFrame (m.frame.insert x v)) := by
  have hdeclared : ∀ y, m.declared y → (m.setFrame (m.frame.insert x v)).declared y := by
    intro y hy
    unfold Machine.declared
    rw [frame_setFrame, contains_insert]
    exact .inr hy
  cases hf : m.frames with
  | nil =>
    have hset : m.setFrame (m.frame.insert x v) = { m with globals := m.globals.insert x v } := by
      simp [setFrame, Machine.frame, hf]
    refine ⟨by rw [hset], by rw [hset], hdeclared, fun y hy => ?_, fun h => absurd hf h,
      data_setFrame m _⟩
    rw [hset, contains_insert]
    exact .inr hy
  | cons f rest =>
    have hset : m.setFrame (m.frame.insert x v) =
        { m with frames := m.frame.insert x v :: rest } := by
      simp [setFrame, hf]
    refine ⟨by rw [hset, hf]; rfl, by rw [hset, hf]; rfl, hdeclared, fun y hy => ?_,
      fun _ y _ => ?_, data_setFrame m _⟩
    · rw [hset]
      exact hy
    · rw [hset]

theorem assign?_eq_some (h : m.assign? (.cell x) v = some m') :
    (m.declared x ∧ m' = m.setFrame (m.frame.insert x v)) ∨
      (¬m.declared x ∧ m.frames ≠ [] ∧ m.globals.contains x = true ∧
        m' = { m with globals := m.globals.insert x v }) := by
  simp only [assign?] at h
  by_cases hx : m.frame.contains x = true
  · rw [if_pos hx] at h
    exact .inl ⟨hx, (Option.some.inj h).symm⟩
  · rw [if_neg hx] at h
    by_cases hg : m.globals.contains x = true
    · rw [if_pos hg] at h
      refine .inr ⟨hx, fun hf => hx ?_, hg, (Option.some.inj h).symm⟩
      simpa [Machine.frame, hf] using hg
    · rw [if_neg hg] at h
      cases h

theorem kept_assign? (h : m.assign? (.cell x) v = some m') (hx : own x → m.declared x) :
    CellsKept own m m' := by
  rcases assign?_eq_some h with ⟨-, rfl⟩ | ⟨hnot, hf, hg, rfl⟩
  · exact kept_insert m x v
  · have hframe := frame_withGlobals hf (m.globals.insert x v)
    refine ⟨rfl, rfl, fun y hy => ?_, fun y hy => ?_, fun _ y hy => ?_, rfl⟩
    · unfold Machine.declared
      rw [hframe]
      exact hy
    · rw [contains_insert]
      exact .inr hy
    · have hne : x ≠ y := by
        rintro rfl
        exact hnot (hx hy)
      exact (NameMap.get?_insert m.globals x y v).trans (if_neg hne)

theorem CellChange.kept (h : CellChange i m m')
    (hi : ∀ x, i.stores? = some x → own x → m.declared x) : CellsKept own m m' := by
  cases h with
  | none hs => exact hs.kept
  | declared _ _ hm =>
    rw [hm]
    exact kept_insert m _ _
  | @stored x v m₀ hx hs _ ha =>
    refine hs.kept.trans (kept_assign? ha fun hown => ?_)
    have hd := hi x hx hown
    unfold Machine.declared
    rw [hs.frame]
    exact hd

theorem CellChange.frame_get? (h : CellChange i m m') (hd : i.declares? ≠ some y)
    (hs : i.stores? ≠ some y) : m'.frame.get? y = m.frame.get? y := by
  cases h with
  | none hsame => rw [hsame.frame]
  | @declared x v hx _ hm =>
    have hne : x ≠ y := by
      rintro rfl
      exact hd hx
    rw [hm, frame_setFrame, NameMap.get?_insert, if_neg hne]
  | @stored x v m₀ hx hsame _ ha =>
    have hne : x ≠ y := by
      rintro rfl
      exact hs hx
    rw [← hsame.frame]
    rcases assign?_eq_some ha with ⟨-, rfl⟩ | ⟨-, hf, -, rfl⟩
    · rw [frame_setFrame, NameMap.get?_insert, if_neg hne]
    · rw [frame_withGlobals hf]

theorem CellChange.functions_eq (h : CellChange i m m') : m'.functions = m.functions := by
  cases h with
  | none hsame => exact hsame.functions
  | declared _ _ hm => rw [hm, functions_setFrame]
  | stored _ hsame _ ha =>
    rw [← hsame.functions]
    rcases assign?_eq_some ha with ⟨-, rfl⟩ | ⟨-, -, -, rfl⟩
    · exact functions_setFrame _ _
    · rfl

theorem CellChange.stacks (h : CellChange i m m') : i.Stacks m.stack m'.stack := by
  cases h with
  | none _ hs => exact hs
  | declared _ hs hm =>
    rw [hm, setFrame_state]
    exact hs
  | stored _ _ hs ha =>
    rcases assign?_eq_some ha with ⟨-, rfl⟩ | ⟨-, -, -, rfl⟩
    · rw [setFrame_state]
      exact hs
    · exact hs

/-! ## Reading a cell after a change -/

theorem lookup?_of_frame (h : m.frame.get? x = some v) : m.lookup? x = some v := by
  unfold lookup?
  rw [h]

theorem lookup?_insert_of_ne (h : x ≠ y) :
    (m.setFrame (m.frame.insert x v)).lookup? y = m.lookup? y := by
  have hget : (m.frame.insert x v).get? y = m.frame.get? y :=
    (NameMap.get?_insert m.frame x y v).trans (if_neg h)
  have hglobals : (m.setFrame (m.frame.insert x v)).globals.get? y = m.globals.get? y := by
    unfold setFrame
    cases hf : m.frames with
    | nil =>
      have htop : m.frame = m.globals := by simp [Machine.frame, hf]
      rw [htop] at hget ⊢
      exact hget
    | cons => rfl
  unfold lookup?
  rw [frame_setFrame, hget, hglobals, functions_setFrame]

theorem lookup?_of_assign? (h : m.assign? (.cell x) v = some m') : m'.lookup? x = some v := by
  rcases assign?_eq_some h with ⟨-, rfl⟩ | ⟨hnot, hf, -, rfl⟩
  · refine lookup?_of_frame ?_
    rw [frame_setFrame, NameMap.get?_insert, if_pos rfl]
  · have hnone : m.frame.get? x = none := by
      simpa [Machine.declared, NameMap.contains] using hnot
    have hget : (m.globals.insert x v).get? x = some v := by rw [NameMap.get?_insert, if_pos rfl]
    unfold lookup?
    rw [frame_withGlobals hf, hnone]
    simp only [hget]

end Machine

end UnitScript
