import UnitScript.Proofs.Code.Bodies
import UnitScript.Proofs.Machine.Outcome

/-!
# Code that keeps to its own cells

A set of cells is a program's own when code stores into one of them only after declaring it in the
same frame. Code that is tidy in this sense, with functions that are tidy too, never changes an own
cell of a frame other than its own: a call leaves the caller's own cells as they were. The invariant
holds in every configuration that a run visits.
-/

namespace UnitScript

namespace Instruction

/-- No jump stands in the list itself; its scopes may have jumps of their own. -/
def NoJump (c : List Instruction) : Prop := ∀ i ∈ c, i.op.isJump = false

/-- Where the cells in `declared` are declared, a store into a cell in `own` comes only after the
declaration of the cell. A scope either has no jumps, or is tidy from each of its places; the body
of a function is tidy by itself. -/
inductive Tidy (own : Name → Prop) : (declared : Name → Prop) → List Instruction → Prop where
  | nil {D} : Tidy own D []
  | plain {D i rest} : i.op ≠ .scope → i.op ≠ .func → (∀ x, i.stores? = some x → own x → D x) →
      Tidy own (fun x => D x ∨ i.declares? = some x) rest → Tidy own D (i :: rest)
  | scope {D i rest} : i.op = .scope → NoJump i.children → Tidy own D i.children →
      Tidy own D rest → Tidy own D (i :: rest)
  | branches {D i rest} : i.op = .scope → (∀ k, Tidy own D (i.children.drop k)) →
      Tidy own D rest → Tidy own D (i :: rest)
  | func {D i rest} : i.op = .func →
      (∀ f body, i.func = some f → Decoding.runCode f.body = .ok body → NoJump body) →
      (∀ f body, i.func = some f → Decoding.runCode f.body = .ok body →
        Tidy own (fun _ => False) body) →
      Tidy own D rest → Tidy own D (i :: rest)

/-- The instruction is a call, or one without control flow that is not for the cell. -/
def Spares (x : Name) (i : Instruction) : Prop :=
  i.op = .call ∨ i.op.isLocal = true ∧ i.declares? ≠ some x ∧ i.stores? ≠ some x

/-- Code that is tidy by itself, as the body of a function is. -/
def Closed (own : Name → Prop) (c : List Instruction) : Prop :=
  NoJump c ∧ Tidy own (fun _ => False) c

variable {own : Name → Prop} {D E : Name → Prop} {c d : List Instruction} {i : Instruction}

theorem Tidy.mono (h : Tidy own D c) (hDE : ∀ x, D x → E x) : Tidy own E c := by
  induction h generalizing E with
  | nil => exact .nil
  | plain hs hf hstore _ ih =>
    refine .plain hs hf (fun x hx ho => hDE x (hstore x hx ho)) (ih fun x hx => ?_)
    exact hx.imp_left (hDE x)
  | scope hop hjump _ _ ihc ihr => exact .scope hop hjump (ihc hDE) (ihr hDE)
  | branches hop _ _ ihc ihr => exact .branches hop (fun k => ihc k hDE) (ihr hDE)
  | func hop hjump hbody _ _ ihr => exact .func hop hjump hbody (ihr hDE)

theorem Tidy.append (hc : Tidy own D c) (hd : Tidy own D d) : Tidy own D (c ++ d) := by
  induction hc with
  | nil => exact hd
  | plain hs hf hstore _ ih => exact .plain hs hf hstore (ih (hd.mono fun _ hx => .inl hx))
  | scope hop hjump hchildren _ _ ih => exact .scope hop hjump hchildren (ih hd)
  | branches hop hchildren _ _ ih => exact .branches hop hchildren (ih hd)
  | func hop hjump hbody _ _ ih => exact .func hop hjump hbody (ih hd)

theorem NoJump.append (hc : NoJump c) (hd : NoJump d) : NoJump (c ++ d) := by
  intro i hi
  rcases List.mem_append.1 hi with hi | hi
  · exact hc i hi
  · exact hd i hi

theorem NoJump.tail (h : NoJump (i :: c)) : NoJump c := fun j hj => h j (List.mem_cons_of_mem _ hj)

theorem not_isStep_of_isJump (h : i.op.isJump = true) : i.op.isStep = false := by
  cases hop : i.op <;> rw [hop] at h <;> first | rfl | cases h

/-- The body of a function, as it is read, is tidy by itself. -/
def ClosedFunction (own : Name → Prop) (i : Instruction) : Prop := i.op = .func →
  ∀ f body, i.func = some f → Decoding.runCode f.body = .ok body → Closed own body

theorem Tidy.functions (h : Tidy own D c) : Throughout (ClosedFunction own) c := by
  induction h with
  | nil => exact throughout_nil
  | plain hs hf _ _ ih =>
    apply Throughout.cons _ ih
    exact throughout_single (fun h => absurd h hf) fun h => absurd h hs
  | @scope _ i _ hop _ _ _ ihc ihr =>
    have hnot : ClosedFunction own i := by
      intro h
      rw [hop] at h
      cases h
    exact (throughout_single hnot fun _ => ihc).cons ihr
  | @branches _ i _ hop _ _ ihc ihr =>
    have hnot : ClosedFunction own i := by
      intro h
      rw [hop] at h
      cases h
    exact (throughout_single hnot fun _ => ihc 0).cons ihr
  | @func _ i _ hop hjump hbody _ _ ihr =>
    have hclosed : ClosedFunction own i :=
      fun _ f body hf hb => ⟨hjump f body hf hb, hbody f body hf hb⟩
    apply Throughout.cons _ ihr
    apply throughout_single hclosed
    intro h
    rw [hop] at h
    cases h

theorem isLocal_of_stores? {x : Name} (h : i.stores? = some x) : i.op.isLocal = true := by
  unfold stores? at h
  split at h <;> first | (next hop _ => rw [hop]; rfl) | cases h

end Instruction

namespace Machine

open Instruction

def Tame (own : Name → Prop) (m : Machine) : Prop :=
  ∀ name f, m.functions.get? name = some f → Closed own f.body

/-- A place in a block from which execution can go on: what is left is tidy with the cells that are
declared, and so is what a jump can lead to. -/
structure Sound (own : Name → Prop) (all rest : List Instruction) (m : Machine) : Prop where
  tame : m.Tame own
  tidy : Tidy own m.declared rest
  jumps : NoJump rest ∨ ∀ k, Tidy own m.declared (all.drop k)

structure Kept (own : Name → Prop) (m m' : Machine) : Prop where
  cells : CellsKept own m m'
  tame : m'.Tame own

variable {own : Name → Prop} {all rest : List Instruction} {i : Instruction} {m m₁ m' : Machine}
  {limits : Limits} {f : Function} {name : Name}

theorem Tame.of_functions (h : m.Tame own) (hf : m'.functions = m.functions) : m'.Tame own := by
  unfold Tame
  rw [hf]
  exact h

theorem SameCells.keeps (h : SameCells m m') (ht : m.Tame own) : Kept own m m' :=
  ⟨h.kept, ht.of_functions h.functions⟩

theorem Kept.trans (h : Kept own m m₁) (g : Kept own m₁ m') : Kept own m m' :=
  ⟨h.cells.trans g.cells, g.tame⟩

theorem Sound.of_kept (h : Sound own all rest m) (hk : Kept own m m') : Sound own all rest m' := by
  refine ⟨hk.tame, h.tidy.mono hk.cells.declared, ?_⟩
  rcases h.jumps with hj | hj
  · exact .inl hj
  · exact .inr fun k => (hj k).mono hk.cells.declared

theorem Sound.tick (h : Sound own all rest m) : Sound own all rest m.tick :=
  h.of_kept ((sameCells_tick m).keeps h.tame)

theorem Sound.next (h : Sound own all (i :: rest) m) (hk : Kept own m m')
    (hd : ∀ x, i.declares? = some x → m'.declared x) : Sound own all rest m' := by
  have hrest : Tidy own m'.declared rest := by
    cases h.tidy with
    | plain _ _ _ hr => exact hr.mono fun x hx => hx.elim (hk.cells.declared x) (hd x)
    | scope _ _ _ hr | branches _ _ hr | func _ _ _ hr => exact hr.mono hk.cells.declared
  refine ⟨hk.tame, hrest, ?_⟩
  rcases h.jumps with hj | hj
  · exact .inl hj.tail
  · exact .inr fun k => (hj k).mono hk.cells.declared

theorem Sound.jump (h : Sound own all (i :: rest) m) (hi : i.op.isJump = true) (k : Nat) :
    Sound own all (all.drop k) m := by
  rcases h.jumps with hj | hj
  · rw [hj i List.mem_cons_self] at hi
    cases hi
  · exact ⟨h.tame, hj k, .inr hj⟩

theorem Sound.enter (h : Sound own all (i :: rest) m) (hop : i.op = .scope) :
    Sound own i.children i.children m := by
  cases h.tidy with
  | plain hs => exact absurd hop hs
  | scope _ hjump hchildren => exact ⟨h.tame, hchildren, .inl hjump⟩
  | branches _ hchildren => exact ⟨h.tame, hchildren 0, .inr hchildren⟩
  | func hf =>
    rw [hop] at hf
    cases hf

theorem Sound.leave (h : Sound own all (i :: rest) m) (hop : i.op = .scope) (hk : Kept own m m') :
    Sound own all rest m' := by
  apply h.next hk
  intro x hx
  have hlocal := isLocal_of_declares? hx
  rw [hop] at hlocal
  cases hlocal

theorem Sound.pass (h : Sound own all (i :: rest) m) (hi : i.op.isJump = true) :
    Sound own all rest m := by
  apply h.next ((SameCells.refl m).keeps h.tame)
  intro x hx
  rw [not_isJump_of_isLocal (isLocal_of_declares? hx)] at hi
  cases hi

theorem Sound.stores_declared (h : Sound own all (i :: rest) m) (hi : i.op.isLocal = true)
    (x : Name) (hx : i.stores? = some x) (hown : own x) : m.declared x := by
  cases h.tidy with
  | plain _ _ hstore => exact hstore x hx hown
  | scope hop | branches hop | func hop =>
    rw [hop] at hi
    cases hi

theorem Tame.insert (h : m.Tame own) (hf : Closed own f.body) :
    ({ m with functions := m.functions.insert name f } : Machine).Tame own := by
  intro name' f' hget
  rw [NameMap.get?_insert] at hget
  split at hget
  · cases hget
    exact hf
  · exact h name' f' hget

/-- The start of a function's body is sound in any frame. -/
theorem Tame.sound (h : m.Tame own)
    (hf : m.functions.get? name = some f) (hm : m'.functions = m.functions) :
    Sound own f.body f.body m' :=
  ⟨h.of_functions hm, (h name f hf).2.mono fun _ hx => hx.elim, .inl (h name f hf).1⟩

/-! ## Calls -/

/-- What a call leaves alone: all frames, the own cells of the top level, and the data. -/
structure Undisturbed (own : Name → Prop) (m m' : Machine) : Prop where
  frames : m'.frames = m.frames
  globals : ∀ x, m.globals.contains x = true → m'.globals.contains x = true
  owned : ∀ x, own x → m'.globals.get? x = m.globals.get? x
  data : m'.data = m.data

theorem SameCells.undisturbed (h : SameCells m m') : Undisturbed own m m' := by
  refine ⟨h.frames, fun x hx => ?_, fun x _ => ?_, h.data⟩
  · rwa [h.globals]
  · rw [h.globals]

theorem Undisturbed.cellsKept (h : Undisturbed own m m') : CellsKept own m m' := by
  refine ⟨by rw [h.frames], by rw [h.frames], fun x hx => ?_, h.globals, fun _ => h.owned, h.data⟩
  unfold Machine.declared Machine.frame at hx ⊢
  rw [h.frames]
  cases hf : m.frames with
  | nil =>
    rw [hf] at hx
    exact h.globals x hx
  | cons f rest =>
    rw [hf] at hx
    exact hx

theorem Undisturbed.frame_get? (h : Undisturbed own m m') {x : Name} (hx : own x) :
    m'.frame.get? x = m.frame.get? x := by
  unfold Machine.frame
  rw [h.frames]
  cases m.frames with
  | nil => exact h.owned x hx
  | cons f rest => rfl

/-- What code keeps in the frame that a call made for it, the call leaves alone. -/
theorem CellsKept.undisturbed {frame : Frame} {m₂ : Machine} (hsame : SameCells m m₁)
    (h : CellsKept own { m₁ with frames := frame :: m₁.frames } m₂) :
    Undisturbed own m { m₂ with frames := m₂.frames.tail } := by
  refine ⟨h.outer.trans hsame.frames, fun x hx => ?_, fun x hx => ?_, h.data.trans hsame.data⟩
  · apply h.globals x
    rw [← hsame.globals] at hx
    exact hx
  · have howned := h.owned (by simp) x hx
    exact howned.trans (by rw [hsame.globals])

section Steps

variable {fuel : Nat}
  (hrun : ∀ all rest m, Sound own all rest m → Kept own m (exec limits fuel all rest m).2)
include hrun

theorem invoke_leaves (ht : m.Tame own) (hf : m.functions.get? name = some f) :
    Undisturbed own m (calling limits fuel f m).2 ∧ (calling limits fuel f m).2.Tame own := by
  have hcase := callingCase limits fuel f m
  generalize calling limits fuel f m = r at hcase ⊢
  cases hcase with
  | tooDeep => exact ⟨(SameCells.refl m).undisturbed, ht⟩
  | missing hsame => exact ⟨hsame.undisturbed, ht.of_functions hsame.functions⟩
  | @ran frame _ m₁ m₂ hp hbody =>
    have hsame := popParams_eq_ok hp
    have hsound : Sound own f.body f.body { m₁ with frames := frame :: m₁.frames } :=
      ht.sound hf hsame.functions
    have hk := hrun _ _ _ hsound
    rw [hbody] at hk
    exact ⟨hk.cells.undisturbed hsame, hk.tame⟩

theorem call_leaves (ht : m.Tame own) (hop : i.op = .call) :
    Undisturbed own m (step (calling limits fuel) i m).2 ∧
      (step (calling limits fuel) i m).2.Tame own := by
  have hcase : StepCase (calling limits fuel) i m _ := stepCase_call hop
  generalize step (calling limits fuel) i m = r at hcase ⊢
  cases hcase with
  | called _ _ _ hf => exact invoke_leaves hrun ht hf
  | lent _ _ _ _ _ hb =>
    have hsame := callBuiltin_eq_ok hb
    exact ⟨hsame.undisturbed, ht.of_functions hsame.functions⟩
  | failed _ hsame => exact ⟨hsame.undisturbed, ht.of_functions hsame.functions⟩
  | done hlocal =>
    rw [hop] at hlocal
    cases hlocal
  | registered hfunc =>
    rw [hop] at hfunc
    cases hfunc

theorem step_keeps (hs : Sound own all (i :: rest) m) (hop : i.op.isStep = true) :
    Kept own m (step (calling limits fuel) i m).2 := by
  have hcase : StepCase (calling limits fuel) i m _ := stepCase _ hop
  have hcall := fun h => call_leaves hrun hs.tame (i := i) h
  generalize step (calling limits fuel) i m = r at hcase hcall ⊢
  cases hcase with
  | done hlocal heffect =>
    have hchange := cellChange_of_effect? heffect
    exact ⟨hchange.kept (hs.stores_declared hlocal), hs.tame.of_functions hchange.functions_eq⟩
  | failed _ hsame => exact hsame.keeps hs.tame
  | called hi | lent hi => exact ⟨(hcall hi).1.cellsKept, (hcall hi).2⟩
  | registered hfunc hrecord hbody =>
    refine ⟨⟨rfl, rfl, fun _ hx => hx, fun _ hx => hx, fun _ _ _ => rfl, rfl⟩, ?_⟩
    exact hs.tame.insert (hs.tidy.functions.head hfunc _ _ hrecord hbody)

end Steps

/-- From sound places on the cells are kept, also by an execution that fails or that a limit stops. -/
theorem upholds_kept (own : Name → Prop) (limits : Limits) :
    Upholds limits (Sound own) (Kept own) where
  trans := Kept.trans
  same h hsame := ⟨hsame.keeps h.tame, h.of_kept (hsame.keeps h.tame)⟩
  next := Sound.next
  jump := Sound.jump
  enter := Sound.enter
  step hrun h hop := step_keeps hrun h hop

theorem Sound.kept_exec (h : Sound own all rest m) (limits : Limits) (fuel : Nat) :
    Kept own m (exec limits fuel all rest m).2 :=
  (upholds_kept own limits).exec fuel h

end Machine

end UnitScript
