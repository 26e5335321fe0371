import UnitScript.Proofs.Machine.Operations
import UnitScript.Proofs.Machine.Outcome
import UnitScript.Proofs.Machine.Places

/-!
# What every execution leaves in place

Whatever code is executed and whatever it comes to: the data of the unit stay as they are, the frames
of the callers too, and no declaration is taken back. The functions of the machine come from the code
that was executed, so a property that the functions of the code have, and those in their bodies, is a
property of all functions of the machine, in the run and in all runs after it.
-/

namespace UnitScript

namespace Instruction

variable {P : Instruction → Prop} {c : List Instruction}

theorem Throughout.drop (h : Throughout P c) (k : Nat) : Throughout P (c.drop k) := by
  induction c generalizing k with
  | nil => simpa using h
  | cons i c ih =>
    cases k with
    | zero => exact h
    | succ k => exact ih h.tail k

def Supplied (Q : Function → Prop) (i : Instruction) : Prop :=
  i.op = .func → ∀ record body, i.func = some record →
    Decoding.runCode record.body = .ok body → Q ⟨record, body⟩

def Supplies (Q : Function → Prop) (c : List Instruction) : Prop := Throughout (Supplied Q) c

end Instruction

namespace Machine

open Instruction

/-! ## Cells -/

variable {limits : Limits} {m m₁ m' : Machine} {i : Instruction} {all rest : List Instruction}

section Cells

variable {fuel : Nat}
  (hrun : ∀ all rest m, CellsKept (fun _ => False) m (exec limits fuel all rest m).2)
include hrun

theorem cellsKept_invoke (f : Function) :
    CellsKept (fun _ => False) m (calling limits fuel f m).2 := by
  have hcase := callingCase limits fuel f m
  generalize calling limits fuel f m = r at hcase ⊢
  cases hcase with
  | tooDeep => exact (SameCells.refl m).kept
  | missing hsame => exact hsame.kept
  | @ran frame _ m₁ m₂ hp hbody =>
    have hsame := popParams_eq_ok hp
    have hk := hrun f.body f.body { m₁ with frames := frame :: m₁.frames }
    rw [hbody] at hk
    exact (hk.undisturbed hsame).cellsKept

theorem cellsKept_step (hop : i.op.isStep = true) :
    CellsKept (fun _ => False) m (step (calling limits fuel) i m).2 := by
  have hcase := stepCase (i := i) (m := m) (calling limits fuel) hop
  generalize step (calling limits fuel) i m = r at hcase ⊢
  cases hcase with
  | done _ heffect => exact (cellChange_of_effect? heffect).kept fun _ _ h => h.elim
  | failed _ hsame => exact hsame.kept
  | called => exact cellsKept_invoke hrun _
  | lent _ _ _ _ _ hb => exact (callBuiltin_eq_ok hb).kept
  | registered => exact ⟨rfl, rfl, fun _ hx => hx, fun _ hx => hx, fun _ _ _ => rfl, rfl⟩

end Cells

/-- Whatever code is executed, the frames of the callers and the data stay as they are, and no
declaration is taken back. -/
theorem cellsKept_exec (limits : Limits) (fuel : Nat) (all rest : List Instruction) (m : Machine) :
    CellsKept (fun _ => False) m (exec limits fuel all rest m).2 := by
  have hupholds : Upholds limits (fun _ _ _ => True) (CellsKept fun _ => False) :=
    { trans := CellsKept.trans
      same := fun _ hsame => ⟨hsame.kept, trivial⟩
      next := fun _ _ _ => trivial
      jump := fun _ _ _ => trivial
      enter := fun _ _ => trivial
      step := fun hrun _ hop => cellsKept_step (fun all rest m => hrun all rest m trivial) hop }
  exact hupholds.exec fuel trivial

theorem Completes.cellsKept (h : Completes limits i m m') : CellsKept (fun _ => False) m m' := by
  obtain ⟨hop, fuel, _, hcount, hs⟩ := h
  obtain rfl := countStep_eq_ok hcount
  have hk := cellsKept_step (m := m.tick) (cellsKept_exec limits fuel) hop
  rw [hs] at hk
  exact CellsKept.trans (sameCells_tick m).kept hk

/-! ## Functions -/

def Stocked (Q : Function → Prop) (m : Machine) : Prop :=
  ∀ name f, m.functions.get? name = some f → f.record.name = name ∧ Q f

/-- What is left in place by every computation: the functions have the property, the outer frames
are as they were, and no declaration is taken back. -/
structure Maintained (Q : Function → Prop) (m m' : Machine) : Prop where
  stocked : m'.Stocked Q
  cells : CellsKept (fun _ => False) m m'

variable {Q : Function → Prop}

theorem Stocked.of_functions (h : m.Stocked Q) (hf : m'.functions = m.functions) :
    m'.Stocked Q := by
  unfold Stocked
  rw [hf]
  exact h

theorem Stocked.insert (h : m.Stocked Q) {f : Function} (hf : Q f) :
    ({ m with functions := m.functions.insert f.record.name f } : Machine).Stocked Q := by
  intro name g hget
  rw [NameMap.get?_insert] at hget
  split at hget
  · next hname =>
    cases hget
    exact ⟨hname, hf⟩
  · exact h name g hget

theorem SameCells.maintained (h : SameCells m m') (hm : m.Stocked Q) : Maintained Q m m' :=
  ⟨hm.of_functions h.functions, h.kept⟩

theorem Maintained.trans (h : Maintained Q m m₁) (g : Maintained Q m₁ m') : Maintained Q m m' :=
  ⟨g.stocked, h.cells.trans g.cells⟩

section Steps

variable {fuel : Nat} (hQ : ∀ f, Q f → Supplies Q f.body)
  (hrun : ∀ all rest m, Supplies Q all → Supplies Q rest → m.Stocked Q →
    Maintained Q m (exec limits fuel all rest m).2)
include hQ hrun

theorem maintained_invoke {name : Name} {f : Function} (hm : m.Stocked Q)
    (hf : m.functions.get? name = some f) :
    Maintained Q m (calling limits fuel f m).2 := by
  have hcells := cellsKept_invoke (m := m) (cellsKept_exec limits fuel) f
  have hcase := callingCase limits fuel f m
  generalize calling limits fuel f m = r at hcase hcells ⊢
  refine ⟨?_, hcells⟩
  cases hcase with
  | tooDeep => exact hm
  | missing hsame => exact hm.of_functions hsame.functions
  | @ran frame _ m₁ m₂ hp hbody =>
    have hbodies := hQ f (hm name f hf).2
    have hstart : Machine.Stocked Q { m₁ with frames := frame :: m₁.frames } :=
      hm.of_functions (popParams_eq_ok hp).functions
    have hk := hrun f.body f.body _ hbodies hbodies hstart
    rw [hbody] at hk
    exact hk.stocked

theorem maintained_step (hi : Supplied Q i) (hop : i.op.isStep = true) (hm : m.Stocked Q) :
    Maintained Q m (step (calling limits fuel) i m).2 := by
  have hcells := cellsKept_step (m := m) (cellsKept_exec limits fuel) hop
  have hcase := stepCase (i := i) (m := m) (calling limits fuel) hop
  generalize step (calling limits fuel) i m = r at hcase hcells ⊢
  cases hcase with
  | done _ heffect => exact ⟨hm.of_functions (cellChange_of_effect? heffect).functions_eq, hcells⟩
  | failed _ hsame => exact hsame.maintained hm
  | called _ _ _ hf => exact maintained_invoke hQ hrun hm hf
  | lent _ _ _ _ _ hb => exact (callBuiltin_eq_ok hb).maintained hm
  | @registered record body hfunc hrecord hbody =>
    exact ⟨hm.insert (f := ⟨record, body⟩) (hi hfunc record body hrecord hbody), hcells⟩

end Steps

/-- Whatever code is executed, to whatever end: if the functions of the code have a property, and
those in their bodies, then so have the functions of the machine. -/
theorem maintained_exec (hQ : ∀ f, Q f → Supplies Q f.body) (limits : Limits) (fuel : Nat)
    (hall : Supplies Q all) (hrest : Supplies Q rest) (hm : m.Stocked Q) :
    Maintained Q m (exec limits fuel all rest m).2 := by
  have hupholds : Upholds limits
      (fun all rest m => Supplies Q all ∧ Supplies Q rest ∧ m.Stocked Q) (Maintained Q) :=
    { trans := Maintained.trans
      same := fun h hsame =>
        ⟨hsame.maintained h.2.2, h.1, h.2.1, h.2.2.of_functions hsame.functions⟩
      next := fun h hk _ => ⟨h.1, h.2.1.tail, hk.stocked⟩
      jump := fun h _ k => ⟨h.1, h.1.drop k, h.2.2⟩
      enter := fun h hop => ⟨h.2.1.children hop, h.2.1.children hop, h.2.2⟩
      step := fun hrun h hop => maintained_step hQ
        (fun all rest m ha hr hm => hrun all rest m ⟨ha, hr, hm⟩) h.2.1.head hop h.2.2 }
  exact hupholds.exec fuel ⟨hall, hrest, hm⟩

end Machine

end UnitScript
