import UnitScript.Hazard.Report
import UnitScript.Proofs.Lowering.Signatures

/-!
# The names that a walk knows

A walk keeps the names of open blocks, those of closed ones and those that it has reported as escaped.
Together with the prelude they are the names that have been declared, so that nothing is ever forgotten:
a name that leaves one of the collections enters another. These are the names that compilation has
recorded a kind for, since it records what a block declares and never drops a record.
-/

namespace UnitScript

namespace Escape

variable {prelude : Prelude} {functions : List Name} {w : Walk} {name : Name}

namespace Walk

/-- The name comes with the prelude or has been declared. -/
def Knows (prelude : Prelude) (w : Walk) (name : Name) : Prop :=
  w.isOpen name = true ∨ prelude.contains name = true ∨ name ∈ w.reported ∨ name ∈ w.closed

theorem knows_start : start.Knows prelude name ↔ prelude.contains name = true := by
  simp [Knows, start, isOpen]

theorem knows_enter : w.enter.Knows prelude name ↔ w.Knows prelude name := by
  simp [Knows, enter, isOpen]

/-- The names of a block that is left are those of a closed block, unless one around it has them. -/
theorem knows_leave : w.leave.Knows prelude name ↔ w.Knows prelude name := by
  obtain ⟨blocks, closed, reported, found⟩ := w
  cases blocks with
  | nil => rfl
  | cons block outer =>
    simp only [Knows, leave, isOpen, List.any_cons, Bool.or_eq_true, decide_eq_true_eq,
      List.mem_append, List.mem_filter, Bool.not_eq_true']
    by_cases hopen : (outer.any fun b => decide (name ∈ b)) = true
    · simp [hopen]
    · rw [Bool.not_eq_true] at hopen
      simp only [hopen]
      grind

theorem knows_declare {declared : Name} :
    (w.declare declared).Knows prelude name ↔ name = declared ∨ w.Knows prelude name := by
  obtain ⟨blocks, closed, reported, found⟩ := w
  by_cases hname : name = declared
  · cases blocks <;> simp [Knows, declare, isOpen, hname]
  · cases blocks <;> simp [Knows, declare, isOpen, hname]

theorem knows_declareAll {names : List Name} :
    (w.declareAll names).Knows prelude name ↔ name ∈ names ∨ w.Knows prelude name := by
  induction names generalizing w with
  | nil => simp [declareAll]
  | cons first rest ih =>
    rw [declareAll, ih, knows_declare, List.mem_cons, or_left_comm, or_assoc]

/-- A name that has escaped goes from the closed blocks to the reported ones. -/
theorem knows_use {u : Use} :
    (w.use prelude functions u).Knows prelude name ↔ w.Knows prelude name := by
  unfold use
  split
  · rfl
  · split
    · next hclosed =>
      by_cases hname : name = u.name
      · simp [Knows, hname, hclosed]
      · simp [Knows, isOpen, hname]
    · split <;> rfl

theorem knows_useAll {us : List Use} :
    (w.useAll prelude functions us).Knows prelude name ↔ w.Knows prelude name := by
  induction us generalizing w with
  | nil => rfl
  | cons u rest ih => exact ih.trans knows_use

/-! ## What is found -/

theorem found_use_eq_self_iff {u : Use} :
    (w.use prelude functions u).found = .self u.name u.pos :: w.found ↔
      ¬w.Knows prelude u.name ∧ u.name ∈ functions := by
  have hgrows : ∀ h : Hazard, w.found ≠ h :: w.found := fun h heq =>
    absurd (congrArg List.length heq) (by simp)
  unfold use Knows
  split
  · next hknown =>
    simp only [Bool.or_eq_true, decide_eq_true_eq] at hknown
    exact iff_of_false (hgrows _) fun h => h.1 (by grind)
  · next hunknown =>
    simp only [Bool.or_eq_true, decide_eq_true_eq, not_or] at hunknown
    split
    · next hclosed =>
      refine iff_of_false ?_ fun h => h.1 (.inr (.inr (.inr hclosed)))
      simp [Hazard.escaped, Hazard.self]
    · next hclosed =>
      split
      · next hfunction =>
        exact iff_of_true rfl ⟨by grind, hfunction⟩
      · next hfunction => exact iff_of_false (hgrows _) fun h => hfunction h.2

theorem found_use_suffix (prelude : Prelude) (functions : List Name) (w : Walk) (u : Use) :
    w.found <:+ (w.use prelude functions u).found := by
  unfold use
  split
  · exact List.suffix_rfl
  · split
    · exact List.suffix_cons _ _
    · split
      · exact List.suffix_cons _ _
      · exact List.suffix_rfl

@[simp] theorem found_enter : w.enter.found = w.found := rfl

@[simp] theorem found_declare (name : Name) : (w.declare name).found = w.found := rfl

@[simp] theorem found_leave : w.leave.found = w.found := by
  unfold leave
  split <;> rfl

end Walk

end Escape

namespace Lowering

variable {st st' : State} {name : Name}

def State.HasKind (st : State) (name : Name) : Prop := (st.symbols.lookup? name).isSome = true

theorem Records.hasKind_iff {entries : List (Name × Kind)} (h : Records st st' entries) :
    st'.HasKind name ↔ name ∈ entries.map (·.1) ∨ st.HasKind name := by
  unfold Records at h
  unfold State.HasKind Symbols.lookup?
  rw [h, NameMap.isSome_get?_foldl_insert]

theorem Extends.hasKind_iff (h : Extends st st') : st'.HasKind name ↔ st.HasKind name := by
  unfold State.HasKind
  rw [h.symbols]

end Lowering

end UnitScript
