import UnitScript.Lowering.Expr
import UnitScript.Proofs.Machine.Execution
import UnitScript.Proofs.Meaning.Direct

/-!
# Operators of the machine

The arithmetic of the machine is that of whole numbers, wrapped to 64 bits; its reads through a
pointer are those of the blocks of the heap.
-/

namespace UnitScript.Meaning

open Machine

attribute [local simp] Except.toOption Machine.arith

theorem toOption_arith_add (a b : Value) : (arith .add a b).toOption = plus a b := by
  have h : ∀ x y : Int64, Int64.ofInt (x.toInt + y.toInt) = x + y := by
    intro x y
    rw [Int64.ofInt_add, Int64.ofInt_toInt, Int64.ofInt_toInt]
  cases a <;> cases b <;> simp [plus, wrapped, Value.move, h]

theorem toOption_arith_sub (a b : Value) : (arith .sub a b).toOption = minus a b := by
  have h : ∀ x y : Int64, Int64.ofInt (x.toInt - y.toInt) = x - y := by
    intro x y
    rw [Int64.ofInt_sub, Int64.ofInt_toInt, Int64.ofInt_toInt]
  cases a <;> cases b <;>
    simp [minus, wrapped, Value.move, h, Int64.sub_eq_add_neg]

theorem toOption_arith_mul (a b : Value) : (arith .mul a b).toOption = times a b := by
  have h : ∀ x y : Int64, Int64.ofInt (x.toInt * y.toInt) = x * y := by
    intro x y
    rw [Int64.ofInt_mul, Int64.ofInt_toInt, Int64.ofInt_toInt]
  cases a <;> cases b <;> simp [times, wrapped, h]

theorem toOption_arith_div (a b : Value) : (arith .div a b).toOption = quotient a b := by
  have h : ∀ x y : Int64, Int64.ofInt (x.toInt.tdiv y.toInt) = x / y := by
    intro x y
    rw [Int64.ofInt_tdiv (Int64.minValue_le_toInt x) (Int64.toInt_le x) (Int64.minValue_le_toInt y)
      (Int64.toInt_le y), Int64.ofInt_toInt, Int64.ofInt_toInt]
  have hz : ∀ y : Int64, y.toInt = 0 ↔ y = 0 := by
    intro y
    rw [← Int64.toInt_inj]
    rfl
  cases a <;> cases b <;> simp only [arith, quotient, wrapped, h, hz]
  case int.int x y =>
    by_cases hy : y = 0
    · rw [if_pos hy, if_pos hy]
      rfl
    · rw [if_neg hy, if_neg hy]
      rfl
  all_goals rfl

def compared? (r : Relation) (a b : Value) : Option Value :=
  (Machine.compare r a b).toOption.map truth

theorem compared?_order (a b : Value) :
    compared? .lt a b = ordered (· < ·) a b ∧ compared? .le a b = ordered (· ≤ ·) a b ∧
      compared? .gt a b = ordered (· > ·) a b ∧ compared? .ge a b = ordered (· ≥ ·) a b := by
  cases a <;> cases b <;>
    simp only [compared?, Machine.compare, ordered, Int64.lt_iff_toInt_lt,
      Int64.le_iff_toInt_le] <;>
    exact ⟨rfl, rfl, rfl, rfl⟩

theorem effect?_combine {op : Operator} (hop : (op.isArithmetic || op.isComparison) = true)
    (m : Machine) (a b dst : Operand) :
    m.effect? (Lowering.combine op a b dst) =
      (do m.assign? dst (← operation op (← m.value? a) (← m.value? b))) := by
  have harith : ∀ (o : Opcode) (f : Value → Value → Option Value),
      (o = .add ∨ o = .sub ∨ o = .mul ∨ o = .div) →
      (∀ x y, (arith o x y).toOption = f x y) →
      m.effect? (.arith o a b dst) = (do m.assign? dst (← f (← m.value? a) (← m.value? b))) := by
    intro o f ho hf
    have heq : m.effect? (.arith o a b dst) =
        (do m.assign? dst (← (arith o (← m.value? a) (← m.value? b)).toOption)) := by
      rcases ho with rfl | rfl | rfl | rfl <;> rfl
    simp only [heq, hf]
  have hcmp : ∀ (r : Relation) (f : Value → Value → Option Value),
      (∀ x y, compared? r x y = f x y) →
      m.effect? (.cmp r a b dst) = (do m.assign? dst (← f (← m.value? a) (← m.value? b))) := by
    intro r f hf
    have heq : m.effect? (.cmp r a b dst) =
        (do m.assign? dst (← compared? r (← m.value? a) (← m.value? b))) := by
      simp only [effect?, Instruction.cmp, compared?]
      cases m.value? a with
      | none => rfl
      | some x =>
        cases m.value? b with
        | none => rfl
        | some y => cases hc : Machine.compare r x y <;> simp [truth, hc]
    simp only [heq, hf]
  cases op with
  | add => exact harith _ _ (by simp) toOption_arith_add
  | sub => exact harith _ _ (by simp) toOption_arith_sub
  | mul => exact harith _ _ (by simp) toOption_arith_mul
  | div => exact harith _ _ (by simp) toOption_arith_div
  | eq => exact hcmp _ _ fun x y => rfl
  | ne => exact hcmp _ _ fun x y => rfl
  | lt => exact hcmp _ _ fun x y => (compared?_order x y).1
  | le => exact hcmp _ _ fun x y => (compared?_order x y).2.1
  | gt => exact hcmp _ _ fun x y => (compared?_order x y).2.2.1
  | ge => exact hcmp _ _ fun x y => (compared?_order x y).2.2.2
  | assign | declare | other => cases hop

theorem isLocal_combine (op : Operator) (a b dst : Operand) :
    (Lowering.combine op a b dst).op.isLocal = true := by
  cases op <;> rfl

theorem cell_of_block (h : Heap) (block i : Nat) :
    (h[block]?.bind fun cells => cells[i]?) =
      if h.blockSize block ≤ i then none else some ((h[block]?.getD #[])[i]?.getD .null) := by
  unfold Heap.blockSize
  cases h[block]? with
  | none => simp
  | some cells =>
    by_cases hsize : cells.size ≤ i
    · simp [hsize]
    · have hin : i < cells.size := by omega
      simp [hin]

theorem toOption_read (h : Heap) (v : Value) : (h.read v).toOption = fetch? h v := by
  cases v with
  | ptr block offset =>
    have hneg : (offset < 0) = (offset.toInt < 0) := by
      rw [Int64.lt_iff_toInt_lt]
      rfl
    have hnat : offset.toInt.toNat = offset.toNatClampNeg := rfl
    simp only [Heap.read, Value.address, fetch?, hneg, hnat, cell_of_block]
    by_cases hlt : offset.toInt < 0
    · simp [hlt]
    · by_cases hsize : h.blockSize block ≤ offset.toNatClampNeg
      · simp [hlt, hsize]
      · simp [hlt, hsize]
  | null | int | nowhere | string | func | invalid => rfl

end UnitScript.Meaning
