import Mathlib.Algebra.Group.Int.Defs
import Mathlib.Algebra.Group.Nat.Defs
import UnitScript.Code.Encoding

/-!
# Representable code

Code is representable when the binary form has room for all of it: every opcode and operand kind is
known, an instruction sets only the fields that its opcode writes, and all counts and lengths fit
their fields.
-/

namespace UnitScript

namespace Opcode

@[simp] def hasStorage : Opcode → Bool
  | var | alloc => true
  | _ => false

@[simp] def hasRelation : Opcode → Bool
  | cmp => true
  | _ => false

@[simp] def hasTarget : Opcode → Bool
  | jeq | jne | jmp => true
  | _ => false

@[simp] def hasArgs : Opcode → Bool
  | nop | jmp | scope | func => false
  | _ => true

end Opcode

/-- An operand of a known kind whose name fits its length field. -/
def Operand.Representable : Operand → Prop
  | .imm _ => True
  | .cell s => s.length ≤ 0xFFFF
  | .data s => s.length ≤ 0xFFFF
  | .func s => s.length ≤ 0xFFFF
  | .unknown _ => False

instance (o : Operand) : Decidable o.Representable :=
  match o with
  | .imm _ => .isTrue trivial
  | .cell s => inferInstanceAs (Decidable (s.length ≤ 0xFFFF))
  | .data s => inferInstanceAs (Decidable (s.length ≤ 0xFFFF))
  | .func s => inferInstanceAs (Decidable (s.length ≤ 0xFFFF))
  | .unknown _ => .isFalse id

def Slot.Representable (p : Slot) : Prop := p.name.length ≤ 0xFFFF

instance (p : Slot) : Decidable p.Representable := inferInstanceAs (Decidable (_ ≤ _))

/-- A function record whose names, parameter count and body fit their fields. -/
structure FunctionRecord.Representable (f : FunctionRecord) : Prop where
  name : f.name.length ≤ 0xFFFF
  count : f.params.length ≤ 0xFFFF
  params : ∀ p ∈ f.params, p.Representable
  body : f.body.length ≤ 2 ^ 28

instance (f : FunctionRecord) : Decidable f.Representable :=
  decidable_of_iff (f.name.length ≤ 0xFFFF ∧ f.params.length ≤ 0xFFFF ∧
      (∀ p ∈ f.params, p.Representable) ∧ f.body.length ≤ 2 ^ 28)
    ⟨fun ⟨h₁, h₂, h₃, h₄⟩ => ⟨h₁, h₂, h₃, h₄⟩, fun ⟨h₁, h₂, h₃, h₄⟩ => ⟨h₁, h₂, h₃, h₄⟩⟩

namespace Instruction

/-- Induction along code: what holds of the children of an instruction and of the code behind it holds
of the code from it on. -/
@[elab_as_elim]
theorem induction_code {motive : List Instruction → Prop} (nil : motive [])
    (cons : ∀ i is, motive i.children → motive is → motive (i :: is)) (is : List Instruction) :
    motive is := by
  induction hn : sizeOf is using Nat.strongRecOn generalizing is with
  | ind n ih =>
    subst hn
    cases is with
    | nil => exact nil
    | cons i is =>
      obtain ⟨op, args, storage, relation, target, children⟩ := i
      rw [List.cons.sizeOf_spec, Instruction.mk.sizeOf_spec] at ih
      exact cons _ is (ih _ (by omega) children rfl) (ih _ (by omega) is rfl)

/-- The instruction with the fields that its opcode does not write at their defaults. -/
def trimmed (i : Instruction) : Instruction where
  op := i.op
  args := if i.op.hasArgs then i.args else []
  storage := if i.op.hasStorage then i.storage else .none
  relation := if i.op.hasRelation then i.relation else .eq
  target := if i.op.hasTarget then i.target else 0
  children := if i.op = .scope then i.children else []
  func := if i.op = .func then i.func else none

section Trimmed

variable {i : Instruction} (h : i.trimmed = i)
include h

theorem children_of_trimmed (hop : i.op ≠ .scope) : i.children = [] := by
  rw [← h]
  exact if_neg hop

theorem op_of_trimmed {f : FunctionRecord} (hf : f ∈ i.func) : i.op = .func := by
  by_cases hop : i.op = .func
  · exact hop
  · rw [← h, trimmed, if_neg hop] at hf
    cases hf

end Trimmed

/-- What representability asks of an instruction apart from its children: its opcode is known, it
sets only the fields that the opcode writes, and these fit. -/
structure Fits (i : Instruction) : Prop where
  known : i.op.isKnown
  trimmed : i.trimmed = i
  argCount : i.args.length ≤ 255
  args : ∀ a ∈ i.args, a.Representable
  target : -2 ^ 31 ≤ i.target ∧ i.target < 2 ^ 31
  func : ∀ f ∈ i.func, f.Representable

instance (i : Instruction) : Decidable i.Fits :=
  decidable_of_iff (i.op.isKnown ∧ i.trimmed = i ∧ i.args.length ≤ 255 ∧
      (∀ a ∈ i.args, a.Representable) ∧ (-2 ^ 31 ≤ i.target ∧ i.target < 2 ^ 31) ∧
      ∀ f ∈ i.func, f.Representable)
    ⟨fun ⟨h₁, h₂, h₃, h₄, h₅, h₆⟩ => ⟨h₁, h₂, h₃, h₄, h₅, h₆⟩,
      fun ⟨h₁, h₂, h₃, h₄, h₅, h₆⟩ => ⟨h₁, h₂, h₃, h₄, h₅, h₆⟩⟩

mutual

def Representable : Instruction → Prop
  | ⟨op, args, storage, relation, target, children, func⟩ =>
    Fits ⟨op, args, storage, relation, target, children, func⟩ ∧ children.length < 2 ^ 32 ∧
      AllRepresentable children

def AllRepresentable : List Instruction → Prop
  | [] => True
  | i :: rest => i.Representable ∧ AllRepresentable rest

end

mutual

/-- The nesting that reading an instruction back takes: one level for each instruction in front of
it and around it. -/
def levels : Instruction → Nat
  | ⟨_, _, _, _, _, children, _⟩ => allLevels children

def allLevels : List Instruction → Nat
  | [] => 0
  | i :: rest => max i.levels (allLevels rest) + 1

end

mutual

def decRepresentable : (i : Instruction) → Decidable i.Representable
  | ⟨op, args, storage, relation, target, children, func⟩ =>
    match decAllRepresentable children with
    | isTrue h =>
      decidable_of_iff (Fits ⟨op, args, storage, relation, target, children, func⟩ ∧
        children.length < 2 ^ 32) (by simp [Representable, h])
    | isFalse h => isFalse fun hi => h (by simpa [Representable] using hi.2.2)

def decAllRepresentable : (is : List Instruction) → Decidable (AllRepresentable is)
  | [] => isTrue trivial
  | i :: rest =>
    match decRepresentable i, decAllRepresentable rest with
    | isTrue h, isTrue g => isTrue ⟨h, g⟩
    | isFalse h, _ => isFalse fun hi => h hi.1
    | _, isFalse g => isFalse fun hi => g hi.2

end

instance (is : List Instruction) : Decidable (AllRepresentable is) := decAllRepresentable is

theorem representable_iff (i : Instruction) :
    i.Representable ↔ i.Fits ∧ i.children.length < 2 ^ 32 ∧ AllRepresentable i.children := by
  cases i
  rw [Representable]

theorem levels_eq (i : Instruction) : i.levels = allLevels i.children := by
  cases i
  rw [levels]

end Instruction

def Representable (is : List Instruction) : Prop :=
  is.length < 2 ^ 32 ∧ Instruction.AllRepresentable is

instance (is : List Instruction) : Decidable (Representable is) :=
  inferInstanceAs (Decidable (_ ∧ _))

end UnitScript
