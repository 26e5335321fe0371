import Mathlib.Data.List.Forall2
import UnitScript.Proofs.Code.Limits

/-!
# Code with other cells

Two pieces of code correspond if they differ in operands only, in scopes and in the bodies of
functions too, where the bodies are compared as code and not as they are written. If corresponding
operands can both be written or fail to be for one reason, then so can corresponding code.
-/

namespace UnitScript

/-- The operand for a cell under another name. -/
def Operand.rename (ρ : Name → Name) : Operand → Operand
  | .cell x => .cell (ρ x)
  | .imm v => .imm v
  | .data x => .data x
  | .func x => .func x
  | .unknown code => .unknown code

def Opcode.isFlat : Opcode → Bool
  | scope | func => false
  | _ => true

namespace Instruction

/-- The code is written as `w`, and `w` reads back as the code just if its counts and lengths fit
the fields of the binary form. -/
structure IsBody (c : List Instruction) (w : Bytes) : Prop where
  written : Encoding.code c = .ok w
  read_iff : Decoding.runCode w = .ok c ↔ c.length < 2 ^ 32 ∧ Throughout WithinLimits c

/-- The same instructions with corresponding operands, at every level of scopes and functions. -/
inductive Corresponds (R : Operand → Operand → Prop) :
    List Instruction → List Instruction → Prop where
  | nil : Corresponds R [] []
  | plain {i args c c'} : i.op.isFlat = true → List.Forall₂ R i.args args → Corresponds R c c' →
      Corresponds R (i :: c) ({ i with args := args } :: c')
  | scope {d d' c c'} : Corresponds R d d' → Corresponds R c c' →
      Corresponds R (.scope d :: c) (.scope d' :: c')
  | func {name params result b b' w w' c c'} : IsBody b w → IsBody b' w' → Corresponds R b b' →
      Corresponds R c c' → Corresponds R (.function ⟨name, params, result, w⟩ :: c)
        (.function ⟨name, params, result, w'⟩ :: c')

/-- The same instructions with other names for cells. -/
def Renamed (ρ : Name → Name) : List Instruction → List Instruction → Prop :=
  Corresponds fun o o' => o' = o.rename ρ

variable {R S : Operand → Operand → Prop} {c c' d d' : List Instruction} {i : Instruction}

theorem Corresponds.mono (h : Corresponds R c c') (hRS : ∀ o o', R o o' → S o o') :
    Corresponds S c c' := by
  induction h with
  | nil => exact .nil
  | plain hflat hargs _ ih => exact .plain hflat (hargs.imp hRS) ih
  | scope _ _ ihd ihc => exact .scope ihd ihc
  | func hb hb' _ _ ihb ihc => exact .func hb hb' ihb ihc

theorem Corresponds.append (hc : Corresponds R c c') (hd : Corresponds R d d') :
    Corresponds R (c ++ d) (c' ++ d') := by
  induction hc with
  | nil => exact hd
  | plain hflat hargs _ ih => exact .plain hflat hargs ih
  | scope hchildren _ _ ih => exact .scope hchildren ih
  | func hb hb' hbody _ _ ih => exact .func hb hb' hbody ih

theorem corresponds_single {args : List Operand} (hflat : i.op.isFlat = true)
    (hargs : List.Forall₂ R i.args args) : Corresponds R [i] [{ i with args := args }] :=
  .plain hflat hargs .nil

end Instruction

/-! ## Writing code that corresponds -/

section Fates

variable {ε α β γ δ : Type} {x : Except ε α} {y : Except ε β} {f : α → Except ε γ}
  {g : β → Except ε δ}

/-- Both computations succeed, or both fail for the same reason. -/
inductive SameFate : Except ε α → Except ε β → Prop where
  | ok (a : α) (b : β) : SameFate (.ok a) (.ok b)
  | error (e : ε) : SameFate (.error e) (.error e)

theorem SameFate.refl (x : Except ε α) : SameFate x x := by
  cases x with
  | ok a => exact .ok a a
  | error e => exact .error e

theorem SameFate.bind (h : SameFate x y) (hfg : ∀ a b, SameFate (f a) (g b)) :
    SameFate (x >>= f) (y >>= g) := by
  cases h with
  | ok a b => exact hfg a b
  | error e => exact .error e

theorem SameFate.map (h : SameFate x y) (k : α → γ) (l : β → δ) :
    SameFate (x >>= fun a => pure (k a)) (y >>= fun b => pure (l b)) :=
  h.bind fun a b => .ok (k a) (l b)

end Fates

namespace Encoding

open Instruction

variable {R : Operand → Operand → Prop} {c c' : List Instruction} {args args' : List Operand}

theorem sameFate_function (f : FunctionRecord) (w w' : Bytes) :
    SameFate (function { f with body := w }) (function { f with body := w' }) := by
  unfold function
  refine (SameFate.refl (name f.name)).bind fun _ _ => ?_
  exact (SameFate.refl (each slot f.params)).map _ _

section Operands

variable (hR : ∀ o o', R o o' → SameFate (operand o) (operand o'))
include hR

theorem sameFate_operands (h : List.Forall₂ R args args') :
    SameFate (operands args) (operands args') := by
  refine SameFate.map ?_ _ _
  induction h with
  | nil => exact .ok _ _
  | cons ho _ ih => exact (hR _ _ ho).bind fun _ _ => ih.map _ _

theorem sameFate_plain {i : Instruction} (hflat : i.op.isFlat = true)
    (h : List.Forall₂ R i.args args') :
    SameFate (instruction i) (instruction { i with args := args' }) := by
  obtain ⟨op, args, storage, relation, target, children, func⟩ := i
  have hargs := sameFate_operands hR h
  cases op with
  | scope | func => cases hflat
  | nop | jmp => exact .ok _ _
  | unknown => exact .error _
  | var | mov | add | sub | mul | div | cmp | alloc | pmov | deref | push | pop | call | ret | jeq
  | jne => exact hargs.map _ _

theorem sameFate_instructions (h : Corresponds R c c') :
    SameFate (instructions c) (instructions c') := by
  induction h with
  | nil => exact .refl _
  | plain hflat hargs _ ih => exact (sameFate_plain hR hflat hargs).bind fun _ _ => ih.map _ _
  | scope _ _ ihd ihc => exact (ihd.map _ _).bind fun _ _ => ihc.map _ _
  | @func title params result _ _ w w' _ _ _ _ _ _ _ ih =>
    refine SameFate.bind ?_ fun _ _ => ih.map _ _
    exact (sameFate_function ⟨title, params, result, w⟩ w w').map _ _

theorem sameFate_code (h : Corresponds R c c') : SameFate (code c) (code c') :=
  (sameFate_instructions hR h).map _ _

end Operands

end Encoding

namespace Instruction

theorem isBody_of_encode {c : List Instruction} {w : Bytes} (hc : Throughout Formed c)
    (h : Encoding.code c = .ok w) : IsBody c w := by
  refine ⟨h, ?_, ?_⟩
  · intro hread
    have hrep : UnitScript.Representable c := by
      obtain ⟨rest, hcode⟩ : ∃ rest, Decoding.code w = .ok (c, rest) := by
        change Except.map Prod.fst (Decoding.code w) = _ at hread
        cases hcode : Decoding.code w with
        | error e =>
          rw [hcode] at hread
          cases hread
        | ok p =>
          rw [hcode] at hread
          cases hread
          exact ⟨p.2, rfl⟩
      obtain ⟨_, ⟨hrep, -⟩, -⟩ := (Decoding.exact_code w c rest).1 hcode
      exact hrep
    exact ⟨hrep.1, throughout_of_allRepresentable hrep.2⟩
  · rintro ⟨hcount, hlimits⟩
    obtain ⟨v, hv, -⟩ := Decoding.encode_code_eq_ok.1 h
    have hrep : UnitScript.Representable c :=
      ⟨hcount, Decoding.allRepresentable_of_limits hc hlimits hv⟩
    have hread := Decoding.exact_code.complete ⟨hrep, h⟩ []
    rw [List.append_nil] at hread
    change Except.map Prod.fst (Decoding.code w) = _
    rw [hread]
    rfl

end Instruction

end UnitScript
