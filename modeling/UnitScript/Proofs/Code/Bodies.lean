import UnitScript.Proofs.Code.Exact

/-!
# Function bodies read back

The body of a function is kept in its binary form and decoded when the function is registered. The
writer refuses names that are too long but lets counts wrap around, so what it accepts reads back
only for code of a good shape whose binary form is not too long; the length then bounds all counts.
-/

namespace UnitScript

namespace Instruction

/-- All instructions of some code have a property, those in scopes included. -/
def Throughout (P : Instruction → Prop) (c : List Instruction) : Prop := ∀ i ∈ walkAll c, P i

instance {P : Instruction → Prop} [DecidablePred P] (c : List Instruction) :
    Decidable (Throughout P c) :=
  inferInstanceAs (Decidable (∀ i ∈ walkAll c, P i))

variable {P Q : Instruction → Prop} {c d : List Instruction} {i : Instruction}

theorem walkAll_append (c d : List Instruction) : walkAll (c ++ d) = walkAll c ++ walkAll d := by
  induction c with
  | nil => rfl
  | cons i rest ih => rw [List.cons_append, walkAll, walkAll, ih, List.append_assoc]

theorem throughout_nil : Throughout P [] := by
  intro i hi
  cases hi

theorem throughout_append : Throughout P (c ++ d) ↔ Throughout P c ∧ Throughout P d := by
  unfold Throughout
  rw [walkAll_append, List.forall_mem_append]

theorem Throughout.append (hc : Throughout P c) (hd : Throughout P d) : Throughout P (c ++ d) :=
  throughout_append.2 ⟨hc, hd⟩

theorem throughout_single (hi : P i) (hchildren : i.op = .scope → Throughout P i.children) :
    Throughout P [i] := by
  obtain ⟨op⟩ := i
  intro j hj
  rw [walkAll, walk, walkAll, List.append_nil] at hj
  rcases List.mem_cons.1 hj with rfl | hj
  · exact hi
  · split at hj
    · next hop => exact hchildren hop j hj
    · cases hj

theorem Throughout.cons (hi : Throughout P [i]) (hc : Throughout P c) : Throughout P (i :: c) :=
  hi.append hc

theorem Throughout.imp (h : Throughout P c) (hPQ : ∀ i, P i → Q i) : Throughout Q c :=
  fun i hi => hPQ i (h i hi)

theorem Throughout.first (h : Throughout P (i :: c)) : Throughout P [i] :=
  (throughout_append (c := [i]) (d := c)).1 h |>.1

theorem Throughout.tail (h : Throughout P (i :: c)) : Throughout P c :=
  (throughout_append (c := [i]) (d := c)).1 h |>.2

theorem Throughout.head (h : Throughout P (i :: c)) : P i := by
  refine h i ?_
  obtain ⟨op⟩ := i
  exact List.mem_cons_self

theorem Throughout.children (h : Throughout P (i :: c)) (hop : i.op = .scope) :
    Throughout P i.children := by
  obtain ⟨op⟩ := i
  subst hop
  intro j hj
  exact h j (List.mem_append_left _ (List.mem_cons_of_mem _ hj))

/-- What representability asks of an instruction, except for what the writer checks and for the
limits. -/
structure Formed (i : Instruction) : Prop where
  known : i.op.isKnown
  trimmed : i.trimmed = i
  argCount : i.args.length ≤ 255
  target : -2 ^ 31 ≤ i.target ∧ i.target < 2 ^ 31

/-- The counts and lengths that the writer does not check fit their fields. -/
structure WithinLimits (i : Instruction) : Prop where
  params : ∀ f ∈ i.func, f.params.length ≤ 0xFFFF
  bodies : ∀ f ∈ i.func, f.body.length ≤ 2 ^ 28
  children : i.children.length < 2 ^ 32

instance (i : Instruction) : Decidable i.WithinLimits :=
  decidable_of_iff ((∀ f ∈ i.func, f.params.length ≤ 0xFFFF) ∧
      (∀ f ∈ i.func, f.body.length ≤ 2 ^ 28) ∧ i.children.length < 2 ^ 32)
    ⟨fun ⟨h₁, h₂, h₃⟩ => ⟨h₁, h₂, h₃⟩, fun ⟨h₁, h₂, h₃⟩ => ⟨h₁, h₂, h₃⟩⟩

/-- What representability asks of an instruction, except for what the writer checks and what a bound
on the length of the written form gives. -/
structure Shaped (i : Instruction) : Prop where
  known : i.op.isKnown
  trimmed : i.trimmed = i
  argCount : i.args.length ≤ 255
  target : -2 ^ 31 ≤ i.target ∧ i.target < 2 ^ 31
  paramCount : ∀ f ∈ i.func, f.params.length ≤ 0xFFFF

theorem Shaped.formed (h : i.Shaped) : i.Formed := ⟨h.known, h.trimmed, h.argCount, h.target⟩

/-- The body of a function is not longer than what can be read. -/
def Roomy (i : Instruction) : Prop := i.op = .func → ∀ f ∈ i.func, f.body.length ≤ 2 ^ 28

instance (i : Instruction) : Decidable i.Roomy :=
  inferInstanceAs (Decidable (i.op = .func → ∀ f ∈ i.func, f.body.length ≤ 2 ^ 28))

end Instruction

namespace Decoding

open Instruction

variable {i : Instruction} {is : List Instruction} {w : Bytes}

theorem representable_of_encode_operands {args : List Operand}
    (h : Encoding.operands args = .ok w) : ∀ a ∈ args, a.Representable := by
  simp only [Encoding.operands, ok_bind, ok_return] at h
  obtain ⟨v, hv, -⟩ := h
  induction args generalizing v with
  | nil => simp
  | cons a args ih =>
    obtain ⟨w₁, w₂, ha, hargs, rfl⟩ := encode_each_cons.1 hv
    intro b hb
    rcases List.mem_cons.1 hb with rfl | hb
    · exact representable_of_encode_operand ha
    · exact ih w₂ hargs b hb

theorem representable_of_encode_slots {params : List Slot}
    (h : Encoding.each Encoding.slot params = .ok w) : ∀ p ∈ params, p.Representable := by
  induction params generalizing w with
  | nil => simp
  | cons p params ih =>
    obtain ⟨w₁, w₂, hp, hparams, rfl⟩ := encode_each_cons.1 h
    intro q hq
    rcases List.mem_cons.1 hq with rfl | hq
    · simp only [Encoding.slot, ok_bind, ok_return] at hp
      obtain ⟨v, hv, -⟩ := hp
      exact (encode_name_eq_ok.1 hv).1
    · exact ih hparams q hq

theorem body_le_of_encode_function {f : FunctionRecord} (h : Encoding.function f = .ok w) :
    f.body.length ≤ w.length := by
  simp only [Encoding.function, ok_bind, ok_return] at h
  obtain ⟨w₁, -, w₂, -, rfl⟩ := h
  simp only [Encoding.longString, List.length_append]
  omega

theorem representable_of_encode_function {f : FunctionRecord} (h : Encoding.function f = .ok w)
    (hcount : f.params.length ≤ 0xFFFF) (hbody : f.body.length ≤ 2 ^ 28) : f.Representable := by
  simp only [Encoding.function, ok_bind, ok_return] at h
  obtain ⟨w₁, hname, w₂, hparams, -⟩ := h
  exact ⟨(encode_name_eq_ok.1 hname).1, hcount, representable_of_encode_slots hparams, hbody⟩

theorem args_representable (htrimmed : i.trimmed = i) (hw : WrittenTail i w) :
    ∀ a ∈ i.args, a.Representable := by
  have htrim := congrArg Instruction.args htrimmed
  obtain ⟨op, args, storage, relation, target, children, func⟩ := i
  cases op
  case nop | jmp | scope | func =>
    have hnone : args = [] := htrim.symm
    simp [hnone]
  case var | alloc | cmp | jeq | jne =>
    obtain ⟨v, hv, -⟩ := hw
    exact representable_of_encode_operands hv
  case unknown => exact absurd hw id
  all_goals exact representable_of_encode_operands hw

theorem fits_of_limits (hi : i.Formed) (hlimits : i.WithinLimits) (hw : WrittenTail i w) :
    i.Fits := by
  refine ⟨hi.known, hi.trimmed, hi.argCount, args_representable hi.trimmed hw, hi.target, ?_⟩
  intro f hf
  obtain ⟨g, hg, hwritten⟩ := hw.record (op_of_trimmed hi.trimmed hf)
  obtain rfl : g = f := Option.some.inj (hg.symm.trans hf)
  exact representable_of_encode_function hwritten (hlimits.params g hf) (hlimits.bodies g hf)

theorem allRepresentable_of_limits (his : Throughout Formed is) (hlimits : Throughout WithinLimits is)
    (hw : Encoding.instructions is = .ok w) : AllRepresentable is := by
  induction is using induction_code generalizing w with
  | nil => trivial
  | cons i is ihc ih =>
    obtain ⟨v, more, rfl, hv, hmore⟩ := written_cons hw
    have hi := his.head
    refine ⟨(representable_iff i).2 ⟨fits_of_limits hi hlimits.head hv, hlimits.head.children, ?_⟩,
      ih his.tail hlimits.tail hmore⟩
    by_cases hop : i.op = .scope
    · obtain ⟨u, hu, -⟩ := hv.children hop
      exact ihc (his.children hop) (hlimits.children hop) hu
    · rw [children_of_trimmed hi.trimmed hop]
      trivial

theorem length_le_of_encode (h : Encoding.instructions is = .ok w) : is.length ≤ w.length := by
  induction is generalizing w with
  | nil => exact Nat.zero_le _
  | cons i is ih =>
    obtain ⟨w₁, w₂, hw₁, hw₂, rfl⟩ := encode_instructions_cons.1 h
    obtain ⟨v, rfl, -⟩ := encode_instruction_eq_ok.1 hw₁
    have := ih hw₂
    simp only [List.length_append, List.length_cons]
    omega

/-- The length of an instruction's written form bounds what is in it: the number of its children and
the length of a function's body. -/
structure HeldIn (n : Nat) (i : Instruction) : Prop where
  children : i.op = .scope → i.children.length ≤ n
  body : i.op = .func → ∀ f ∈ i.func, f.body.length ≤ n

theorem HeldIn.mono {n k : Nat} (h : HeldIn n i) (hnk : n ≤ k) : HeldIn k i :=
  ⟨fun hop => Nat.le_trans (h.children hop) hnk, fun hop f hf => Nat.le_trans (h.body hop f hf) hnk⟩

theorem heldIn_of_encode (h : Encoding.instructions is = .ok w) : Throughout (HeldIn w.length) is := by
  induction is using induction_code generalizing w with
  | nil => exact throughout_nil
  | cons i is ihc ih =>
    obtain ⟨v, more, rfl, hv, hmore⟩ := written_cons h
    have hbound : v.length ≤ (i.op.toByte :: (v ++ more)).length := by simp; omega
    refine (throughout_single (HeldIn.mono ⟨fun hop => ?_, fun hop f hf => ?_⟩ hbound)
      fun hop => ?_).cons ((ih hmore).imp fun j hj => hj.mono (by simp; omega))
    · obtain ⟨u, hu, rfl⟩ := hv.children hop
      exact Nat.le_trans (length_le_of_encode hu) (by simp)
    · obtain ⟨g, hg, hwritten⟩ := hv.record hop
      obtain rfl : g = f := Option.some.inj (hg.symm.trans hf)
      exact body_le_of_encode_function hwritten
    · obtain ⟨u, hu, rfl⟩ := hv.children hop
      exact (ihc hu).imp fun j hj => hj.mono (by simp; omega)

theorem allRepresentable_of_encode (his : Throughout Shaped is) (hw : Encoding.instructions is = .ok w)
    (hlen : w.length ≤ 2 ^ 28) : AllRepresentable is := by
  refine allRepresentable_of_limits (his.imp fun _ h => h.formed) (fun i hi => ?_) hw
  have hshaped := his i hi
  have hheld := heldIn_of_encode hw i hi
  refine ⟨hshaped.paramCount, fun f hf => ?_, ?_⟩
  · exact Nat.le_trans (hheld.body (op_of_trimmed hshaped.trimmed hf) f hf) hlen
  · by_cases hop : i.op = .scope
    · have hcount := hheld.children hop
      omega
    · rw [children_of_trimmed hshaped.trimmed hop]
      exact Nat.two_pow_pos 32

theorem runCode_of_encode (his : Throughout Shaped is) (h : Encoding.code is = .ok w)
    (hlen : w.length ≤ 2 ^ 28) : runCode w = .ok is := by
  obtain ⟨v, hv, hw⟩ := encode_code_eq_ok.1 h
  have hcount := length_le_of_encode hv
  have hv' : v.length ≤ 2 ^ 28 := by
    rw [← hw, List.length_append] at hlen
    omega
  have hrep : Representable is := ⟨by omega, allRepresentable_of_encode his hv hv'⟩
  have hread := exact_code.complete ⟨hrep, h⟩ []
  rw [List.append_nil] at hread
  change Except.map Prod.fst (code w) = _
  rw [hread]
  rfl

theorem roomy_of_encode (h : Encoding.code is = .ok w) (hlen : w.length ≤ 2 ^ 28) :
    Throughout Roomy is := by
  obtain ⟨v, hv, rfl⟩ := encode_code_eq_ok.1 h
  rw [List.length_append] at hlen
  refine (heldIn_of_encode hv).imp fun j hj hop f hf => ?_
  have := hj.body hop f hf
  omega

end Decoding

end UnitScript
