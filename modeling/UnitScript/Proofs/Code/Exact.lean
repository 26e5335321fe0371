import UnitScript.Proofs.Code.Reading
import UnitScript.Proofs.Code.Representable

/-!
# Reading code back

The reader of instructions is exact: it accepts just the encodings of representable code. The
induction is on the number of levels that the reader may go down, and its written forms are those of
code with at most that many levels; every instruction takes a byte, so the length of the input is
enough of them.
-/

namespace UnitScript.Decoding

/-! ## Operands -/

theorem encode_operand_eq_ok {o : Operand} {w : Bytes} :
    Encoding.operand o = .ok w ↔
      (∃ v : Int64, o = .imm v ∧ w = 0 :: Encoding.littleEndian 8 v.toUInt64.toNat) ∨
      ∃ k s v, (k = 1 ∨ k = 2 ∨ k = 3) ∧ o = .ofCode k s ∧ Encoding.name s = .ok v ∧
        w = k :: v := by
  constructor
  · intro h
    cases o with
    | imm v => exact .inl ⟨v, rfl, by simpa [Encoding.operand] using h.symm⟩
    | cell s =>
      simp only [Encoding.operand, ok_bind, ok_return] at h
      obtain ⟨v, hv, rfl⟩ := h
      exact .inr ⟨1, s, v, by simp, rfl, hv, rfl⟩
    | data s =>
      simp only [Encoding.operand, ok_bind, ok_return] at h
      obtain ⟨v, hv, rfl⟩ := h
      exact .inr ⟨2, s, v, by simp, rfl, hv, rfl⟩
    | func s =>
      simp only [Encoding.operand, ok_bind, ok_return] at h
      obtain ⟨v, hv, rfl⟩ := h
      exact .inr ⟨3, s, v, by simp, rfl, hv, rfl⟩
    | unknown c => simp [Encoding.operand] at h
  · rintro (⟨v, rfl, rfl⟩ | ⟨k, s, v, hk, rfl, hv, rfl⟩)
    · rfl
    · rcases hk with rfl | rfl | rfl
      all_goals
        simp only [Operand.ofCode, Encoding.operand]
        exact ok_bind.2 ⟨v, hv, rfl⟩

theorem representable_of_encode_operand {o : Operand} {w : Bytes}
    (h : Encoding.operand o = .ok w) : o.Representable := by
  rcases encode_operand_eq_ok.1 h with ⟨v, rfl, _⟩ | ⟨k, s, v, hk, rfl, hv, _⟩
  · trivial
  · have hs := (encode_name_eq_ok.1 hv).1
    rcases hk with rfl | rfl | rfl <;> exact hs

theorem exact_named {k : UInt8} (hk : k = 1 ∨ k = 2 ∨ k = 3) :
    Exact (do return Operand.ofCode k (← name)) fun o w => Encoding.operand o = .ok (k :: w) := by
  refine (exact_name.map (Operand.ofCode k)).congr ?_
  intro o w
  rw [encode_operand_eq_ok]
  constructor
  · rintro ⟨s, hs, rfl⟩
    exact .inr ⟨k, s, w, hk, rfl, hs, rfl⟩
  · rintro (⟨v, _, hw⟩ | ⟨j, s, v, _, rfl, hs, hw⟩)
    · have hzero : k = 0 := by injection hw
      subst hzero
      simp at hk
    · injection hw with hkj hwv
      subst hkj hwv
      exact ⟨s, hs, rfl⟩

theorem exact_imm :
    Exact (do return Operand.imm (UInt64.ofNat (← number 8)).toInt64) fun o w =>
      Encoding.operand o = .ok (0 :: w) := by
  refine ((exact_number 8).map fun n => Operand.imm (UInt64.ofNat n).toInt64).congr ?_
  intro o w
  rw [encode_operand_eq_ok]
  constructor
  · rintro ⟨n, ⟨hn, rfl⟩, rfl⟩
    have hround : (UInt64.ofNat n).toNat = n := by
      rw [UInt64.toNat_ofNat']
      exact Nat.mod_eq_of_lt (by omega)
    exact .inl ⟨_, rfl, by simp [hround]⟩
  · rintro (⟨v, rfl, hw⟩ | ⟨j, s, v, hj, _, _, hw⟩)
    · injection hw with _ hw
      exact ⟨v.toUInt64.toNat, ⟨v.toUInt64.toNat_lt, hw⟩, by simp⟩
    · have hzero : j = 0 := by injection hw with h _; exact h.symm
      subst hzero
      simp at hj

theorem exact_operand :
    Exact operand fun o w => o.Representable ∧ Encoding.operand o = .ok w := by
  have hkind (kind : UInt8) : Exact (do
      if kind = 0 then return .imm (UInt64.ofNat (← number 8)).toInt64
      else if kind = 1 then return .cell (← name)
      else if kind = 2 then return .data (← name)
      else if kind = 3 then return .func (← name)
      else throw (.unknownOperand kind) : Reader Operand) fun o w =>
        Encoding.operand o = .ok (kind :: w) := by
    by_cases h0 : kind = 0
    · subst h0
      exact exact_imm
    by_cases h1 : kind = 1
    · subst h1
      exact exact_named (k := 1) (by simp)
    by_cases h2 : kind = 2
    · subst h2
      exact exact_named (k := 2) (by simp)
    by_cases h3 : kind = 3
    · subst h3
      exact exact_named (k := 3) (by simp)
    intro s o rest
    simp only [h0, h1, h2, h3, if_false]
    refine iff_of_false throw_ne_ok ?_
    rintro ⟨w, hw, _⟩
    rcases encode_operand_eq_ok.1 hw with ⟨v, _, hv⟩ | ⟨j, _, _, hj, _, _, hv⟩
    · exact h0 (by injection hv)
    · injection hv with hkj _
      subst hkj
      simp [h1, h2, h3] at hj
  refine (exact_byte.bind hkind).congr ?_
  intro o w
  constructor
  · rintro ⟨k, _, v, rfl, hv, rfl⟩
    exact ⟨representable_of_encode_operand hv, hv⟩
  · rintro ⟨_, hw⟩
    rcases encode_operand_eq_ok.1 hw with ⟨v, rfl, rfl⟩ | ⟨k, s, v, _, _, _, rfl⟩
    · exact ⟨0, [0], _, rfl, hw, rfl⟩
    · exact ⟨k, [k], v, rfl, hw, rfl⟩

theorem exact_operands :
    Exact operands fun args w =>
      (args.length ≤ 255 ∧ ∀ a ∈ args, a.Representable) ∧ Encoding.operands args = .ok w := by
  refine (exact_counted exact_operand 1).congr ?_
  intro args w
  simp only [Encoding.operands, ok_bind, ok_return, eachWritten_iff]
  constructor
  · rintro ⟨hn, v, ⟨hargs, hv⟩, rfl⟩
    exact ⟨⟨by omega, hargs⟩, v, hv, rfl⟩
  · rintro ⟨⟨hn, hargs⟩, v, hv, rfl⟩
    exact ⟨by omega, v, ⟨hargs, hv⟩, rfl⟩

/-! ## Function records -/

theorem exact_slot : Exact slot fun p w => p.Representable ∧ Encoding.slot p = .ok w := by
  refine (exact_name.bind fun n => exact_byte.map fun b => (⟨n, ⟨b⟩⟩ : Slot)).congr ?_
  intro p w
  simp only [Encoding.slot, ok_bind, ok_return]
  constructor
  · rintro ⟨n, w₁, w₂, hn, ⟨b, rfl, rfl⟩, rfl⟩
    exact ⟨(encode_name_eq_ok.1 hn).1, w₁, hn, rfl⟩
  · rintro ⟨_, w₁, hn, rfl⟩
    exact ⟨p.name, w₁, [p.storage.code], hn, ⟨p.storage.code, rfl, rfl⟩, rfl⟩

theorem exact_function :
    Exact function fun f w => f.Representable ∧ Encoding.function f = .ok w := by
  have hassoc : function = (do
      let title ← name
      let params ← (do many slot (← number 2))
      let result ← byte
      return ⟨title, params, ⟨result⟩, ← longString⟩) := by
    simp only [function, bind_assoc]
  rw [hassoc]
  refine (exact_name.bind fun title => (exact_counted exact_slot 2).bind fun params =>
    exact_byte.bind fun result => exact_longString.map fun body =>
      (⟨title, params, ⟨result⟩, body⟩ : FunctionRecord)).congr ?_
  intro f w
  simp only [Encoding.function, ok_bind, ok_return, eachWritten_iff]
  constructor
  · rintro ⟨title, w₁, _, htitle, ⟨params, _, _, ⟨hcount, w₂, ⟨hparams, hw₂⟩, rfl⟩,
      ⟨result, _, _, rfl, ⟨body, ⟨hbody, rfl⟩, rfl⟩, rfl⟩, rfl⟩, rfl⟩
    have hcount' : params.length ≤ 0xFFFF := by omega
    refine ⟨⟨(encode_name_eq_ok.1 htitle).1, hcount', hparams, hbody⟩, w₁, htitle, w₂, hw₂, ?_⟩
    simp
  · rintro ⟨hf, w₁, htitle, w₂, hw₂, rfl⟩
    have hcount := hf.count
    refine ⟨f.name, w₁, _, htitle, ⟨f.params, _, _, ⟨by omega, w₂, ⟨hf.params, hw₂⟩, rfl⟩,
      ⟨f.result.code, _, _, rfl, ⟨f.body, ⟨hf.body, rfl⟩, rfl⟩, rfl⟩, rfl⟩, ?_⟩
    simp

/-! ## Instructions -/

theorem exact_target :
    Exact target fun t w => (-2 ^ 31 ≤ t ∧ t < 2 ^ 31) ∧ w = Encoding.target t := by
  refine ((exact_number 4).map fun n : Nat =>
    if n < 0x80000000 then (n : Int) else (n : Int) - 0x100000000).congr ?_
  intro t w
  unfold Encoding.target
  constructor
  · rintro ⟨n, ⟨hn, rfl⟩, rfl⟩
    have hmod : ((if n < 0x80000000 then (n : Int) else (n : Int) - 0x100000000) %
        0x100000000).toNat = n := by
      split <;> omega
    refine ⟨?_, by rw [hmod]⟩
    split <;> omega
  · rintro ⟨ht, rfl⟩
    refine ⟨(t % 0x100000000).toNat, ⟨by omega, rfl⟩, ?_⟩
    split <;> omega

theorem toByte_ofByte (b : UInt8) : (Opcode.ofByte b).toByte = b := by
  unfold Opcode.ofByte
  by_cases h : b.toNat < 20
  · have hall : ∀ n < 20, Opcode.all[n]?.map Opcode.toByte = some (UInt8.ofNat n) := by decide
    obtain ⟨op, hop, hbyte⟩ := Option.map_eq_some_iff.1 (hall b.toNat h)
    rw [hop, Option.getD_some, hbyte, UInt8.ofNat_toNat]
  · have hnone : Opcode.all[b.toNat]? = none :=
      List.getElem?_eq_none (by simpa [Opcode.all] using h)
    rw [hnone]
    rfl

theorem ofByte_toByte {op : Opcode} (h : op.isKnown) : Opcode.ofByte op.toByte = op := by
  cases op <;> first | rfl | simp [Opcode.isKnown] at h

/-- What is written of an instruction behind its opcode. -/
def WrittenTail (i : Instruction) (w : Bytes) : Prop :=
  match i.op with
  | .nop => w = []
  | .var | .alloc => ∃ v, Encoding.operands i.args = .ok v ∧ w = i.storage.code :: v
  | .cmp => ∃ v, Encoding.operands i.args = .ok v ∧ w = i.relation.code :: v
  | .jeq | .jne => ∃ v, Encoding.operands i.args = .ok v ∧ w = v ++ Encoding.target i.target
  | .jmp => w = Encoding.target i.target
  | .scope => Encoding.code i.children = .ok w
  | .func => ∃ f, i.func = some f ∧ Encoding.function f = .ok w
  | .unknown _ => False
  | _ => Encoding.operands i.args = .ok w

theorem encode_instruction_eq_ok {i : Instruction} {w : Bytes} :
    Encoding.instruction i = .ok w ↔ ∃ v, w = i.op.toByte :: v ∧ WrittenTail i v := by
  obtain ⟨op, args, storage, relation, target, children, func⟩ := i
  cases op
  case func =>
    cases func with
    | none => simp [Encoding.instruction, WrittenTail]
    | some f =>
      simp only [Encoding.instruction, WrittenTail, ok_bind, ok_return, Option.some.injEq,
        exists_eq_left']
      grind
  case unknown code => simp [Encoding.instruction, WrittenTail]
  all_goals
    simp only [Encoding.instruction, WrittenTail, Encoding.code, ok_bind, ok_return]
    grind

/-- The instructions with opcode `op` that can be read when `P` holds of the children that can be
read, and what is written of them behind the opcode. -/
def ReadableTail (P : List Instruction → Prop) (op : Opcode) (i : Instruction) (w : Bytes) : Prop :=
  i.op = op ∧ i.Fits ∧ P i.children ∧ WrittenTail i w

/-- A reader followed by the assembly of an instruction, when it assembles instructions that fit and
all of them. -/
theorem exact_assembly {α : Type} {P : List Instruction → Prop} {op : Opcode} {r : Reader α}
    {W : α → Bytes → Prop} {assemble : α → Instruction} (h : Exact r W)
    (hsound : ∀ x w, W x w → ReadableTail P op (assemble x) w)
    (hall : ∀ i w, ReadableTail P op i w → ∃ x, W x w ∧ i = assemble x) :
    Exact (do return assemble (← r)) (ReadableTail P op) := by
  refine (h.map assemble).congr ?_
  intro i w
  constructor
  · rintro ⟨x, hx, rfl⟩
    exact hsound x w hx
  · exact hall i w

theorem exact_plain_tail {P : List Instruction → Prop} (hP : P []) {op : Opcode}
    (hop : op ∈ [.mov, .add, .sub, .mul, .div, .pmov, .deref, .push, .pop, .call, .ret]) :
    Exact (do return { op := op, args := ← operands } : Reader Instruction)
      (ReadableTail P op) := by
  simp only [List.mem_cons, List.not_mem_nil, or_false] at hop
  refine exact_assembly exact_operands ?_ ?_
  · rintro args w ⟨⟨hcount, hargs⟩, hw⟩
    rcases hop with rfl | rfl | rfl | rfl | rfl | rfl | rfl | rfl | rfl | rfl | rfl
    all_goals exact ⟨rfl, ⟨rfl, rfl, hcount, hargs, by simp, by simp⟩, hP, hw⟩
  · rintro i w ⟨rfl, hi, _, hw⟩
    have htrim := hi.trimmed
    rcases hop with hop | hop | hop | hop | hop | hop | hop | hop | hop | hop | hop
    all_goals
      simp only [WrittenTail, hop] at hw
      refine ⟨i.args, ⟨⟨hi.argCount, hi.args⟩, hw⟩, ?_⟩
      rw [← htrim]
      simp [Instruction.trimmed, hop]

theorem exact_storage_tail {P : List Instruction → Prop} (hP : P []) {op : Opcode}
    (hop : op = .var ∨ op = .alloc) :
    Exact (do
      let storage ← byte
      return { op := op, storage := ⟨storage⟩, args := ← operands } : Reader Instruction)
      (ReadableTail P op) := by
  refine (exact_byte.bind fun storage => exact_operands.map fun args =>
    ({ op := op, storage := ⟨storage⟩, args := args } : Instruction)).congr ?_
  intro i w
  constructor
  · rintro ⟨storage, _, v, rfl, ⟨args, ⟨⟨hcount, hargs⟩, hv⟩, rfl⟩, rfl⟩
    rcases hop with rfl | rfl
    all_goals exact ⟨rfl, ⟨rfl, rfl, hcount, hargs, by simp, by simp⟩, hP, v, hv, rfl⟩
  · rintro ⟨rfl, hi, _, hw⟩
    have htrim := hi.trimmed
    rcases hop with hop | hop
    all_goals
      simp only [WrittenTail, hop] at hw
      obtain ⟨v, hv, rfl⟩ := hw
      refine ⟨i.storage.code, [i.storage.code], v, rfl,
        ⟨i.args, ⟨⟨hi.argCount, hi.args⟩, hv⟩, ?_⟩, rfl⟩
      rw [← htrim]
      simp [Instruction.trimmed, hop]

theorem exact_cmp_tail {P : List Instruction → Prop} (hP : P []) :
    Exact (do
      let relation ← byte
      return { op := .cmp, relation := ⟨relation⟩, args := ← operands } : Reader Instruction)
      (ReadableTail P .cmp) := by
  refine (exact_byte.bind fun relation => exact_operands.map fun args =>
    ({ op := .cmp, relation := ⟨relation⟩, args := args } : Instruction)).congr ?_
  intro i w
  constructor
  · rintro ⟨relation, _, v, rfl, ⟨args, ⟨⟨hcount, hargs⟩, hv⟩, rfl⟩, rfl⟩
    exact ⟨rfl, ⟨rfl, rfl, hcount, hargs, by simp, by simp⟩, hP, v, hv, rfl⟩
  · rintro ⟨hop, hi, _, hw⟩
    simp only [WrittenTail, hop] at hw
    obtain ⟨v, hv, rfl⟩ := hw
    refine ⟨i.relation.code, [i.relation.code], v, rfl,
      ⟨i.args, ⟨⟨hi.argCount, hi.args⟩, hv⟩, ?_⟩, rfl⟩
    rw [← hi.trimmed]
    simp [Instruction.trimmed, hop]

theorem exact_branch_tail {P : List Instruction → Prop} (hP : P []) {op : Opcode}
    (hop : op = .jeq ∨ op = .jne) :
    Exact (do
      let args ← operands
      return { op := op, args := args, target := ← target } : Reader Instruction)
      (ReadableTail P op) := by
  refine (exact_operands.bind fun args => exact_target.map fun t =>
    ({ op := op, args := args, target := t } : Instruction)).congr ?_
  intro i w
  constructor
  · rintro ⟨args, v, _, ⟨⟨hcount, hargs⟩, hv⟩, ⟨t, ⟨ht, rfl⟩, rfl⟩, rfl⟩
    rcases hop with rfl | rfl
    all_goals exact ⟨rfl, ⟨rfl, rfl, hcount, hargs, ht, by simp⟩, hP, v, hv, rfl⟩
  · rintro ⟨rfl, hi, _, hw⟩
    have htrim := hi.trimmed
    rcases hop with hop | hop
    all_goals
      simp only [WrittenTail, hop] at hw
      obtain ⟨v, hv, rfl⟩ := hw
      refine ⟨i.args, v, _, ⟨⟨hi.argCount, hi.args⟩, hv⟩, ⟨i.target, ⟨hi.target, rfl⟩, ?_⟩, rfl⟩
      rw [← htrim]
      simp [Instruction.trimmed, hop]

theorem exact_tail {P : List Instruction → Prop} {children : Reader (List Instruction)}
    (h : Exact children fun is w => P is ∧ Encoding.code is = .ok w) (hP : P []) (op : Opcode) :
    Exact (tail children op) (ReadableTail P op) := by
  cases op
  case nop =>
    refine (Exact.pure ({ op := .nop } : Instruction)).congr ?_
    intro i w
    constructor
    · rintro ⟨rfl, rfl⟩
      exact ⟨rfl, ⟨rfl, rfl, by simp, by simp, by simp, by simp⟩, hP, rfl⟩
    · rintro ⟨hop, hi, _, hw⟩
      simp only [WrittenTail, hop] at hw
      refine ⟨?_, hw⟩
      rw [← hi.trimmed]
      simp [Instruction.trimmed, hop]
  case var => exact exact_storage_tail hP (.inl rfl)
  case alloc => exact exact_storage_tail hP (.inr rfl)
  case cmp => exact exact_cmp_tail hP
  case jeq => exact exact_branch_tail hP (.inl rfl)
  case jne => exact exact_branch_tail hP (.inr rfl)
  case jmp =>
    refine exact_assembly exact_target ?_ ?_
    · rintro t w ⟨ht, rfl⟩
      exact ⟨rfl, ⟨rfl, rfl, by simp, by simp, ht, by simp⟩, hP, rfl⟩
    · rintro i w ⟨hop, hi, _, hw⟩
      simp only [WrittenTail, hop] at hw
      refine ⟨i.target, ⟨hi.target, hw⟩, ?_⟩
      rw [← hi.trimmed]
      simp [Instruction.trimmed, hop]
  case scope =>
    refine exact_assembly h ?_ ?_
    · rintro is w ⟨his, hw⟩
      exact ⟨rfl, ⟨rfl, rfl, by simp, by simp, by simp, by simp⟩, his, hw⟩
    · rintro i w ⟨hop, hi, hc, hw⟩
      simp only [WrittenTail, hop] at hw
      refine ⟨i.children, ⟨hc, hw⟩, ?_⟩
      rw [← hi.trimmed]
      simp [Instruction.trimmed, hop]
  case func =>
    refine exact_assembly exact_function ?_ ?_
    · rintro f w ⟨hf, hw⟩
      exact ⟨rfl, ⟨rfl, rfl, by simp, by simp, by simp, by simpa using hf⟩, hP, f, rfl, hw⟩
    · rintro i w ⟨hop, hi, _, hw⟩
      simp only [WrittenTail, hop] at hw
      obtain ⟨f, hf, hw⟩ := hw
      refine ⟨f, ⟨hi.func f hf, hw⟩, ?_⟩
      rw [← hi.trimmed]
      simp [Instruction.trimmed, hop, hf]
  case unknown code =>
    intro s i rest
    refine iff_of_false throw_ne_ok ?_
    rintro ⟨w, ⟨hop, hi, _, _⟩, _⟩
    have hknown := hi.known
    simp [hop, Opcode.isKnown] at hknown
  all_goals exact exact_plain_tail hP (by simp)

theorem exact_instruction {P : List Instruction → Prop} {children : Reader (List Instruction)}
    (h : Exact children fun is w => P is ∧ Encoding.code is = .ok w) (hP : P []) :
    Exact (instruction children) fun i w =>
      (i.Fits ∧ P i.children) ∧ Encoding.instruction i = .ok w := by
  refine (exact_byte.bind fun b => exact_tail h hP (Opcode.ofByte b)).congr ?_
  intro i w
  rw [encode_instruction_eq_ok]
  constructor
  · rintro ⟨b, _, v, rfl, ⟨hop, hi, hc, hv⟩, rfl⟩
    refine ⟨⟨hi, hc⟩, v, ?_, hv⟩
    rw [hop, toByte_ofByte]
    rfl
  · rintro ⟨⟨hi, hc⟩, v, rfl, hv⟩
    exact ⟨i.op.toByte, _, v, rfl, ⟨(ofByte_toByte hi.known).symm, hi, hc, hv⟩, rfl⟩

/-! ## Code -/

theorem encode_instructions_cons {i : Instruction} {is : List Instruction} {w : Bytes} :
    Encoding.instructions (i :: is) = .ok w ↔
      ∃ w₁ w₂, Encoding.instruction i = .ok w₁ ∧ Encoding.instructions is = .ok w₂ ∧
        w = w₁ ++ w₂ := by
  simp only [Encoding.instructions, ok_bind, ok_return]
  constructor
  · rintro ⟨w₁, hi, w₂, his, rfl⟩
    exact ⟨w₁, w₂, hi, his, rfl⟩
  · rintro ⟨w₁, w₂, hi, his, rfl⟩
    exact ⟨w₁, hi, w₂, his, rfl⟩

/-- Code within reach of a reader that may go down `limit` levels. -/
def Within (limit : Nat) (is : List Instruction) : Prop :=
  Instruction.AllRepresentable is ∧ Instruction.allLevels is ≤ limit

theorem within_cons {limit : Nat} {i : Instruction} {is : List Instruction} :
    Within (limit + 1) (i :: is) ↔
      (i.Fits ∧ i.children.length < 2 ^ 32 ∧ Within limit i.children) ∧ Within limit is := by
  simp only [Within, Instruction.AllRepresentable, Instruction.allLevels, Instruction.levels_eq,
    Instruction.representable_iff, Nat.add_le_add_iff_right, Nat.max_le]
  constructor
  · rintro ⟨⟨⟨hi, hlen, hc⟩, his⟩, hlc, hlis⟩
    exact ⟨⟨hi, hlen, hc, hlc⟩, his, hlis⟩
  · rintro ⟨⟨hi, hlen, hc, hlc⟩, his, hlis⟩
    exact ⟨⟨⟨hi, hlen, hc⟩, his⟩, hlc, hlis⟩

theorem within_nil (limit : Nat) : Within limit [] := ⟨trivial, Nat.zero_le limit⟩

theorem exact_block {limit : Nat}
    (h : ∀ count, Exact (instructions limit count) fun is w =>
      is.length = count ∧ Within limit is ∧ Encoding.instructions is = .ok w) :
    Exact (do instructions limit (← number 4)) fun is w =>
      (is.length < 2 ^ 32 ∧ Within limit is) ∧ Encoding.code is = .ok w := by
  refine ((exact_number 4).bind h).congr ?_
  intro is w
  simp only [Encoding.code, ok_bind, ok_return]
  constructor
  · rintro ⟨n, _, v, ⟨hn, rfl⟩, ⟨rfl, his, hv⟩, rfl⟩
    exact ⟨⟨by omega, his⟩, v, hv, rfl⟩
  · rintro ⟨⟨hn, his⟩, v, hv, rfl⟩
    exact ⟨is.length, _, v, ⟨by omega, rfl⟩, ⟨rfl, his, hv⟩, rfl⟩

theorem exact_instructions (limit count : Nat) :
    Exact (instructions limit count) fun is w =>
      is.length = count ∧ Within limit is ∧ Encoding.instructions is = .ok w := by
  have hnil (limit : Nat) : Exact (instructions limit 0) fun is w =>
      is.length = 0 ∧ Within limit is ∧ Encoding.instructions is = .ok w := by
    rw [instructions]
    refine (Exact.pure ([] : List Instruction)).congr ?_
    intro is w
    constructor
    · rintro ⟨rfl, rfl⟩
      exact ⟨rfl, within_nil limit, rfl⟩
    · rintro ⟨hlen, _, hw⟩
      have his : is = [] := List.length_eq_zero_iff.1 hlen
      subst his
      exact ⟨rfl, (Except.ok.inj hw).symm⟩
  induction limit generalizing count with
  | zero =>
    cases count with
    | zero => exact hnil 0
    | succ count =>
      intro s is rest
      rw [instructions]
      refine iff_of_false throw_ne_ok ?_
      rintro ⟨w, ⟨hlen, ⟨_, hlevels⟩, _⟩, _⟩
      cases is with
      | nil => simp at hlen
      | cons i is => exact absurd hlevels (Nat.not_succ_le_zero _)
  | succ limit ih =>
    cases count with
    | zero => exact hnil (limit + 1)
    | succ count =>
      rw [instructions]
      have hchildren := exact_block ih
      have hfirst := exact_instruction hchildren ⟨by simp, within_nil limit⟩
      refine (hfirst.bind fun first => (ih count).map (first :: ·)).congr ?_
      intro is w
      constructor
      · rintro ⟨i, w₁, w₂, ⟨⟨hi, hc⟩, hw₁⟩, ⟨is, ⟨hlen, his, hw₂⟩, rfl⟩, rfl⟩
        exact ⟨by simp [hlen], within_cons.2 ⟨⟨hi, hc⟩, his⟩,
          encode_instructions_cons.2 ⟨w₁, w₂, hw₁, hw₂, rfl⟩⟩
      · rintro ⟨hlen, hwithin, hw⟩
        cases is with
        | nil => simp at hlen
        | cons i is =>
          obtain ⟨⟨hi, hc⟩, his⟩ := within_cons.1 hwithin
          obtain ⟨w₁, w₂, hw₁, hw₂, rfl⟩ := encode_instructions_cons.1 hw
          exact ⟨i, w₁, w₂, ⟨⟨hi, hc⟩, hw₁⟩, ⟨is, ⟨by simpa using hlen, his, hw₂⟩, rfl⟩, rfl⟩

theorem encode_code_eq_ok {is : List Instruction} {w : Bytes} : Encoding.code is = .ok w ↔
    ∃ v, Encoding.instructions is = .ok v ∧ Encoding.littleEndian 4 is.length ++ v = w := by
  simp only [Encoding.code, ok_bind, ok_return]

section Written

variable {i : Instruction} {is : List Instruction} {v w : Bytes}

theorem written_cons (h : Encoding.instructions (i :: is) = .ok w) :
    ∃ v more, w = i.op.toByte :: (v ++ more) ∧ WrittenTail i v ∧
      Encoding.instructions is = .ok more := by
  obtain ⟨_, more, hfirst, hmore, rfl⟩ := encode_instructions_cons.1 h
  obtain ⟨v, rfl, hv⟩ := encode_instruction_eq_ok.1 hfirst
  exact ⟨v, more, rfl, hv, hmore⟩

theorem WrittenTail.children (h : WrittenTail i v) (hop : i.op = .scope) :
    ∃ u, Encoding.instructions i.children = .ok u ∧
      Encoding.littleEndian 4 i.children.length ++ u = v := by
  unfold WrittenTail at h
  rw [hop] at h
  exact encode_code_eq_ok.1 h

theorem WrittenTail.record (h : WrittenTail i v) (hop : i.op = .func) :
    ∃ f, i.func = some f ∧ Encoding.function f = .ok v := by
  unfold WrittenTail at h
  rwa [hop] at h

theorem allLevels_le_length (h : Instruction.AllRepresentable is)
    (hw : Encoding.instructions is = .ok w) : Instruction.allLevels is ≤ w.length := by
  induction is using Instruction.induction_code generalizing w with
  | nil => exact Nat.zero_le _
  | cons i is ihc ih =>
    obtain ⟨hi, hmore⟩ := h
    obtain ⟨hfits, -, hchildren⟩ := i.representable_iff.1 hi
    obtain ⟨v, more, rfl, hv, hw⟩ := written_cons hw
    have hrest := ih hmore hw
    have hinner : Instruction.allLevels i.children ≤ v.length := by
      by_cases hop : i.op = .scope
      · obtain ⟨u, hu, rfl⟩ := hv.children hop
        exact Nat.le_trans (ihc hchildren hu) (by simp)
      · rw [Instruction.children_of_trimmed hfits.trimmed hop]
        exact Nat.zero_le _
    show max i.levels (Instruction.allLevels is) + 1 ≤ _
    rw [Instruction.levels_eq]
    simp only [List.length_cons, List.length_append]
    omega

end Written

/-- The length of what is left is enough levels for all that can be written in it. -/
theorem exact_code : Exact code fun is w => Representable is ∧ Encoding.code is = .ok w := by
  intro s is rest
  have hcode : code s = .ok (is, rest) ↔
      ∃ count u, number 4 s = .ok (count, u) ∧ instructions u.length count u = .ok (is, rest) := by
    unfold code
    rw [bind_eq_ok]
    rfl
  rw [hcode]
  constructor
  · rintro ⟨count, u, hcount, hu⟩
    have hread : (do instructions u.length (← number 4) : Reader (List Instruction)) s =
        .ok (is, rest) := bind_eq_ok.2 ⟨count, u, hcount, hu⟩
    obtain ⟨w, ⟨⟨hlen, his, _⟩, hw⟩, hs⟩ :=
      (exact_block (exact_instructions u.length) _ _ _).1 hread
    exact ⟨w, ⟨⟨hlen, his⟩, hw⟩, hs⟩
  · rintro ⟨w, ⟨⟨hlen, his⟩, hw⟩, rfl⟩
    simp only [Encoding.code, ok_bind, ok_return] at hw
    obtain ⟨v, hv, rfl⟩ := hw
    have hlevels := allLevels_le_length his hv
    refine ⟨is.length, v ++ rest, ?_, ?_⟩
    · rw [List.append_assoc]
      exact (exact_number 4).complete ⟨by omega, rfl⟩ _
    · refine (exact_instructions _ _).complete ⟨rfl, ⟨his, ?_⟩, hv⟩ rest
      rw [List.length_append]
      omega

/-- A byte string reads as a list of instructions exactly when the list is representable and its
encoding is at the front of the byte string. -/
theorem runCode_eq_ok_iff (s : Bytes) (is : List Instruction) :
    runCode s = .ok is ↔ Representable is ∧ ∃ w, Encoding.code is = .ok w ∧ w <+: s := by
  have hrun : runCode s = .ok is ↔ ∃ rest, code s = .ok (is, rest) := by
    change Except.map Prod.fst (code s) = _ ↔ _
    cases code s <;> simp [Except.map, Prod.ext_iff]
  rw [hrun]
  constructor
  · rintro ⟨rest, h⟩
    obtain ⟨w, ⟨his, hw⟩, rfl⟩ := (exact_code _ _ _).1 h
    exact ⟨his, w, hw, List.prefix_append w rest⟩
  · rintro ⟨his, w, hw, rest, rfl⟩
    exact ⟨rest, exact_code.complete ⟨his, hw⟩ rest⟩

end UnitScript.Decoding
