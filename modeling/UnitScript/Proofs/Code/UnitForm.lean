import UnitScript.Proofs.Code.Exact
import UnitScript.Proofs.NameMap

/-!
# The binary form of units

A unit is read back from its encoding whatever follows, and from no proper beginning of it. Kinds
stand in the encoding as texts, and a kind has more than one text, so the reader is exact for a
relation that leaves the text open; the encoder picks the one that `Kind.text` gives.
-/

namespace UnitScript

/-! ## Kinds as text -/

/-- One of the six sorts of values. -/
def Tag.IsNamed : Tag → Prop
  | .other _ => False
  | _ => True

instance (t : Tag) : Decidable t.IsNamed :=
  match t with
  | .other _ => .isFalse id
  | .undefined | .number | .string | .struct | .callback | .null => .isTrue trivial

namespace Kind

structure IsNamed (k : Kind) : Prop where
  tag : k.tag.IsNamed
  result : k.result.IsNamed

/-- Only a callback has a result, and not that of a callback. -/
structure Canonical (k : Kind) : Prop where
  plain : k.tag ≠ .callback → k.result = .undefined
  callback : k.tag = .callback → k.result ≠ .callback

instance (k : Kind) : Decidable k.IsNamed :=
  decidable_of_iff (k.tag.IsNamed ∧ k.result.IsNamed)
    ⟨fun ⟨h₁, h₂⟩ => ⟨h₁, h₂⟩, fun ⟨h₁, h₂⟩ => ⟨h₁, h₂⟩⟩

instance (k : Kind) : Decidable k.Canonical :=
  decidable_of_iff ((k.tag ≠ .callback → k.result = .undefined) ∧
      (k.tag = .callback → k.result ≠ .callback))
    ⟨fun ⟨h₁, h₂⟩ => ⟨h₁, h₂⟩, fun ⟨h₁, h₂⟩ => ⟨h₁, h₂⟩⟩

theorem parse_text {k : Kind} (hnamed : k.IsNamed) (h : k.Canonical) : parse k.text = .ok k := by
  obtain ⟨tag, result⟩ := k
  cases tag with
  | callback =>
    cases result with
    | callback => exact absurd rfl (h.callback rfl)
    | other code => exact hnamed.result.elim
    | _ => rfl
  | other code => exact hnamed.tag.elim
  | _ =>
    have hplain := h.plain (by simp)
    simp only at hplain
    subst hplain
    rfl

theorem length_text_le {k : Kind} (hnamed : k.IsNamed) : k.text.length ≤ 0xFFFF := by
  obtain ⟨tag, result⟩ := k
  cases tag with
  | callback =>
    cases result with
    | other code => exact hnamed.result.elim
    | _ => decide
  | other code => exact hnamed.tag.elim
  | _ =>
    simp only [text, hasResult, reduceCtorEq, decide_false, Bool.false_and, Bool.false_eq_true,
      if_false]
    decide

end Kind

namespace Decoding

/-! ## Parts of a unit -/

theorem exact_datum :
    Exact datum fun d w => d.value.length ≤ maxRegion ∧ Encoding.datum d = .ok w := by
  refine (exact_name.bind fun title => exact_longString.map fun value =>
    (⟨title, value⟩ : Datum)).congr ?_
  intro d w
  simp only [Encoding.datum, ok_bind, ok_return]
  constructor
  · rintro ⟨title, w₁, _, hw₁, ⟨value, ⟨hlen, rfl⟩, rfl⟩, rfl⟩
    exact ⟨hlen, w₁, hw₁, rfl⟩
  · rintro ⟨hlen, w₁, hw₁, rfl⟩
    exact ⟨d.name, w₁, _, hw₁, ⟨d.value, ⟨hlen, rfl⟩, rfl⟩, rfl⟩

/-- An export is written as its name and some text of its kind. -/
def ExportWritten (e : Name × Kind) (w : Bytes) : Prop :=
  ∃ text w₁ w₂, Kind.parse text = .ok e.2 ∧ Encoding.name e.1 = .ok w₁ ∧
    Encoding.name text = .ok w₂ ∧ w = w₁ ++ w₂

theorem exact_exported : Exact exported ExportWritten := by
  unfold exported
  refine (exact_name.bind fun title => exact_name.bind fun text =>
    (?_ : Exact _ fun e w => (e.1 = title ∧ Kind.parse text = .ok e.2) ∧ w = [])).congr ?_
  · cases hparse : Kind.parse text with
    | ok kind =>
      refine (Exact.pure (title, kind)).congr ?_
      rintro ⟨a, b⟩ w
      simp [eq_comm]
    | error e =>
      intro s x rest
      refine iff_of_false throw_ne_ok ?_
      rintro ⟨w, ⟨⟨_, h⟩, _⟩, _⟩
      simp at h
  · rintro ⟨title, kind⟩ w
    constructor
    · rintro ⟨_, w₁, _, hw₁, ⟨text, w₂, _, hw₂, ⟨⟨rfl, hparse⟩, rfl⟩, rfl⟩, rfl⟩
      exact ⟨text, w₁, w₂, hparse, hw₁, hw₂, by simp⟩
    · rintro ⟨text, w₁, w₂, hparse, hw₁, hw₂, rfl⟩
      exact ⟨title, w₁, w₂, hw₁, ⟨text, w₂, [], hw₂, ⟨⟨rfl, hparse⟩, rfl⟩, by simp⟩, rfl⟩

theorem exact_header : Exact (do
    let header ← take 4
    if header ≠ [77, 89, 83, 49] then throw (.badMagic header) : Reader Unit)
    fun _ w => w = Encoding.magic := by
  have hcheck (header : Bytes) : Exact (do
      if header ≠ [77, 89, 83, 49] then throw (.badMagic header) : Reader Unit)
      fun _ w => header = Encoding.magic ∧ w = [] := by
    by_cases h : header = [77, 89, 83, 49]
    · subst h
      refine (Exact.pure ()).congr ?_
      intro x w
      simp [Encoding.magic]
    · intro s x rest
      simp only [ne_eq, h, not_false_eq_true, if_true]
      refine iff_of_false throw_ne_ok ?_
      rintro ⟨w, ⟨hmagic, _⟩, _⟩
      exact h hmagic
  refine ((exact_take 4).bind hcheck).congr ?_
  intro x w
  constructor
  · rintro ⟨header, _, _, ⟨rfl, _⟩, ⟨rfl, rfl⟩, rfl⟩
    simp
  · rintro rfl
    exact ⟨Encoding.magic, Encoding.magic, [], ⟨rfl, rfl⟩, ⟨rfl, rfl⟩, by simp⟩

/-- The written forms of a unit: its parts one after another, with the exports in any order. -/
def UnitWritten (u : CodeUnit) (w : Bytes) : Prop :=
  ∃ title data es exports code,
    Encoding.name u.name = .ok title ∧
    (u.data.length < 256 ^ 4 ∧ (∀ d ∈ u.data, d.value.length ≤ maxRegion) ∧
      Encoding.each Encoding.datum u.data = .ok data) ∧
    (es.length < 256 ^ 4 ∧ EachWritten ExportWritten es exports ∧ u.exports = .ofList es) ∧
    (Representable u.code ∧ Encoding.code u.code = .ok code) ∧
    w = Encoding.magic ++ title ++ Encoding.littleEndian 4 u.data.length ++ data ++
      Encoding.littleEndian 4 es.length ++ exports ++ code

theorem exact_codeUnit : Exact codeUnit UnitWritten := by
  have hassoc : codeUnit = (do
      (do
        let header ← take 4
        if header ≠ [77, 89, 83, 49] then throw (.badMagic header) : Reader Unit)
      let title ← name
      let data ← (do many datum (← number 4))
      let exports ← (do many exported (← number 4))
      return { name := title, data := data, exports := .ofList exports, code := ← code }) := by
    simp only [codeUnit, bind_assoc]
    congr 1
    funext header
    split
    · rfl
    · rw [pure_bind]
  rw [hassoc]
  refine (exact_header.bind fun _ => exact_name.bind fun title =>
    (exact_counted exact_datum 4).bind fun data => (exact_counted exact_exported 4).bind fun es =>
      exact_code.map fun is =>
        ({ name := title, data := data, exports := .ofList es, code := is } : CodeUnit)).congr ?_
  intro u w
  simp only [eachWritten_iff]
  constructor
  · rintro ⟨_, _, _, rfl, ⟨title, w₁, _, hw₁, ⟨data, _, _, ⟨hdata, w₂, ⟨hfit, hw₂⟩, rfl⟩,
      ⟨es, _, _, ⟨hes, w₃, hw₃, rfl⟩, ⟨is, ⟨his, hw₄⟩, rfl⟩, rfl⟩, rfl⟩, rfl⟩, rfl⟩
    exact ⟨w₁, w₂, es, w₃, _, hw₁, ⟨hdata, hfit, hw₂⟩, ⟨hes, hw₃, rfl⟩, ⟨his, hw₄⟩, by simp⟩
  · rintro ⟨w₁, w₂, es, w₃, w₄, hw₁, ⟨hdata, hfit, hw₂⟩, ⟨hes, hw₃, hmap⟩, ⟨his, hw₄⟩, rfl⟩
    refine ⟨(), _, _, rfl, ⟨u.name, w₁, _, hw₁, ⟨u.data, _, _, ⟨hdata, w₂, ⟨hfit, hw₂⟩, rfl⟩,
      ⟨es, _, _, ⟨hes, w₃, hw₃, rfl⟩, ⟨u.code, ⟨his, hw₄⟩, ?_⟩, rfl⟩, rfl⟩, rfl⟩, by simp⟩
    rw [← hmap]

/-! ## Encoding representable units -/

theorem encode_each_ok {α : Type} {item : α → Except EncodeError Bytes} {xs : List α}
    (h : ∀ x ∈ xs, ∃ w, item x = .ok w) : ∃ w, Encoding.each item xs = .ok w := by
  induction xs with
  | nil => exact ⟨[], rfl⟩
  | cons x xs ih =>
    obtain ⟨w₁, hw₁⟩ := h x (by simp)
    obtain ⟨w₂, hw₂⟩ := ih fun y hy => h y (by simp [hy])
    exact ⟨w₁ ++ w₂, encode_each_cons.2 ⟨w₁, w₂, hw₁, hw₂, rfl⟩⟩

theorem encode_name_ok {s : Name} (h : s.length ≤ 0xFFFF) : ∃ w, Encoding.name s = .ok w :=
  ⟨_, encode_name_eq_ok.2 ⟨h, rfl⟩⟩

theorem encode_operand_ok {o : Operand} (h : o.Representable) :
    ∃ w, Encoding.operand o = .ok w := by
  cases o with
  | imm v => exact ⟨_, rfl⟩
  | unknown code => exact h.elim
  | _ =>
    obtain ⟨w, hw⟩ := encode_name_ok h
    simp only [Encoding.operand]
    exact ⟨_, ok_bind.2 ⟨w, hw, rfl⟩⟩

theorem encode_operands_ok {args : List Operand} (h : ∀ a ∈ args, a.Representable) :
    ∃ w, Encoding.operands args = .ok w := by
  obtain ⟨w, hw⟩ := encode_each_ok fun a ha => encode_operand_ok (h a ha)
  exact ⟨_, ok_bind.2 ⟨w, hw, rfl⟩⟩

theorem encode_function_ok {f : FunctionRecord} (h : f.Representable) :
    ∃ w, Encoding.function f = .ok w := by
  obtain ⟨w₁, hw₁⟩ := encode_name_ok h.name
  have hslot : ∀ p ∈ f.params, ∃ w, Encoding.slot p = .ok w := by
    intro p hp
    obtain ⟨w, hw⟩ := encode_name_ok (h.params p hp)
    exact ⟨_, ok_bind.2 ⟨w, hw, rfl⟩⟩
  obtain ⟨w₂, hw₂⟩ := encode_each_ok hslot
  exact ⟨_, ok_bind.2 ⟨w₁, hw₁, ok_bind.2 ⟨w₂, hw₂, rfl⟩⟩⟩

def HasRecords (is : List Instruction) : Prop := ∀ i ∈ is, i.op = .func → i.func.isSome

instance (is : List Instruction) : Decidable (HasRecords is) :=
  inferInstanceAs (Decidable (∀ i ∈ is, i.op = .func → i.func.isSome))

mutual

theorem encode_instruction_ok : ∀ {i : Instruction}, i.Representable → HasRecords i.walk →
    ∃ w, Encoding.instruction i = .ok w
  | ⟨op, args, storage, relation, target, children, func⟩, hi, hrec => by
    obtain ⟨hfits, _, hchildren⟩ := (Instruction.representable_iff _).1 hi
    obtain ⟨w, hw⟩ := encode_operands_ok hfits.args
    have htail : ∃ v, WrittenTail ⟨op, args, storage, relation, target, children, func⟩ v := by
      cases op
      case unknown code => exact absurd hfits.known (by simp [Opcode.isKnown])
      case func =>
        have hsome : func.isSome :=
          hrec ⟨.func, args, storage, relation, target, children, func⟩
            (by simp [Instruction.walk]) rfl
        obtain ⟨f, hf⟩ := Option.isSome_iff_exists.1 hsome
        obtain ⟨v, hv⟩ := encode_function_ok (hfits.func f hf)
        exact ⟨v, f, hf, hv⟩
      case scope =>
        have hbelow : HasRecords (Instruction.walkAll children) := by
          intro j hj
          exact hrec j (by simp [Instruction.walk, hj])
        obtain ⟨v, hv⟩ := encode_instructions_ok hchildren hbelow
        exact ⟨_, ok_bind.2 ⟨v, hv, rfl⟩⟩
      case nop => exact ⟨_, rfl⟩
      case jmp => exact ⟨_, rfl⟩
      case var => exact ⟨_, w, hw, rfl⟩
      case alloc => exact ⟨_, w, hw, rfl⟩
      case cmp => exact ⟨_, w, hw, rfl⟩
      case jeq => exact ⟨_, w, hw, rfl⟩
      case jne => exact ⟨_, w, hw, rfl⟩
      all_goals exact ⟨w, hw⟩
    obtain ⟨v, hv⟩ := htail
    exact ⟨_, encode_instruction_eq_ok.2 ⟨v, rfl, hv⟩⟩

theorem encode_instructions_ok : ∀ {is : List Instruction}, Instruction.AllRepresentable is →
    HasRecords (Instruction.walkAll is) → ∃ w, Encoding.instructions is = .ok w
  | [], _, _ => ⟨[], by rw [Encoding.instructions]⟩
  | i :: is, h, hrec => by
    rw [Instruction.AllRepresentable] at h
    rw [Instruction.walkAll] at hrec
    obtain ⟨w₁, hw₁⟩ := encode_instruction_ok h.1 fun j hj => hrec j (by simp [hj])
    obtain ⟨w₂, hw₂⟩ := encode_instructions_ok h.2 fun j hj => hrec j (by simp [hj])
    exact ⟨_, encode_instructions_cons.2 ⟨w₁, w₂, hw₁, hw₂, rfl⟩⟩

end

end Decoding

/-- A unit that the binary form has room for. -/
structure CodeUnit.Representable (u : CodeUnit) : Prop where
  name : u.name.length ≤ 0xFFFF
  dataCount : u.data.length < 2 ^ 32
  dataNames : ∀ d ∈ u.data, d.name.length ≤ 0xFFFF
  dataValues : ∀ d ∈ u.data, d.value.length ≤ 2 ^ 28
  exportCount : u.exports.size < 2 ^ 32
  exportNames : ∀ e ∈ u.exports.entries, e.1.length ≤ 0xFFFF
  code : UnitScript.Representable u.code
  records : Decoding.HasRecords (Instruction.walkAll u.code)

instance (u : CodeUnit) : Decidable u.Representable :=
  decidable_of_iff (u.name.length ≤ 0xFFFF ∧ u.data.length < 2 ^ 32 ∧
      (∀ d ∈ u.data, d.name.length ≤ 0xFFFF) ∧ (∀ d ∈ u.data, d.value.length ≤ 2 ^ 28) ∧
      u.exports.size < 2 ^ 32 ∧ (∀ e ∈ u.exports.entries, e.1.length ≤ 0xFFFF) ∧
      UnitScript.Representable u.code ∧ Decoding.HasRecords (Instruction.walkAll u.code))
    ⟨fun ⟨h₁, h₂, h₃, h₄, h₅, h₆, h₇, h₈⟩ => ⟨h₁, h₂, h₃, h₄, h₅, h₆, h₇, h₈⟩,
      fun ⟨h₁, h₂, h₃, h₄, h₅, h₆, h₇, h₈⟩ => ⟨h₁, h₂, h₃, h₄, h₅, h₆, h₇, h₈⟩⟩

namespace CodeUnit

open Decoding

theorem exportWritten_text {e : Name × Kind} {w : Bytes} (hnamed : e.2.IsNamed)
    (h : e.2.Canonical) (hw : Encoding.exported e = .ok w) : ExportWritten e w := by
  simp only [Encoding.exported, ok_bind, ok_return] at hw
  obtain ⟨w₁, hw₁, w₂, hw₂, rfl⟩ := hw
  exact ⟨e.2.text, w₁, w₂, Kind.parse_text hnamed h, hw₁, hw₂, rfl⟩

theorem encode_eq_ok {u : CodeUnit} {w : Bytes} (h : u.encode = .ok w) : ∃ title data exports code,
    Encoding.name u.name = .ok title ∧ Encoding.each Encoding.datum u.data = .ok data ∧
      Encoding.each Encoding.exported u.exports.entries = .ok exports ∧
      Encoding.code u.code = .ok code ∧
      w = Encoding.magic ++ title ++ Encoding.littleEndian 4 u.data.length ++ data ++
        Encoding.littleEndian 4 u.exports.size ++ exports ++ code := by
  simp only [encode, ok_bind, ok_return] at h
  obtain ⟨title, htitle, data, hdata, exports, hexports, code, hcode, rfl⟩ := h
  exact ⟨title, data, exports, code, htitle, hdata, hexports, hcode, rfl⟩

theorem encode_ok {u : CodeUnit} (hu : u.Representable)
    (hnamed : ∀ e ∈ u.exports.entries, e.2.IsNamed) : ∃ w, u.encode = .ok w := by
  obtain ⟨title, htitle⟩ := encode_name_ok hu.name
  have hdatum : ∀ d ∈ u.data, ∃ w, Encoding.datum d = .ok w := by
    intro d hd
    obtain ⟨w, hw⟩ := encode_name_ok (hu.dataNames d hd)
    exact ⟨_, ok_bind.2 ⟨w, hw, rfl⟩⟩
  obtain ⟨data, hdata⟩ := encode_each_ok hdatum
  have hexport : ∀ e ∈ u.exports.entries, ∃ w, Encoding.exported e = .ok w := by
    intro e he
    obtain ⟨w₁, hw₁⟩ := encode_name_ok (hu.exportNames e he)
    obtain ⟨w₂, hw₂⟩ := encode_name_ok (Kind.length_text_le (hnamed e he))
    exact ⟨_, ok_bind.2 ⟨w₁, hw₁, ok_bind.2 ⟨w₂, hw₂, rfl⟩⟩⟩
  obtain ⟨exports, hexports⟩ := encode_each_ok hexport
  obtain ⟨body, hbody⟩ := encode_instructions_ok hu.code.2 hu.records
  have hcode : Encoding.code u.code = .ok (Encoding.littleEndian 4 u.code.length ++ body) :=
    ok_bind.2 ⟨body, hbody, rfl⟩
  exact ⟨_, ok_bind.2 ⟨title, htitle, ok_bind.2 ⟨data, hdata, ok_bind.2 ⟨exports, hexports,
    ok_bind.2 ⟨_, hcode, rfl⟩⟩⟩⟩⟩

theorem exists_encode {u : CodeUnit} (hu : u.Representable)
    (hk : ∀ e ∈ u.exports.entries, e.2.Canonical ∧ e.2.IsNamed) :
    ∃ w, u.encode = .ok w ∧ UnitWritten u w := by
  obtain ⟨w, hw⟩ := encode_ok hu fun e he => (hk e he).2
  obtain ⟨title, data, exports, code, htitle, hdata, hexports, hcode, rfl⟩ := encode_eq_ok hw
  have hwritten : EachWritten ExportWritten u.exports.entries exports :=
    eachWritten_of_each (fun e he w => exportWritten_text (hk e he).2 (hk e he).1) hexports
  have hdataCount := hu.dataCount
  have hexportCount := hu.exportCount
  unfold NameMap.size at hexportCount
  refine ⟨_, hw, title, data, u.exports.entries, exports, code, htitle,
    ⟨by omega, hu.dataValues, hdata⟩, ⟨by omega, hwritten, ?_⟩, ⟨hu.code, hcode⟩, rfl⟩
  exact (NameMap.ofList_entries u.exports).symm

theorem decode_eq_ok_iff {s : Bytes} {u : CodeUnit} :
    decode s = .ok u ↔ ∃ rest, codeUnit s = .ok (u, rest) := by
  change Except.map Prod.fst (codeUnit s) = _ ↔ _
  cases codeUnit s <;> simp [Except.map, Prod.ext_iff]

/-- The encoding of a unit is read back whatever follows it, and no proper beginning of it is
read. -/
theorem encode_self_delimiting {u : CodeUnit} (hu : u.Representable)
    (hk : ∀ e ∈ u.exports.entries, e.2.Canonical ∧ e.2.IsNamed) :
    ∃ w, u.encode = .ok w ∧ (∀ t, decode (w ++ t) = .ok u) ∧
      ∀ p, p <+: w → p ≠ w → ∃ e, decode p = .error e := by
  obtain ⟨w, hw, hwritten⟩ := exists_encode hu hk
  have hread (t : Bytes) : codeUnit (w ++ t) = .ok (u, t) := exact_codeUnit.complete hwritten t
  refine ⟨w, hw, fun t => decode_eq_ok_iff.2 ⟨t, hread t⟩, ?_⟩
  rintro p ⟨more, rfl⟩ hne
  cases hdecode : decode p with
  | error e => exact ⟨e, rfl⟩
  | ok v =>
    -- a unit read from the beginning alone would leave bytes over in the whole encoding
    obtain ⟨rest, hp⟩ := decode_eq_ok_iff.1 hdecode
    have hwhole := exact_codeUnit.extend hp more
    have hnil := hread []
    rw [List.append_nil, hwhole] at hnil
    simp only [Except.ok.injEq, Prod.mk.injEq, List.append_eq_nil_iff] at hnil
    exact absurd (by simp [hnil.2.2]) hne

/-- A library with a string, two exports and a function that is declared in a branch. -/
def sampleLibrary : CodeUnit where
  name := Bytes.ofString "lib"
  data := [⟨Bytes.ofString "lib.str0", Bytes.ofString "hello"⟩]
  exports := NameMap.empty.insert (Bytes.ofString "each") ⟨.callback, .number⟩ |>.insert
    (Bytes.ofString "size") .number
  code :=
    [.scope [.jeq (.cell (Bytes.ofString "flag")) (.imm 0) 2,
      .function ⟨Bytes.ofString "size", [⟨Bytes.ofString "s", .struct⟩], .i64, [0, 0, 0, 0]⟩],
      .mov (.data (Bytes.ofString "lib.str0")) (.cell (Bytes.ofString "greeting"))]

theorem sampleLibrary_self_delimiting :
    sampleLibrary.Representable ∧
      (∀ e ∈ sampleLibrary.exports.entries, e.2.Canonical ∧ e.2.IsNamed) ∧
      ∃ w, sampleLibrary.encode = .ok w ∧ (∀ t, decode (w ++ t) = .ok sampleLibrary) ∧
        ∀ p, p <+: w → p ≠ w → ∃ e, decode p = .error e := by
  have hu : sampleLibrary.Representable :=
    ⟨by decide, by decide, by decide, by decide, by decide, by decide, by decide, by decide⟩
  have hk : ∀ e ∈ sampleLibrary.exports.entries, e.2.Canonical ∧ e.2.IsNamed := by decide
  exact ⟨hu, hk, encode_self_delimiting hu hk⟩

def unnamedExport : CodeUnit where
  name := Bytes.ofString "lib"
  exports := NameMap.empty.insert (Bytes.ofString "f") ⟨.other 7, .undefined⟩

/-- Canonical kinds without a name do not survive: their text is no text of a kind. -/
theorem unnamed_kind_not_read_back :
    ¬∀ u : CodeUnit, u.Representable → (∀ e ∈ u.exports.entries, e.2.Canonical) →
      ∃ w, u.encode = .ok w ∧ (∀ t, decode (w ++ t) = .ok u) ∧
        ∀ p, p <+: w → p ≠ w → ∃ e, decode p = .error e := by
  intro h
  have hu : unnamedExport.Representable :=
    ⟨by decide, by decide, by decide, by decide, by decide, by decide, by decide, by decide⟩
  obtain ⟨w, hw, hread, _⟩ := h unnamedExport hu (by decide)
  have hfail : ∃ v e, unnamedExport.encode = .ok v ∧ decode v = .error e := ⟨_, _, rfl, rfl⟩
  obtain ⟨v, e, hv, hdecode⟩ := hfail
  rw [hw] at hv
  have hwhole := hread []
  rw [List.append_nil, Except.ok.inj hv, hdecode] at hwhole
  simp at hwhole

end CodeUnit

end UnitScript
