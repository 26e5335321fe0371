import UnitScript.Proofs.Code.Bodies
import UnitScript.Proofs.Code.NormalForm

/-!
# The limits of the binary form

The writer refuses names that are too long, unknown opcodes and missing records, but it writes
counts and lengths whatever their size. A unit that was written is representable just if these
counts and lengths are within the limits of their fields.
-/

namespace UnitScript

namespace Instruction

variable {i : Instruction} {is : List Instruction}

theorem Representable.withinLimits (h : i.Representable) : i.WithinLimits := by
  obtain ⟨hfits, hchildren, -⟩ := (representable_iff i).1 h
  exact ⟨fun f hf => (hfits.func f hf).count, fun f hf => (hfits.func f hf).body, hchildren⟩

theorem throughout_of_allRepresentable (h : AllRepresentable is) : Throughout WithinLimits is := by
  induction is using induction_code with
  | nil => exact throughout_nil
  | cons i is ihc ih =>
    rw [AllRepresentable] at h
    obtain ⟨-, -, hchildren⟩ := (representable_iff i).1 h.1
    exact (throughout_single h.1.withinLimits fun _ => ihc hchildren).cons (ih h.2)

end Instruction

namespace Decoding

open Instruction

variable {i : Instruction} {is : List Instruction} {w : Bytes}

theorem hasRecords_of_encode (h : Encoding.instructions is = .ok w) : HasRecords (walkAll is) := by
  induction is using induction_code generalizing w with
  | nil => exact throughout_nil
  | cons i is ihc ih =>
    obtain ⟨v, more, rfl, hv, hmore⟩ := written_cons h
    refine (throughout_single (fun hop => ?_) fun hop => ?_).cons (ih hmore)
    · obtain ⟨f, hf, -⟩ := hv.record hop
      exact Option.isSome_iff_exists.2 ⟨f, hf⟩
    · obtain ⟨u, hu, -⟩ := hv.children hop
      exact ihc hu

end Decoding

namespace CodeUnit

open Decoding

/-- The counts and lengths that the writer does not check fit their fields. -/
structure WithinLimits (u : CodeUnit) : Prop where
  dataCount : u.data.length < 2 ^ 32
  dataValues : ∀ d ∈ u.data, d.value.length ≤ 2 ^ 28
  exportCount : u.exports.size < 2 ^ 32
  codeCount : u.code.length < 2 ^ 32
  code : Instruction.Throughout Instruction.WithinLimits u.code

instance (u : CodeUnit) : Decidable u.WithinLimits :=
  decidable_of_iff (u.data.length < 2 ^ 32 ∧ (∀ d ∈ u.data, d.value.length ≤ 2 ^ 28) ∧
      u.exports.size < 2 ^ 32 ∧ u.code.length < 2 ^ 32 ∧
      Instruction.Throughout Instruction.WithinLimits u.code)
    ⟨fun ⟨h₁, h₂, h₃, h₄, h₅⟩ => ⟨h₁, h₂, h₃, h₄, h₅⟩,
      fun ⟨h₁, h₂, h₃, h₄, h₅⟩ => ⟨h₁, h₂, h₃, h₄, h₅⟩⟩

def PlainExports (u : CodeUnit) : Prop := ∀ e ∈ u.exports.entries, e.2.Plain ∧ e.2.IsNamed

instance (u : CodeUnit) : Decidable u.PlainExports :=
  inferInstanceAs (Decidable (∀ e ∈ u.exports.entries, e.2.Plain ∧ e.2.IsNamed))

variable {u : CodeUnit} {w : Bytes}

theorem encode_each_mem {α : Type} {item : α → Except EncodeError Bytes} {xs : List α}
    (h : Encoding.each item xs = .ok w) {x : α} (hx : x ∈ xs) : ∃ v, item x = .ok v := by
  have hwritten : EachWritten (fun x v => item x = .ok v) xs w :=
    eachWritten_of_each (fun _ _ _ => id) h
  exact exists_of_eachWritten hwritten hx

theorem representable_of_limits (hformed : Instruction.Throughout Instruction.Formed u.code)
    (hlimits : u.WithinLimits) (h : u.encode = .ok w) : u.Representable := by
  obtain ⟨title, data, exports, code, htitle, hdata, hexports, hcode, -⟩ := encode_eq_ok h
  obtain ⟨v, hv, -⟩ := encode_code_eq_ok.1 hcode
  have hdataNames : ∀ d ∈ u.data, d.name.length ≤ 0xFFFF := by
    intro d hd
    obtain ⟨_, hdatum⟩ := encode_each_mem hdata hd
    obtain ⟨_, hname, -⟩ := ok_bind.1 hdatum
    exact (encode_name_eq_ok.1 hname).1
  have hexportNames : ∀ e ∈ u.exports.entries, e.1.length ≤ 0xFFFF := by
    intro e he
    obtain ⟨_, hexport⟩ := encode_each_mem hexports he
    obtain ⟨_, hname, -⟩ := ok_bind.1 hexport
    exact (encode_name_eq_ok.1 hname).1
  exact ⟨(encode_name_eq_ok.1 htitle).1, hlimits.dataCount, hdataNames, hlimits.dataValues,
    hlimits.exportCount, hexportNames,
    ⟨hlimits.codeCount, allRepresentable_of_limits hformed hlimits.code hv⟩,
    hasRecords_of_encode hv⟩

theorem withinLimits_of_decode {s : Bytes} (h : decode s = .ok u) : u.WithinLimits := by
  obtain ⟨_, _, hwritten, -⟩ := decode_eq_ok_iff_written.1 h
  obtain ⟨_, _, es, _, _, -, ⟨hdata, hvalues, -⟩, ⟨hexports, -, hmap⟩, ⟨hcode, -⟩, -⟩ := hwritten
  have hsize : u.exports.size ≤ es.length := by
    rw [hmap]
    exact NameMap.size_ofList_le
  exact ⟨by omega, hvalues, by omega, hcode.1,
    Instruction.throughout_of_allRepresentable hcode.2⟩

theorem canonical_of_decode {s : Bytes} (h : decode s = .ok u) :
    ∀ e ∈ u.exports.entries, e.2.Canonical ∧ e.2.IsNamed := by
  obtain ⟨_, _, hwritten, -⟩ := decode_eq_ok_iff_written.1 h
  obtain ⟨_, _, es, _, _, -, -, ⟨-, hes, hmap⟩, -⟩ := hwritten
  intro e he
  obtain ⟨v, hv⟩ := exists_of_eachWritten hes (NameMap.mem_of_mem_ofList (hmap ▸ he))
  exact hv.encodable.1

/-- A unit of well-formed code with plain kinds that was written reads back as it was just if it is
within the limits and exports no callback that returns a callback. -/
theorem decode_encode_iff (hformed : Instruction.Throughout Instruction.Formed u.code)
    (hkinds : u.PlainExports) (h : u.encode = .ok w) :
    decode w = .ok u ↔
      u.WithinLimits ∧ ∀ e ∈ u.exports.entries, e.2 ≠ ⟨.callback, .callback⟩ := by
  constructor
  · intro hread
    refine ⟨withinLimits_of_decode hread, fun e he => ?_⟩
    exact (hkinds e he).1.canonical_iff.1 (canonical_of_decode hread e he).1
  · rintro ⟨hlimits, hcallback⟩
    have hcanonical : ∀ e ∈ u.exports.entries, e.2.Canonical ∧ e.2.IsNamed := fun e he =>
      ⟨(hkinds e he).1.canonical_iff.2 (hcallback e he), (hkinds e he).2⟩
    obtain ⟨v, hv, hwritten⟩ := exists_encode (representable_of_limits hformed hlimits h) hcanonical
    rw [h] at hv
    obtain rfl := Except.ok.inj hv
    exact decode_eq_ok_iff_written.2 ⟨w, [], hwritten, by simp⟩

end CodeUnit

end UnitScript
