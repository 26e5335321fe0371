import UnitScript.Proofs.Kind.Texts

/-!
# Normal forms of units

A unit has many written forms: its exports may stand in any order and more than once, and a kind has
several spellings. Reading any of them gives a unit that can be written again. The encoder picks one
form, the normal one, which reads as the same unit and is its own normal form.
-/

namespace UnitScript

namespace Decoding

theorem exists_of_eachWritten {α : Type} {W : α → Bytes → Prop} {xs : List α} {w : Bytes}
    (h : EachWritten W xs w) {x : α} (hx : x ∈ xs) : ∃ v, W x v := by
  induction xs generalizing w with
  | nil => cases hx
  | cons y ys ih =>
    obtain ⟨w₁, w₂, hy, hys, _⟩ := h
    rcases List.mem_cons.1 hx with rfl | hx
    · exact ⟨w₁, hy⟩
    · exact ih hys hx

theorem ExportWritten.encodable {e : Name × Kind} {w : Bytes} (h : ExportWritten e w) :
    (e.2.Canonical ∧ e.2.IsNamed) ∧ ∃ v, Encoding.exported e = .ok v := by
  obtain ⟨text, w₁, _, hparse, hname, _⟩ := h
  have hkind := Kind.canonical_of_parse hparse
  obtain ⟨w₂, htext⟩ := encode_name_ok (Kind.length_text_le hkind.2)
  exact ⟨hkind, _, ok_bind.2 ⟨w₁, hname, ok_bind.2 ⟨w₂, htext, rfl⟩⟩⟩

theorem UnitWritten.exists_encode {u : CodeUnit} {w : Bytes} (h : UnitWritten u w) :
    ∃ v, u.encode = .ok v ∧ UnitWritten u v := by
  obtain ⟨title, data, es, _, code, htitle, hdata, ⟨hcount, hwritten, hmap⟩, hcode, _⟩ := h
  have hexport : ∀ e ∈ u.exports.entries,
      (e.2.Canonical ∧ e.2.IsNamed) ∧ ∃ v, Encoding.exported e = .ok v := by
    intro e he
    obtain ⟨v, hv⟩ := exists_of_eachWritten hwritten (NameMap.mem_of_mem_ofList (hmap ▸ he))
    exact hv.encodable
  obtain ⟨exports, hexports⟩ := encode_each_ok fun e he => (hexport e he).2
  have hsize : u.exports.entries.length ≤ es.length := by
    rw [hmap]
    exact NameMap.size_ofList_le
  have hentries : EachWritten ExportWritten u.exports.entries exports :=
    eachWritten_of_each (fun e he _ =>
      CodeUnit.exportWritten_text (hexport e he).1.2 (hexport e he).1.1) hexports
  refine ⟨_, ok_bind.2 ⟨title, htitle, ok_bind.2 ⟨data, hdata.2.2, ok_bind.2 ⟨exports, hexports,
    ok_bind.2 ⟨code, hcode.2, rfl⟩⟩⟩⟩, title, data, u.exports.entries, exports, code, htitle,
    hdata, ⟨by omega, hentries, ?_⟩, hcode, rfl⟩
  exact (NameMap.ofList_entries u.exports).symm

end Decoding

namespace CodeUnit

open Decoding

theorem decode_eq_ok_iff_written {s : Bytes} {u : CodeUnit} :
    decode s = .ok u ↔ ∃ w rest, UnitWritten u w ∧ s = w ++ rest := by
  simp only [decode_eq_ok_iff, exact_codeUnit s u]
  constructor
  · rintro ⟨rest, w, hw, hs⟩
    exact ⟨w, rest, hw, hs⟩
  · rintro ⟨w, rest, hw, hs⟩
    exact ⟨rest, w, hw, hs⟩

/-- Whatever bytes a unit was read from, it can be written, the bytes written read as the same
unit, and writing what they read as gives the same bytes again. -/
theorem encode_of_decode {s : Bytes} {u : CodeUnit} (h : decode s = .ok u) :
    ∃ w, u.encode = .ok w ∧ decode w = .ok u ∧ ∀ v, decode w = .ok v → v.encode = .ok w := by
  obtain ⟨_, _, hwritten, _⟩ := decode_eq_ok_iff_written.1 h
  obtain ⟨w, hencode, hw⟩ := hwritten.exists_encode
  have hdecode : decode w = .ok u := decode_eq_ok_iff_written.2 ⟨w, [], hw, by simp⟩
  refine ⟨w, hencode, hdecode, fun v hv => ?_⟩
  rw [hdecode] at hv
  rw [← Except.ok.inj hv, hencode]

/-- A written form of a unit that is not the normal one: two exports out of order, one of them
twice, kinds in other spellings and with blanks around them, and bytes behind the code. -/
def untidyBytes : Bytes :=
  Encoding.magic ++ [1, 0, 117] ++ [0, 0, 0, 0] ++ [3, 0, 0, 0] ++
    [1, 0, 103, 4, 0] ++ Bytes.ofString "func" ++
    [1, 0, 102, 8, 0] ++ Bytes.ofString " number\n" ++
    [1, 0, 103, 0, 0] ++
    [0, 0, 0, 0] ++ Bytes.ofString "more"

def untidyUnit : CodeUnit where
  name := Bytes.ofString "u"
  exports := NameMap.empty.insert (Bytes.ofString "f") .number |>.insert
    (Bytes.ofString "g") .undefined

theorem untidyBytes_normal_form :
    decode untidyBytes = .ok untidyUnit ∧ untidyUnit.encode ≠ .ok untidyBytes ∧
      ∃ w, untidyUnit.encode = .ok w ∧ decode w = .ok untidyUnit ∧
        ∀ v, decode w = .ok v → v.encode = .ok w := by
  have hread : decode untidyBytes = .ok untidyUnit := by decide
  exact ⟨hread, by decide, encode_of_decode hread⟩

end CodeUnit

end UnitScript
