import Mathlib.Data.List.Forall2
import UnitScript.Proofs.Bytes
import UnitScript.Proofs.Code.Limits

/-!
# A unit is determined by its encoding

Different units have different encodings, and what an encoding is read as is the unit that was
encoded. Here the kinds of exports need not be ones that are read back: the encoding has their texts
in it, and a plain kind is determined by its text.
-/

namespace UnitScript

namespace Decoding

theorem Exact.unique {α : Type} {r : Reader α} {W : α → Bytes → Prop} (h : Exact r W) {x y : α}
    {v w s t : Bytes} (hx : W x v) (hy : W y w) (heq : v ++ s = w ++ t) : x = y ∧ s = t := by
  have hread : r (v ++ s) = .ok (x, s) := h.complete hx s
  have hread' : r (v ++ s) = .ok (y, t) := heq ▸ h.complete hy t
  rw [hread] at hread'
  exact Prod.mk.inj (Except.ok.inj hread')

def labelled : Reader (Name × Bytes) := do
  let title ← name
  let text ← name
  return (title, text)

def LabelledWritten (p : Name × Bytes) (w : Bytes) : Prop :=
  ∃ w₁ w₂, Encoding.name p.1 = .ok w₁ ∧ Encoding.name p.2 = .ok w₂ ∧ w = w₁ ++ w₂

theorem exact_labelled : Exact labelled LabelledWritten := by
  refine (exact_name.bind fun title => exact_name.map fun text => (title, text)).congr ?_
  rintro ⟨title, text⟩ w
  constructor
  · rintro ⟨_, w₁, w₂, hw₁, ⟨_, hw₂, hpair⟩, rfl⟩
    cases hpair
    exact ⟨w₁, w₂, hw₁, hw₂, rfl⟩
  · rintro ⟨w₁, w₂, hw₁, hw₂, rfl⟩
    exact ⟨title, w₁, w₂, hw₁, ⟨text, hw₂, rfl⟩, rfl⟩

/-- The written form of a unit from its name, its data, the texts of its exports and its code. -/
def PartsWritten (title : Name) (data : List Datum) (exports : List (Name × Bytes))
    (code : List Instruction) (w : Bytes) : Prop :=
  ∃ w₁ w₂ w₃ w₄, Encoding.name title = .ok w₁ ∧
    (data.length < 256 ^ 4 ∧ ∃ v, EachWritten (fun d w => d.value.length ≤ maxRegion ∧
      Encoding.datum d = .ok w) data v ∧ w₂ = Encoding.littleEndian 4 data.length ++ v) ∧
    (exports.length < 256 ^ 4 ∧ ∃ v, EachWritten LabelledWritten exports v ∧
      w₃ = Encoding.littleEndian 4 exports.length ++ v) ∧
    (Representable code ∧ Encoding.code code = .ok w₄) ∧
    w = Encoding.magic ++ (w₁ ++ (w₂ ++ (w₃ ++ w₄)))

theorem PartsWritten.unique {title title' : Name} {data data' : List Datum}
    {exports exports' : List (Name × Bytes)} {code code' : List Instruction} {v w s t : Bytes}
    (h : PartsWritten title data exports code v) (h' : PartsWritten title' data' exports' code' w)
    (heq : v ++ s = w ++ t) :
    title = title' ∧ data = data' ∧ exports = exports' ∧ code = code' := by
  obtain ⟨v₁, v₂, v₃, v₄, hv₁, hv₂, hv₃, hv₄, rfl⟩ := h
  obtain ⟨w₁, w₂, w₃, w₄, hw₁, hw₂, hw₃, hw₄, rfl⟩ := h'
  simp only [List.append_assoc] at heq
  have hrest := List.append_cancel_left heq
  obtain ⟨htitle, hrest⟩ := exact_name.unique hv₁ hw₁ hrest
  obtain ⟨hdata, hrest⟩ := (exact_counted exact_datum 4).unique hv₂ hw₂ hrest
  obtain ⟨hexports, hrest⟩ := (exact_counted exact_labelled 4).unique hv₃ hw₃ hrest
  obtain ⟨hcode, -⟩ := exact_code.unique hv₄ hw₄ hrest
  exact ⟨htitle, hdata, hexports, hcode⟩

theorem labelledWritten_of_exported {e : Name × Kind} {w : Bytes}
    (h : Encoding.exported e = .ok w) : LabelledWritten (e.1, e.2.text) w := by
  simp only [Encoding.exported, ok_bind, ok_return] at h
  obtain ⟨w₁, hname, w₂, htext, rfl⟩ := h
  exact ⟨w₁, w₂, hname, htext, rfl⟩

theorem eachWritten_texts {es : List (Name × Kind)} {w : Bytes}
    (h : Encoding.each Encoding.exported es = .ok w) :
    EachWritten LabelledWritten (es.map fun e => (e.1, e.2.text)) w := by
  induction es generalizing w with
  | nil =>
    rw [Encoding.each] at h
    exact (Except.ok.inj h).symm
  | cons e es ih =>
    obtain ⟨w₁, w₂, hw₁, hw₂, rfl⟩ := encode_each_cons.1 h
    exact ⟨w₁, w₂, labelledWritten_of_exported hw₁, ih hw₂, rfl⟩

/-- The kinds are what the texts read as. -/
def ReadFrom (es : List (Name × Kind)) (ts : List (Name × Bytes)) : Prop :=
  List.Forall₂ (fun e t => e.1 = t.1 ∧ Kind.parse t.2 = .ok e.2) es ts

theorem texts_of_eachWritten {es : List (Name × Kind)} {w : Bytes}
    (h : EachWritten ExportWritten es w) :
    ∃ ts, EachWritten LabelledWritten ts w ∧ ReadFrom es ts := by
  induction es generalizing w with
  | nil => exact ⟨[], h, .nil⟩
  | cons e es ih =>
    obtain ⟨w₁, w₂, ⟨text, v₁, v₂, hparse, hname, htext, rfl⟩, hes, rfl⟩ := h
    obtain ⟨ts, hts, hread⟩ := ih hes
    exact ⟨(e.1, text) :: ts, ⟨_, w₂, ⟨v₁, v₂, hname, htext, rfl⟩, hts, rfl⟩,
      .cons ⟨rfl, hparse⟩ hread⟩

theorem ReadFrom.eq {es fs : List (Name × Kind)} (hfs : ∀ f ∈ fs, f.2.Plain ∧ f.2.IsNamed)
    (h : ReadFrom es (fs.map fun f => (f.1, f.2.text))) : es = fs := by
  induction fs generalizing es with
  | nil =>
    cases h
    rfl
  | cons f fs ih =>
    rw [List.forall_mem_cons] at hfs
    cases h with
    | @cons e _ es _ hef hrest =>
      have hkind : e.2 = f.2 := ((Kind.parse_text_eq_ok_iff hfs.1.2 hfs.1.1).1 hef.2).1
      rw [ih hfs.2 hrest, Prod.ext hef.1 hkind]

theorem UnitWritten.parts {v : CodeUnit} {w : Bytes} (h : UnitWritten v w) :
    ∃ es ts, PartsWritten v.name v.data ts v.code w ∧ ReadFrom es ts ∧ v.exports = .ofList es := by
  obtain ⟨title, data, es, exports, code, htitle, ⟨hcount, hfit, hdata⟩, ⟨hes, hwritten, hmap⟩,
    hcode, rfl⟩ := h
  obtain ⟨ts, hts, hread⟩ := texts_of_eachWritten hwritten
  have hlength : es.length = ts.length := hread.length_eq
  refine ⟨es, ts, ⟨title, _, _, code, htitle, ⟨hcount, data, ?_, rfl⟩, ⟨?_, exports, hts, rfl⟩,
    hcode, ?_⟩, hread, hmap⟩
  · exact eachWritten_iff.2 ⟨hfit, hdata⟩
  · rwa [← hlength]
  · simp [hlength]

end Decoding

namespace CodeUnit

open Decoding

variable {u v : CodeUnit} {w : Bytes}

/-- A unit whose encoding tells all about it. -/
structure Faithful (u : CodeUnit) : Prop where
  representable : u.Representable
  plain : u.PlainExports

theorem partsWritten_of_encode (hu : u.Representable) (h : u.encode = .ok w) :
    PartsWritten u.name u.data (u.exports.entries.map fun e => (e.1, e.2.text)) u.code w := by
  obtain ⟨title, data, exports, code, htitle, hdata, hexports, hcode, rfl⟩ := encode_eq_ok h
  have hdataCount := hu.dataCount
  have hexportCount := hu.exportCount
  unfold NameMap.size at hexportCount
  refine ⟨title, _, _, code, htitle, ⟨by omega, data, ?_, rfl⟩,
    ⟨by rw [List.length_map]; omega, exports, eachWritten_texts hexports, rfl⟩,
    ⟨hu.code, hcode⟩, ?_⟩
  · exact eachWritten_iff.2 ⟨hu.dataValues, hdata⟩
  · simp [NameMap.size]

theorem Faithful.eq_of_decode (hu : u.Faithful) (hencode : u.encode = .ok w)
    (hdecode : decode w = .ok v) : v = u := by
  obtain ⟨w', rest, hwritten, heq⟩ := decode_eq_ok_iff_written.1 hdecode
  obtain ⟨es, ts, hparts, hread, hmap⟩ := hwritten.parts
  have hfront : w' ++ rest = w ++ [] := by rw [List.append_nil, heq]
  obtain ⟨hname, hdata, hexports, hcode⟩ :=
    hparts.unique (partsWritten_of_encode hu.representable hencode) hfront
  subst hexports
  have hentries : v.exports = u.exports := by
    rw [hmap, hread.eq hu.plain, NameMap.ofList_entries]
  cases u
  cases v
  simp_all

theorem Faithful.encode_injective (hu : u.Faithful) (hv : v.Faithful) (h : u.encode = .ok w)
    (h' : v.encode = .ok w) : u = v := by
  have hparts := partsWritten_of_encode hu.representable h
  obtain ⟨hname, hdata, htexts, hcode⟩ :=
    hparts.unique (partsWritten_of_encode hv.representable h') (s := []) (t := []) rfl
  have htext (e f : Name × Kind) (he : e.2.Plain ∧ e.2.IsNamed) (hf : f.2.Plain ∧ f.2.IsNamed)
      (h : (e.1, e.2.text) = (f.1, f.2.text)) : e = f := by
    obtain ⟨htitle, htext⟩ := Prod.mk.inj h
    exact Prod.ext htitle (he.1.text_injective hf.1 htext)
  have hentries : u.exports.entries = v.exports.entries := 
    eq_of_map_eq htext hu.plain hv.plain htexts
  have hexports : u.exports = v.exports := NameMap.ext_entries hentries
  cases u
  cases v
  simp_all

end CodeUnit

end UnitScript
