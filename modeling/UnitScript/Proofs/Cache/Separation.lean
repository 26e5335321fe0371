import UnitScript.Cache.Key
import UnitScript.Proofs.Bytes
import UnitScript.Proofs.Kind.Texts

/-!
# What a cache key tells apart

The bytes behind a key are a list of segments, each with a zero byte at its end. The segments of the
scratch names and of the dependencies are not empty, so the last two empty segments show where
these lists begin, and all of the name, the scratch names and the dependencies can be read off. The
border between the source and the prelude is not marked. A source with zero bytes in it may end
with what looks like entries of a prelude, and that is the only way for two inputs to meet.
-/

namespace UnitScript

namespace KeyInputs

/-- What callers promise of the inputs, beyond the source: no zero byte in a name, no empty scratch
name or dependency, and only callbacks among the kinds with a result. -/
structure Proper (k : KeyInputs) : Prop where
  name : 0 ∉ k.name
  preludeNames : ∀ e ∈ k.prelude.entries, 0 ∉ e.1
  preludeKinds : ∀ e ∈ k.prelude.entries, e.2.Plain
  scratch : ∀ s ∈ k.scratch, s ≠ [] ∧ 0 ∉ s
  deps : ∀ d ∈ k.deps, d ≠ [] ∧ 0 ∉ d

def entryText (e : Name × Kind) : Bytes := e.1 ++ Bytes.ofString "=" ++ e.2.text

def segments (k : KeyInputs) : List Bytes :=
  version :: k.name :: (Bytes.splitOn 0 k.source ++ k.prelude.entries.map entryText) ++
    [] :: k.scratch ++ [] :: k.deps

variable {a b k : KeyInputs}

theorem flatMap_field_splitOn (s : Bytes) : (Bytes.splitOn 0 s).flatMap field = field s :=
  Bytes.flatMap_splitOn 0 s

theorem preimage_eq_flatMap (k : KeyInputs) : k.preimage = k.segments.flatMap field := by
  have hprelude : (k.prelude.entries.map entryText).flatMap field =
      k.prelude.entries.flatMap kindField := List.flatMap_map ..
  simp only [segments, preimage, List.flatMap_append, List.flatMap_cons,
    flatMap_field_splitOn, hprelude]
  simp [field]

theorem entryText_injective (e f : Name × Kind) (he : e.2.Plain) (hf : f.2.Plain)
    (h : entryText e = entryText f) : e = f := by
  have hsplit : e.1 ++ 61 :: e.2.text = f.1 ++ 61 :: f.2.text := by
    rw [entryText, entryText, List.append_assoc, List.append_assoc] at h
    exact h
  obtain ⟨hname, htext⟩ :=
    split_at_last (e.2.notMem_text (.inr rfl)) (f.2.notMem_text (.inr rfl)) hsplit
  exact Prod.ext hname (he.text_injective hf htext)

theorem zero_notMem_entryText {e : Name × Kind} (he : 0 ∉ e.1) : 0 ∉ entryText e := by
  simp only [entryText, List.mem_append, not_or]
  exact ⟨⟨he, by decide⟩, e.2.notMem_text (.inl rfl)⟩

theorem Proper.zero_notMem_segments (h : k.Proper) : ∀ s ∈ k.segments, 0 ∉ s := by
  intro s hs
  simp only [segments, List.mem_append, List.mem_cons, List.mem_map] at hs
  rcases hs with ((rfl | rfl | hs | ⟨e, he, rfl⟩) | rfl | hs) | rfl | hs
  · decide
  · exact h.name
  · exact Bytes.notMem_of_mem_splitOn hs
  · exact zero_notMem_entryText (h.preludeNames e he)
  · exact List.not_mem_nil
  · exact (h.scratch s hs).2
  · exact List.not_mem_nil
  · exact (h.deps s hs).2

/-- Equal bytes come from the same name, scratch names and dependencies, and from sources and
preludes that have the same segments together. -/
theorem segments_of_preimage_eq (ha : a.Proper) (hb : b.Proper) (h : a.preimage = b.preimage) :
    a.name = b.name ∧ a.scratch = b.scratch ∧ a.deps = b.deps ∧
      Bytes.splitOn 0 a.source ++ a.prelude.entries.map entryText =
        Bytes.splitOn 0 b.source ++ b.prelude.entries.map entryText := by
  rw [preimage_eq_flatMap, preimage_eq_flatMap] at h
  have hsegments : a.segments = b.segments :=
    pieces_injective ha.zero_notMem_segments hb.zero_notMem_segments h
  have hscratch {k : KeyInputs} (hk : k.Proper) : [] ∉ k.scratch :=
    fun hs => (hk.scratch _ hs).1 rfl
  have hdeps {k : KeyInputs} (hk : k.Proper) : [] ∉ k.deps :=
    fun hs => (hk.deps _ hs).1 rfl
  obtain ⟨hfront, hdepsEq⟩ := split_at_last (hdeps ha) (hdeps hb) hsegments
  obtain ⟨hfront, hscratchEq⟩ := split_at_last (hscratch ha) (hscratch hb) hfront
  simp only [List.cons.injEq, true_and] at hfront
  exact ⟨hfront.1, hscratchEq, hdepsEq, hfront.2⟩

/-- The source of `b` is that of `a` with the first entries of its prelude behind it, each after a
zero byte, and the prelude of `b` has the other entries. -/
def Absorbs (a b : KeyInputs) : Prop :=
  ∃ es, a.prelude.entries = es ++ b.prelude.entries ∧
    b.source = a.source ++ es.flatMap fun e => 0 :: entryText e

theorem field_append_entries (s : Bytes) (es : List (Name × Kind)) :
    field (s ++ es.flatMap fun e => 0 :: entryText e) = field s ++ es.flatMap kindField := by
  have hshift : (es.flatMap fun e => 0 :: entryText e) ++ [0] = 0 :: es.flatMap kindField := by
    induction es with
    | nil => rfl
    | cons e es ih =>
      rw [List.flatMap_cons, List.flatMap_cons, List.append_assoc, ih, kindField, field,
        List.append_assoc]
      rfl
  rw [field, field, List.append_assoc, List.append_assoc, hshift, List.singleton_append]

/-- A source that goes on where another ends took over entries of the other's prelude. -/
theorem absorbs_of_segments (ha : a.Proper) (hb : b.Proper) {more : List Bytes}
    (hsource : Bytes.splitOn 0 b.source = Bytes.splitOn 0 a.source ++ more)
    (hprelude : a.prelude.entries.map entryText = more ++ b.prelude.entries.map entryText) :
    Absorbs a b := by
  obtain ⟨es, fs, hentries, rfl, hfs⟩ := List.map_eq_append_iff.1 hprelude
  have hplain : ∀ f ∈ fs, f.2.Plain := fun f hf => ha.preludeKinds f (by simp [hentries, hf])
  have hrest : fs = b.prelude.entries := 
    eq_of_map_eq entryText_injective hplain hb.preludeKinds hfs
  refine ⟨es, by rw [hentries, hrest], ?_⟩
  have hfield : field b.source = field (a.source ++ es.flatMap fun e => 0 :: entryText e) :=
    calc field b.source = (Bytes.splitOn 0 a.source ++ es.map entryText).flatMap field := by
          rw [← hsource, flatMap_field_splitOn]
      _ = field a.source ++ es.flatMap kindField := by
          rw [List.flatMap_append, flatMap_field_splitOn, List.flatMap_map]
          rfl
      _ = _ := (field_append_entries a.source es).symm
  exact List.append_cancel_right hfield

theorem Absorbs.preimage_eq (h : Absorbs a b) (hname : a.name = b.name)
    (hscratch : a.scratch = b.scratch) (hdeps : a.deps = b.deps) : a.preimage = b.preimage := by
  obtain ⟨es, hprelude, hsource⟩ := h
  have hborder : field a.source ++ a.prelude.entries.flatMap kindField =
      field b.source ++ b.prelude.entries.flatMap kindField := by
    rw [hprelude, hsource, List.flatMap_append, field_append_entries, List.append_assoc]
  have hparts (k : KeyInputs) : k.preimage = field version ++ field k.name ++
      (field k.source ++ k.prelude.entries.flatMap kindField) ++
      ([0] ++ k.scratch.flatMap field ++ [0] ++ k.deps.flatMap field) := by
    simp [preimage]
  rw [hparts, hparts, hname, hborder, hscratch, hdeps]

theorem Absorbs.eq_of_zero_notMem (h : Absorbs a b) (hsource : 0 ∉ b.source) :
    a.source = b.source ∧ a.prelude = b.prelude := by
  obtain ⟨es, hprelude, hb⟩ := h
  cases es with
  | nil => exact ⟨by simpa using hb.symm, NameMap.ext_entries hprelude⟩
  | cons e es => exact absurd (by simp [hb]) hsource

theorem absorbs_of_preimage_eq (ha : a.Proper) (hb : b.Proper) (h : a.preimage = b.preimage) :
    a.name = b.name ∧ a.scratch = b.scratch ∧ a.deps = b.deps ∧ (Absorbs a b ∨ Absorbs b a) := by
  obtain ⟨hname, hscratch, hdeps, hsegments⟩ := segments_of_preimage_eq ha hb h
  refine ⟨hname, hscratch, hdeps, ?_⟩
  rcases List.append_eq_append_iff.1 hsegments with
    ⟨more, hsource, hprelude⟩ | ⟨more, hsource, hprelude⟩
  · exact .inl (absorbs_of_segments ha hb hsource hprelude)
  · exact .inr (absorbs_of_segments hb ha hsource hprelude)

theorem eq_of_preimage_eq (ha : a.Proper) (hb : b.Proper) (hsource : 0 ∉ a.source)
    (hsource' : 0 ∉ b.source) (h : a.preimage = b.preimage) : a = b := by
  obtain ⟨hname, hscratch, hdeps, habsorbs⟩ := absorbs_of_preimage_eq ha hb h
  have hsame : a.source = b.source ∧ a.prelude = b.prelude := by
    rcases habsorbs with habsorbs | habsorbs
    · exact habsorbs.eq_of_zero_notMem hsource'
    · exact (habsorbs.eq_of_zero_notMem hsource).imp Eq.symm Eq.symm
  cases a
  cases b
  simp_all

/-- The inputs with all entries of the prelude absorbed by the source. -/
def absorbed (k : KeyInputs) : KeyInputs :=
  { k with
    source := k.source ++ k.prelude.entries.flatMap fun e => 0 :: entryText e
    prelude := .empty }

theorem preimage_absorbed (k : KeyInputs) : k.absorbed.preimage = k.preimage := by
  have habsorbs : Absorbs k k.absorbed := ⟨k.prelude.entries, (List.append_nil _).symm, rfl⟩
  exact (habsorbs.preimage_eq rfl rfl rfl).symm

theorem source_eq_of_preimage_eq (ha : a.absorbed.Proper) (hb : b.absorbed.Proper)
    (h : a.preimage = b.preimage) :
    a.name = b.name ∧ a.scratch = b.scratch ∧ a.deps = b.deps ∧
      (a.prelude = b.prelude → a.source = b.source) := by
  have habsorbed : a.absorbed.preimage = b.absorbed.preimage := by
    rw [preimage_absorbed, preimage_absorbed, h]
  obtain ⟨hname, hscratch, hdeps, hsegments⟩ := segments_of_preimage_eq ha hb habsorbed
  refine ⟨hname, hscratch, hdeps, fun hprelude => ?_⟩
  have hfield : field a.absorbed.source = field b.absorbed.source := by
    have hnil (k : KeyInputs) : k.absorbed.prelude.entries.map entryText = [] := rfl
    rw [hnil, hnil, List.append_nil, List.append_nil] at hsegments
    rw [← flatMap_field_splitOn, hsegments, flatMap_field_splitOn]
  have hsource : a.absorbed.source = b.absorbed.source := List.append_cancel_right hfield
  unfold absorbed at hsource
  rw [hprelude] at hsource
  exact List.append_cancel_right hsource

/-- Two inputs have the same bytes behind their keys just if they agree in name, scratch names and
dependencies and the source of one has absorbed the first entries of the prelude of the other. -/
theorem preimage_eq_iff (ha : a.Proper) (hb : b.Proper) :
    a.preimage = b.preimage ↔
      a.name = b.name ∧ a.scratch = b.scratch ∧ a.deps = b.deps ∧ (Absorbs a b ∨ Absorbs b a) := by
  constructor
  · exact absorbs_of_preimage_eq ha hb
  · rintro ⟨hname, hscratch, hdeps, h | h⟩
    · exact h.preimage_eq hname hscratch hdeps
    · exact (h.preimage_eq hname.symm hscratch.symm hdeps.symm).symm

/-- A program that uses a name of its prelude. -/
def declaredInputs : KeyInputs where
  name := Bytes.ofString "m"
  source := Bytes.ofString "let x = aa; return 1;"
  prelude := NameMap.empty.insert (Bytes.ofString "aa") .string
  scratch := [Bytes.ofString "temp"]
  deps := []

/-- The same program without a prelude, and with a text behind it that no program sees. -/
def undeclaredInputs : KeyInputs where
  name := Bytes.ofString "m"
  source := Bytes.ofString "let x = aa; return 1;" ++ 0 :: Bytes.ofString "aa=string"
  prelude := NameMap.empty
  scratch := [Bytes.ofString "temp"]
  deps := []

theorem declaredInputs_meet_undeclaredInputs :
    declaredInputs.Proper ∧ undeclaredInputs.Proper ∧
      declaredInputs.source ≠ undeclaredInputs.source ∧
      declaredInputs.prelude ≠ undeclaredInputs.prelude ∧
      declaredInputs.preimage = undeclaredInputs.preimage := by
  have hdeclared : declaredInputs.Proper :=
    ⟨by decide, by decide, by decide, by decide, by decide⟩
  have hundeclared : undeclaredInputs.Proper :=
    ⟨by decide, by decide, by decide, by decide, by decide⟩
  refine ⟨hdeclared, hundeclared, by decide, by decide, ?_⟩
  refine (preimage_eq_iff hdeclared hundeclared).2 ?_
  exact ⟨rfl, rfl, rfl, .inl ⟨[(Bytes.ofString "aa", .string)], rfl, rfl⟩⟩

end KeyInputs

end UnitScript
