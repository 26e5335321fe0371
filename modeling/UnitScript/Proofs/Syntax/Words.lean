import UnitScript.Proofs.Syntax.Lexing

/-!
# The characters of words

A name in a source text is a run of letters, digits, marks and underscores, brought into composed
form. Composing makes no characters up to the digit nine from others, and leaves one behind it where
there was one. In the bytes of a text such a character stands for nothing but itself. So the lexeme of
a name has no dot, and it is no numeral, for a name starts with a letter or an underscore.
-/

namespace UnitScript

namespace Text

/-- The code point of the digit nine. The other digits and the dot stand in front of it, and all that
can be taken apart or composed, and all parts of it, stand behind it. -/
def nine : Nat := 57

/-- What stands in front of the digit nine in `ms` comes from `ns`, and if something stands behind it
in `ns`, so does something in `ms`. -/
structure KeepsLow (ns ms : List Nat) : Prop where
  old : ∀ k ∈ ms, k ∈ ns ∨ nine < k
  high : ∀ k ∈ ns, nine < k → ∃ j ∈ ms, nine < j

namespace KeepsLow

variable {ns ms ls ns' ms' : List Nat}

theorem of_mem_iff (h : ∀ k, k ∈ ms ↔ k ∈ ns) : KeepsLow ns ms where
  old := fun k hk => .inl ((h k).1 hk)
  high := fun k hk hlt => ⟨k, (h k).2 hk, hlt⟩

theorem of_high (hne : ms ≠ []) (h : ∀ k ∈ ms, nine < k) : KeepsLow ns ms where
  old := fun k hk => .inr (h k hk)
  high := fun _ _ _ => (List.exists_mem_of_ne_nil _ hne).imp fun k hk => ⟨hk, h k hk⟩

theorem trans (h : KeepsLow ns ms) (h' : KeepsLow ms ls) : KeepsLow ns ls where
  old := fun k hk => (h'.old k hk).elim (h.old k) .inr
  high := fun k hk hlt =>
    have ⟨j, hj, hlt'⟩ := h.high k hk hlt
    h'.high j hj hlt'

theorem append (h : KeepsLow ns ms) (h' : KeepsLow ns' ms') : KeepsLow (ns ++ ns') (ms ++ ms') where
  old := by
    have := h.old
    have := h'.old
    grind
  high := fun k hk hlt => by
    rcases List.mem_append.1 hk with hk | hk
    · exact (h.high k hk hlt).imp fun j hj => ⟨List.mem_append_left _ hj.1, hj.2⟩
    · exact (h'.high k hk hlt).imp fun j hj => ⟨List.mem_append_right _ hj.1, hj.2⟩

theorem flatMap {f : Nat → List Nat} (h : ∀ n, KeepsLow [n] (f n)) (ns : List Nat) :
    KeepsLow ns (ns.flatMap f) := by
  induction ns with
  | nil => exact of_mem_iff fun k => Iff.rfl
  | cons n ns ih => exact append (h n) ih

end KeepsLow

theorem composites_behind_nine :
    (composites.all fun e => nine < e.1 && nine < e.2.1 && nine < e.2.2) = true := by
  decide +kernel

theorem oneWayPairs_behind_nine :
    (oneWayPairs.all fun e => nine < e.2.1 && nine < e.2.2) = true := by
  decide

theorem singletons_behind_nine : (singletons.all fun e => nine < e.2) = true := by
  decide +kernel

theorem behind_decomposeOnce? {n : Nat} {parts : List Nat} (h : decomposeOnce? n = some parts) :
    parts ≠ [] ∧ ∀ k ∈ parts, nine < k := by
  unfold decomposeOnce? at h
  split at h
  · next a b hf =>
    cases h
    have he := List.all_eq_true.1 composites_behind_nine _ (List.mem_of_find?_eq_some hf)
    simp only [Bool.and_eq_true, decide_eq_true_eq] at he
    simp [he.1.2, he.2]
  · split at h
    · next a b hf =>
      cases h
      have he := List.all_eq_true.1 oneWayPairs_behind_nine _ (List.mem_of_find?_eq_some hf)
      simp only [Bool.and_eq_true, decide_eq_true_eq] at he
      simp [he.1, he.2]
    · obtain ⟨e, hf, rfl⟩ := Option.map_eq_some_iff.1 h
      have he := List.all_eq_true.1 singletons_behind_nine _ (List.mem_of_find?_eq_some hf)
      simp [of_decide_eq_true he]

theorem keepsLow_decomposeWithin (depth n : Nat) : KeepsLow [n] (decomposeWithin depth n) := by
  induction depth generalizing n with
  | zero => exact .of_mem_iff fun k => Iff.rfl
  | succ depth ih =>
    rw [decomposeWithin]
    split
    · next parts hp =>
      obtain ⟨hne, hparts⟩ := behind_decomposeOnce? hp
      exact .trans (.of_high hne hparts) (.flatMap ih parts)
    · exact .of_mem_iff fun k => Iff.rfl

theorem keepsLow_decompose (n : Nat) : KeepsLow [n] (decompose n) := by
  unfold decompose
  split
  · exact .of_mem_iff fun k => Iff.rfl
  · split
    · have hlead : ∀ k, nine < Hangul.leadBase + k := fun k => Nat.lt_add_right k (by decide)
      have hvowel : ∀ k, nine < Hangul.vowelBase + k := fun k => Nat.lt_add_right k (by decide)
      have htrail : ∀ k, nine < Hangul.trailBase + k := fun k => Nat.lt_add_right k (by decide)
      simp only [Hangul.decompose]
      split <;> exact .of_high (by simp) (by simp [hlead, hvowel, htrail])
    · exact keepsLow_decomposeWithin 3 n

theorem compose?_behind {a b s : Nat} (h : compose? a b = some s) : nine < s := by
  unfold compose? at h
  split at h
  · next s' hs =>
    cases h
    unfold Hangul.compose? at hs
    split at hs
    · rw [← Option.some.inj hs]
      exact Nat.lt_add_right _ (by decide)
    · split at hs
      · next hparts =>
        rw [← Option.some.inj hs]
        simp only [Hangul.isSyllable, Bool.and_eq_true, decide_eq_true_eq] at hparts
        exact Nat.lt_add_right _ (Nat.lt_of_lt_of_le (by decide) hparts.1.1.1)
      · cases hs
  · obtain ⟨e, hf, rfl⟩ := Option.map_eq_some_iff.1 h
    have he := List.all_eq_true.1 composites_behind_nine _ (List.mem_of_find?_eq_some hf)
    simp only [Bool.and_eq_true, decide_eq_true_eq] at he
    exact he.1.1

theorem keepsLow_streamSafe (run : Nat) (ns : List Nat) : KeepsLow ns (streamSafe run ns) := by
  have hjoiner : nine < graphemeJoiner := by decide
  induction ns generalizing run with
  | nil => exact .of_mem_iff fun k => Iff.rfl
  | cons n rest ih =>
    have hkeep : ∀ run, KeepsLow (n :: rest) (n :: streamSafe run rest) := fun run =>
      .append (.of_mem_iff fun k => (Iff.rfl : k ∈ [n] ↔ _)) (ih run)
    simp only [streamSafe]
    split
    · have hfront : KeepsLow [] [graphemeJoiner] := .of_high (by simp) (by simp [hjoiner])
      exact .append hfront (hkeep _)
    · split <;> exact hkeep _

theorem mem_insertMark {n x : Nat} {ms : List Nat} : x ∈ insertMark n ms ↔ x = n ∨ x ∈ ms := by
  induction ms with
  | nil => simp [insertMark]
  | cons m ms ih =>
    rw [insertMark]
    split
    · rw [List.mem_cons, ih, List.mem_cons, or_left_comm]
    · rw [List.mem_cons]

theorem mem_orderMarks {x : Nat} {ns : List Nat} : x ∈ orderMarks ns ↔ x ∈ ns := by
  unfold orderMarks
  induction ns with
  | nil => rfl
  | cons n ns ih =>
    rw [List.foldr_cons]
    split
    · rw [List.mem_cons, ih, List.mem_cons]
    · rw [mem_insertMark, ih, List.mem_cons]

theorem keepsLow_composeFrom (starter : Nat) (skipped ns : List Nat) :
    KeepsLow (starter :: skipped ++ ns) (composeFrom starter skipped ns) := by
  induction ns generalizing starter skipped with
  | nil => exact .of_mem_iff (by simp [composeFrom])
  | cons n rest ih =>
    simp only [composeFrom]
    split
    · next s hc =>
      obtain ⟨-, hc⟩ := Option.ite_none_left_eq_some.1 hc
      have hs := compose?_behind hc
      exact .trans ⟨by grind, fun _ _ _ => ⟨s, by simp, hs⟩⟩ (ih s skipped)
    · split
      · exact .append (.of_mem_iff (by simp)) (ih n [])
      · exact .trans (.of_mem_iff (by grind)) (ih starter (n :: skipped))

theorem keepsLow_composeAll (ns : List Nat) : KeepsLow ns (composeAll ns) := by
  cases ns with
  | nil => exact .of_mem_iff fun k => Iff.rfl
  | cons n rest => exact keepsLow_composeFrom n [] rest

theorem keepsLow_composed (cs : List Char) : ∃ ns, composed cs = ns.map Char.ofNat ∧
    KeepsLow (cs.map Char.toNat) ns := by
  unfold composed
  split
  · exact ⟨_, by simp [Function.comp_def], .of_mem_iff fun k => Iff.rfl⟩
  · exact ⟨_, rfl, .trans (keepsLow_streamSafe 0 _) (.trans (.flatMap keepsLow_decompose _)
      (.trans (.of_mem_iff fun _ => mem_orderMarks) (keepsLow_composeAll _)))⟩

theorem toNat_ofNat (n : Nat) : (Char.ofNat n).toNat = n ∨ (Char.ofNat n).toNat = 0 := by
  by_cases hv : n.isValidChar
  · left
    rw [Char.ofNat, dif_pos hv]
    rfl
  · right
    rw [Char.ofNat, dif_neg hv]
    rfl

theorem dot_notMem_composed {cs : List Char} (h : '.' ∉ cs) : '.' ∉ composed cs := by
  obtain ⟨ns, hns, hkeeps⟩ := keepsLow_composed cs
  rw [hns]
  intro hdot
  obtain ⟨n, hn, hchar⟩ := List.mem_map.1 hdot
  have hcode : n = '.'.toNat := by
    have := toNat_ofNat n
    rw [hchar] at this
    exact (this.resolve_right (by decide)).symm
  rcases hkeeps.old n hn with hold | hlt
  · obtain ⟨c, hc, hcn⟩ := List.mem_map.1 hold
    exact h (Char.toNat_inj.1 (hcn.trans hcode) ▸ hc)
  · rw [hcode] at hlt
    exact absurd hlt (by decide)

theorem isDigit_eq_false_iff {c : Char} :
    Token.isDigit c = false ↔ c.toNat < 48 ∨ nine < c.toNat := by
  have hle : ∀ c d : Char, c ≤ d ↔ c.toNat ≤ d.toNat := fun c d => Iff.rfl
  have hzero : '0'.toNat = 48 := rfl
  have hnine : '9'.toNat = nine := rfl
  simp only [Token.isDigit, Bool.and_eq_false_iff, decide_eq_false_iff_not, hle, hzero, hnine]
  omega

theorem exists_not_digit_composed {cs : List Char} (h : ∃ c ∈ cs, nine < c.toNat) :
    ∃ c ∈ composed cs, Token.isDigit c = false := by
  obtain ⟨ns, hns, hkeeps⟩ := keepsLow_composed cs
  obtain ⟨c, hc, hlt⟩ := h
  obtain ⟨k, hk, hlt⟩ := hkeeps.high _ (List.mem_map_of_mem hc) hlt
  refine ⟨Char.ofNat k, hns ▸ List.mem_map_of_mem hk, ?_⟩
  have hcode := toNat_ofNat k
  rw [isDigit_eq_false_iff]
  omega

end Text

namespace Bytes

/-- A byte of a character that is an ASCII byte is the character's code point. -/
theorem toNat_of_mem_utf8EncodeChar {c : Char} {b : UInt8} (h : b ∈ String.utf8EncodeChar c) :
    b.toNat = c.toNat ∨ 128 ≤ b.toNat := by
  have hbyte : ∀ k : Nat, b = UInt8.ofNat k → b.toNat = k % 256 := fun k hk => by
    rw [hk, UInt8.toNat_ofNat']
  change b.toNat = c.val.toNat ∨ 128 ≤ b.toNat
  simp only [String.utf8EncodeChar] at h
  split at h
  · have := hbyte _ (List.mem_singleton.1 h)
    omega
  · right
    split at h
    · simp only [List.mem_cons, List.not_mem_nil, or_false] at h
      rcases h with h | h <;> have := hbyte _ h <;> omega
    · split at h
      all_goals simp only [List.mem_cons, List.not_mem_nil, or_false] at h
      · rcases h with h | h | h <;> have := hbyte _ h <;> omega
      · rcases h with h | h | h | h <;> have := hbyte _ h <;> omega

theorem dot_notMem_ofChars {cs : List Char} (h : '.' ∉ cs) : 46 ∉ ofChars cs := by
  intro hmem
  obtain ⟨c, hc, hdot⟩ := List.mem_flatMap.1 hmem
  have hcode : '.'.toNat = c.toNat := (toNat_of_mem_utf8EncodeChar hdot).resolve_right (by decide)
  exact h (Char.toNat_inj.1 hcode ▸ hc)

theorem exists_not_digit_ofChars {cs : List Char} (h : ∃ c ∈ cs, Token.isDigit c = false) :
    ∃ b ∈ ofChars cs, isDigit b = false := by
  obtain ⟨c, hc, hdigit⟩ := h
  obtain ⟨b, hb⟩ := List.exists_mem_of_ne_nil _ (String.utf8EncodeChar_ne_nil (c := c))
  refine ⟨b, List.mem_flatMap.2 ⟨c, hc, hb⟩, ?_⟩
  have hcode := toNat_of_mem_utf8EncodeChar hb
  rw [Text.isDigit_eq_false_iff] at hdigit
  simp only [isDigit, Text.nine, Bool.and_eq_false_iff, decide_eq_false_iff_not, UInt8.le_iff_toNat_le,
    UInt8.toNat_ofNat] at hdigit ⊢
  omega

/-- No dot, and a byte that is no digit. -/
def IsWord (x : Bytes) : Prop := 46 ∉ x ∧ ∃ b ∈ x, isDigit b = false

end Bytes

def Token.Named (W : Name → Prop) (t : Token) : Prop := t.kind = .ident → W t.lexeme

def Token.Plain (t : Token) : Prop := t.Named fun x => 46 ∉ x

namespace Token

theorem startsName_behind_nine {x : Char} (h : startsName x = true) : Text.nine < x.toNat := by
  have hlow : ∀ n : Fin 58, startsName (Char.ofNat n) = false := by decide
  refine Nat.lt_of_not_le fun hle => ?_
  have hx := hlow ⟨x.toNat, Nat.lt_succ_of_le hle⟩
  rw [Char.ofNat_toNat, h] at hx
  cases hx

theorem isWord_of_run {x : Char} {run rest : List Char} (hx : startsName x = true)
    (hrun : ∀ y ∈ x :: run, continuesName y = true) :
    (Bytes.ofChars (Text.composed (runText (x :: run) rest))).IsWord := by
  have hfirst : x ∈ runText (x :: run) rest := by
    unfold runText
    split <;> simp
  refine ⟨Bytes.dot_notMem_ofChars (Text.dot_notMem_composed ?_), Bytes.exists_not_digit_ofChars
    (Text.exists_not_digit_composed ⟨x, hfirst, startsName_behind_nine hx⟩)⟩
  have hmem : '.' ∉ x :: run := fun hmem => absurd (hrun _ hmem) (by decide)
  unfold runText
  split
  · simpa using hmem
  · exact hmem

theorem words_scan (cs : List Char) : ∀ t ∈ (scan cs).tokens, t.Named Bytes.IsWord := by
  intro t ht hident
  obtain ⟨_, _, _, _, -, hlex⟩ := (scans_scan cs).lexes t ht
  cases hlex with
  | word hstarts hrun => exact isWord_of_run hstarts hrun
  | symbol hkind =>
    obtain rfl := hident
    cases hkind
  | number | string | unterminated | badEscape | stray => cases hident

theorem plain_scan (cs : List Char) : ∀ t ∈ (scan cs).tokens, t.Plain :=
  fun t ht hident => (words_scan cs t ht hident).1

end Token

end UnitScript
