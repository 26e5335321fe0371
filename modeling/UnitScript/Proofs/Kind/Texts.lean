import UnitScript.Proofs.Code.UnitForm
import UnitScript.Proofs.Lowering.Scratch

/-!
# Kinds and their texts

Reading a kind gives one of the canonical kinds with a name, whatever spelling it is read from. In
the other direction a kind is determined by its text as long as only callbacks have a result, and
no text of a kind has a zero byte or an equals sign in it.
-/

namespace UnitScript

namespace Bytes

theorem ofInt_injective {a b : Int} (h : ofInt a = ofInt b) : a = b := by
  have hminus (n : Nat) {s : Bytes} : ofNat n ≠ 45 :: s := by
    intro hn
    have hmem : (45 : UInt8) ∈ ofNat n := hn ▸ List.mem_cons_self
    exact absurd (isDigit_of_mem_ofNat hmem) (by decide)
  cases a with
  | ofNat m =>
    cases b with
    | ofNat n => exact congrArg Int.ofNat (ofNat_injective h)
    | negSucc n => exact absurd h (hminus m)
  | negSucc m =>
    cases b with
    | ofNat n => exact absurd h.symm (hminus n)
    | negSucc n =>
      injection h with _ hdigits
      exact congrArg Int.negSucc (Nat.succ.inj (ofNat_injective hdigits))

theorem sign_or_digit_of_mem_ofInt {v : Int} {b : UInt8} (h : b ∈ ofInt v) :
    b = 45 ∨ isDigit b = true := by
  cases v with
  | ofNat n => exact .inr (isDigit_of_mem_ofNat h)
  | negSucc n =>
    rcases List.mem_cons.1 h with rfl | h
    · exact .inl rfl
    · exact .inr (isDigit_of_mem_ofNat h)

end Bytes

namespace Tag

theorem isNamed_of_parse? {s : Bytes} {t : Tag} (h : parse? s = some t) : t.IsNamed := by
  unfold parse? at h
  repeat' split at h
  all_goals cases h <;> trivial

/-- The text of a tag with a name does not begin like those of the others. -/
theorem head?_text_ne {t : Tag} (h : t.IsNamed) : t.text.head? ≠ some 84 := by
  cases t with
  | other code => exact h.elim
  | _ => decide

theorem text_injective {a b : Tag} (h : a.text = b.text) : a = b := by
  cases a with
  | other x =>
    cases b with
    | other y =>
      have hcode : Bytes.ofInt x = Bytes.ofInt y :=
        List.append_cancel_left (List.append_cancel_right h)
      exact congrArg other (Bytes.ofInt_injective hcode)
    | _ => exact absurd (congrArg List.head? h).symm (head?_text_ne trivial)
  | _ =>
    cases b with
    | other y => exact absurd (congrArg List.head? h) (head?_text_ne trivial)
    | _ =>
      revert h
      decide

theorem notMem_text (t : Tag) {b : UInt8} (hb : b = 0 ∨ b = 58 ∨ b = 61) : b ∉ t.text := by
  cases t with
  | other code =>
    intro h
    rcases List.mem_append.1 h with h | h
    · rcases List.mem_append.1 h with h | h
      · rcases hb with rfl | rfl | rfl <;> exact absurd h (by decide)
      · have hdigit := Bytes.sign_or_digit_of_mem_ofInt h
        rcases hb with rfl | rfl | rfl <;> exact absurd hdigit (by decide)
    · rcases hb with rfl | rfl | rfl <;> exact absurd h (by decide)
  | _ => rcases hb with rfl | rfl | rfl <;> decide

theorem text_ne_callback (t : Tag) (s : Bytes) : t.text ≠ Bytes.ofString "callback:" ++ s := by
  intro h
  have hcolon : (58 : UInt8) ∈ t.text := by
    rw [h]
    exact List.mem_append_left _ (by decide)
  exact t.notMem_text (.inr (.inl rfl)) hcolon

end Tag

namespace Kind

/-- Only a callback has a result. -/
def Plain (k : Kind) : Prop := k.tag ≠ .callback → k.result = .undefined

instance (k : Kind) : Decidable k.Plain :=
  inferInstanceAs (Decidable (k.tag ≠ .callback → k.result = .undefined))

variable {k j : Kind}

theorem Plain.text_cases (h : k.Plain) :
    (k.result = .undefined ∧ k.text = k.tag.text) ∨
      (k.tag = .callback ∧ k.text = Bytes.ofString "callback:" ++ k.result.text) := by
  by_cases hresult : k.result = .undefined
  · exact .inl ⟨hresult, by simp [text, hasResult, hresult]⟩
  · have htag : k.tag = .callback := by
      by_contra htag
      exact hresult (h htag)
    exact .inr ⟨htag, by simp [text, hasResult, htag, hresult]⟩

theorem Plain.text_injective (hk : k.Plain) (hj : j.Plain) (h : k.text = j.text) : k = j := by
  obtain ⟨tag, result⟩ := k
  obtain ⟨tag', result'⟩ := j
  rcases hk.text_cases with ⟨hkresult, hktext⟩ | ⟨hktag, hktext⟩ <;>
    rcases hj.text_cases with ⟨hjresult, hjtext⟩ | ⟨hjtag, hjtext⟩ <;> rw [hktext, hjtext] at h
  · simp only at hkresult hjresult h
    rw [hkresult, hjresult, Tag.text_injective h]
  · exact absurd h (Tag.text_ne_callback _ _)
  · exact absurd h.symm (Tag.text_ne_callback _ _)
  · simp only at hktag hjtag h
    rw [hktag, hjtag, Tag.text_injective (List.append_cancel_left h)]

theorem notMem_text (k : Kind) {b : UInt8} (hb : b = 0 ∨ b = 61) : b ∉ k.text := by
  have htag (t : Tag) : b ∉ t.text := t.notMem_text (hb.imp_right .inr)
  unfold text
  split
  · intro h
    rcases List.mem_append.1 h with h | h
    · rcases hb with rfl | rfl <;> exact absurd h (by decide)
    · exact htag _ h
  · exact htag _

/-- Whatever spelling a kind is read from, it is canonical and its tags are among the six. -/
theorem canonical_of_parse {s : Bytes} (h : parse s = .ok k) : k.Canonical ∧ k.IsNamed := by
  simp only [parse] at h
  split at h
  · split at h
    · cases h
    · cases h
    · cases h
    · next tag hcallback _ htag =>
      cases h
      exact ⟨⟨fun hne => absurd rfl hne, fun _ => hcallback⟩, trivial, Tag.isNamed_of_parse? htag⟩
  · split at h
    · cases h
    · next tag htag =>
      cases h
      exact ⟨⟨fun _ => rfl, fun _ => by simp⟩, Tag.isNamed_of_parse? htag, trivial⟩

theorem Plain.canonical_iff (h : k.Plain) : k.Canonical ↔ k ≠ ⟨.callback, .callback⟩ := by
  constructor
  · rintro hcanonical rfl
    exact hcanonical.callback rfl rfl
  · intro hne
    refine ⟨h, fun htag hresult => hne ?_⟩
    cases k
    simp only at htag hresult
    rw [htag, hresult]

theorem parse_text_eq_ok_iff (hnamed : k.IsNamed) (hplain : k.Plain) :
    parse k.text = .ok j ↔ j = k ∧ k ≠ ⟨.callback, .callback⟩ := by
  by_cases hk : k = ⟨.callback, .callback⟩
  · subst hk
    have herror : parse (text ⟨.callback, .callback⟩) =
        .error (.badResult (Bytes.ofString "callback")) := rfl
    simp [herror]
  · rw [parse_text hnamed (hplain.canonical_iff.2 hk)]
    simp [hk, eq_comm]

end Kind

end UnitScript
