import UnitScript.Bytes

/-!
# Pieces of byte strings

A string is determined by its pieces between separators, and a separator that does not occur before
or behind a place marks that place.
-/

namespace UnitScript

section Separators

variable {α : Type} {x : α} {s t a b : List α}

theorem split_at_first (hs : x ∉ s) (ht : x ∉ t) (h : s ++ x :: a = t ++ x :: b) :
    s = t ∧ a = b := by
  induction s generalizing t with
  | nil =>
    cases t with
    | nil => exact ⟨rfl, by simpa using h⟩
    | cons y t =>
      rw [List.nil_append, List.cons_append, List.cons.injEq] at h
      exact absurd (h.1 ▸ List.mem_cons_self) ht
  | cons y s ih =>
    cases t with
    | nil =>
      rw [List.nil_append, List.cons_append, List.cons.injEq] at h
      exact absurd (h.1 ▸ List.mem_cons_self) hs
    | cons z t =>
      rw [List.cons_append, List.cons_append, List.cons.injEq] at h
      obtain ⟨rfl, h⟩ := h
      obtain ⟨rfl, rfl⟩ := ih (fun hx => hs (by simp [hx])) (fun hx => ht (by simp [hx])) h
      exact ⟨rfl, rfl⟩

theorem split_at_last (hs : x ∉ s) (ht : x ∉ t) (h : a ++ x :: s = b ++ x :: t) :
    a = b ∧ s = t := by
  have hreverse : s.reverse ++ x :: a.reverse = t.reverse ++ x :: b.reverse := by
    simpa using congrArg List.reverse h
  obtain ⟨hst, hab⟩ := split_at_first (by simpa using hs) (by simpa using ht) hreverse
  exact ⟨List.reverse_inj.1 hab, List.reverse_inj.1 hst⟩

/-- Pieces that end with a separator are determined by the whole. -/
theorem pieces_injective {ps qs : List (List α)} (hps : ∀ p ∈ ps, x ∉ p) (hqs : ∀ q ∈ qs, x ∉ q)
    (h : ps.flatMap (· ++ [x]) = qs.flatMap (· ++ [x])) : ps = qs := by
  induction ps generalizing qs with
  | nil =>
    cases qs with
    | nil => rfl
    | cons q qs => simp at h
  | cons p ps ih =>
    cases qs with
    | nil => simp at h
    | cons q qs =>
      rw [List.forall_mem_cons] at hps hqs
      simp only [List.flatMap_cons, List.append_assoc, List.singleton_append] at h
      obtain ⟨rfl, hrest⟩ := split_at_first hps.1 hqs.1 h
      rw [ih hps.2 hqs.2 hrest]

end Separators

/-- Items are determined by their images if a map tells them apart. -/
theorem eq_of_map_eq {α β : Type} {P : α → Prop} {f : α → β}
    (hf : ∀ a b, P a → P b → f a = f b → a = b) {as bs : List α} (has : ∀ a ∈ as, P a)
    (hbs : ∀ b ∈ bs, P b) (h : as.map f = bs.map f) : as = bs := by
  induction as generalizing bs with
  | nil => exact (List.map_eq_nil_iff.1 h.symm).symm
  | cons a as ih =>
    cases bs with
    | nil => simp at h
    | cons b bs =>
      rw [List.forall_mem_cons] at has hbs
      rw [List.map_cons, List.map_cons, List.cons.injEq] at h
      rw [hf a b has.1 hbs.1 h.1, ih has.2 hbs.2 h.2]

namespace Bytes

variable {sep : UInt8} {s : Bytes}

attribute [local simp] splitOn

theorem splitOn_cons_of_ne {b : UInt8} (h : b ≠ sep) :
    ∃ part parts, splitOn sep s = part :: parts ∧ splitOn sep (b :: s) = (b :: part) :: parts := by
  have hne : splitOn sep s ≠ [] := by
    cases s with
    | nil => simp
    | cons c s =>
      rw [splitOn]
      split
      · simp
      · split <;> simp
  obtain ⟨part, parts, hparts⟩ := List.exists_cons_of_ne_nil hne
  refine ⟨part, parts, hparts, ?_⟩
  rw [splitOn, if_neg h, hparts]

theorem flatMap_splitOn (sep : UInt8) (s : Bytes) :
    (splitOn sep s).flatMap (· ++ [sep]) = s ++ [sep] := by
  induction s with
  | nil => simp
  | cons b s ih =>
    by_cases h : b = sep
    · subst h
      rw [splitOn, if_pos rfl, List.flatMap_cons, ih]
      rfl
    · obtain ⟨part, parts, hs, hbs⟩ := splitOn_cons_of_ne (s := s) h
      rw [hs, List.flatMap_cons] at ih
      rw [hbs, List.flatMap_cons, List.cons_append, List.cons_append, ih]
      rfl

theorem notMem_of_mem_splitOn {p : Bytes} (h : p ∈ splitOn sep s) : sep ∉ p := by
  induction s generalizing p with
  | nil =>
    rw [splitOn, List.mem_singleton] at h
    simp [h]
  | cons b s ih =>
    by_cases hb : b = sep
    · subst hb
      rw [splitOn, if_pos rfl] at h
      rcases List.mem_cons.1 h with rfl | h
      · exact List.not_mem_nil
      · exact ih h
    · obtain ⟨part, parts, hs, hbs⟩ := splitOn_cons_of_ne (s := s) hb
      rw [hs, List.forall_mem_cons] at ih
      rw [hbs] at h
      rcases List.mem_cons.1 h with rfl | h
      · simp [Ne.symm hb, ih.1]
      · exact ih.2 p h

/-! ## Hexadecimal text -/

theorem hexDigit_injective : ∀ m < 16, ∀ n < 16, hexDigit m = hexDigit n → m = n := by decide

theorem mod_eq_of_hexDigit {m n : Nat} (h : hexDigit (m % 16) = hexDigit (n % 16)) :
    m % 16 = n % 16 :=
  hexDigit_injective _ (Nat.mod_lt m (by decide)) _ (Nat.mod_lt n (by decide)) h

theorem hexDigit_ne : ∀ n < 16, hexDigit n ≠ 0 ∧ hexDigit n ≠ 64 := by decide

theorem toHex_cons (b : UInt8) (s : Bytes) :
    toHex (b :: s) = hexDigit (b.toNat / 16 % 16) :: hexDigit (b.toNat % 16) :: toHex s := rfl

theorem toHex_injective {s t : Bytes} (h : toHex s = toHex t) : s = t := by
  induction s generalizing t with
  | nil =>
    cases t with
    | nil => rfl
    | cons c t => cases h
  | cons b s ih =>
    cases t with
    | nil => cases h
    | cons c t =>
      rw [toHex_cons, toHex_cons, List.cons.injEq, List.cons.injEq] at h
      obtain ⟨hhigh, hlow, hrest⟩ := h
      have hhigh' := mod_eq_of_hexDigit hhigh
      have hlow' := mod_eq_of_hexDigit hlow
      have hb := b.toNat_lt
      have hc := c.toNat_lt
      have hbyte : b = c := UInt8.toNat_inj.1 (by omega)
      rw [hbyte, ih hrest]

theorem ne_of_mem_toHex {s : Bytes} {b : UInt8} (h : b ∈ toHex s) : b ≠ 0 ∧ b ≠ 64 := by
  induction s with
  | nil => cases h
  | cons c s ih =>
    rw [toHex_cons] at h
    rcases List.mem_cons.1 h with rfl | h
    · exact hexDigit_ne _ (Nat.mod_lt _ (by decide))
    rcases List.mem_cons.1 h with rfl | h
    · exact hexDigit_ne _ (Nat.mod_lt _ (by decide))
    · exact ih h

end Bytes

end UnitScript
