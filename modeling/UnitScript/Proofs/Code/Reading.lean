import Mathlib.Algebra.Group.Nat.Defs
import UnitScript.Code.Decoding
import UnitScript.Code.Encoding
import UnitScript.Proofs.Computation

/-!
# Readers and written forms

A reader is exact for a relation of written forms when it accepts an input with a value and a rest
just if the input is a written form of the value followed by that rest. Exactness joins the two
directions of a round trip: what is written is read back whatever follows it, and what is read was
written. It is kept by sequencing, so each field of the format is treated once.
-/

namespace UnitScript.Decoding

variable {α β : Type} {w : Bytes}

/-- The reader accepts exactly the written forms `W` of its values, each with any rest behind it. -/
def Exact (r : Reader α) (W : α → Bytes → Prop) : Prop :=
  ∀ s x rest, r s = .ok (x, rest) ↔ ∃ w, W x w ∧ s = w ++ rest

namespace Exact

variable {r : Reader α} {W W' : α → Bytes → Prop}

/-- What an exact reader accepts it accepts with more input behind it. -/
theorem extend (h : Exact r W) {s t : Bytes} {x : α} (hr : r s = .ok (x, t)) (more : Bytes) :
    r (s ++ more) = .ok (x, t ++ more) := by
  obtain ⟨w, hw, hs⟩ := (h s x t).1 hr
  rw [h]
  exact ⟨w, hw, by rw [hs, List.append_assoc]⟩

theorem complete (h : Exact r W) {x : α} (hw : W x w) (t : Bytes) : r (w ++ t) = .ok (x, t) :=
  (h _ _ _).2 ⟨w, hw, rfl⟩

theorem congr (h : Exact r W) (hW : ∀ x w, W x w ↔ W' x w) : Exact r W' := by
  intro s x rest
  rw [h]
  simp only [hW]

theorem bind {f : α → Reader β} {V : α → β → Bytes → Prop} (h : Exact r W)
    (hf : ∀ x, Exact (f x) (V x)) :
    Exact (r >>= f) fun y w => ∃ x w₁ w₂, W x w₁ ∧ V x y w₂ ∧ w = w₁ ++ w₂ := by
  intro s y rest
  rw [bind_eq_ok]
  constructor
  · rintro ⟨x, u, hr, hu⟩
    obtain ⟨w₁, hw₁, hs⟩ := (h _ _ _).1 hr
    obtain ⟨w₂, hw₂, hv⟩ := (hf x _ _ _).1 hu
    refine ⟨w₁ ++ w₂, ⟨x, w₁, w₂, hw₁, hw₂, rfl⟩, ?_⟩
    rw [hs, hv, List.append_assoc]
  · rintro ⟨w, ⟨x, w₁, w₂, hw₁, hw₂, rfl⟩, hs⟩
    refine ⟨x, w₂ ++ rest, ?_, (hf x).complete hw₂ rest⟩
    rw [hs, List.append_assoc]
    exact h.complete hw₁ _

theorem pure (x : α) : Exact (pure x) fun y w => y = x ∧ w = [] := by
  intro s y rest
  rw [pure_eq_ok]
  constructor
  · rintro ⟨rfl, rfl⟩
    exact ⟨[], ⟨rfl, rfl⟩, rfl⟩
  · rintro ⟨w, ⟨rfl, rfl⟩, hs⟩
    exact ⟨rfl, hs⟩

theorem map (h : Exact r W) (f : α → β) :
    Exact (do return f (← r)) fun y w => ∃ x, W x w ∧ y = f x := by
  refine (h.bind fun x => Exact.pure (f x)).congr ?_
  intro y w
  constructor
  · rintro ⟨x, w₁, w₂, hw₁, ⟨rfl, rfl⟩, rfl⟩
    exact ⟨x, by simpa using hw₁, rfl⟩
  · rintro ⟨x, hw, rfl⟩
    exact ⟨x, w, [], hw, ⟨rfl, rfl⟩, by simp⟩

end Exact

/-! ## Fields -/

theorem exact_take (n : Nat) : Exact (take n) fun x w => w = x ∧ x.length = n := by
  intro s x rest
  unfold take
  by_cases hlen : (s.take n).length = n
  · simp only [hlen, if_true, Except.ok.injEq, Prod.mk.injEq]
    constructor
    · rintro ⟨rfl, rfl⟩
      exact ⟨s.take n, ⟨rfl, hlen⟩, (List.take_append_drop n s).symm⟩
    · rintro ⟨w, ⟨rfl, hx⟩, rfl⟩
      subst hx
      simp
  · have hfail : ∀ w : Bytes, w.length = n → s ≠ w ++ rest := by
      rintro w hw rfl
      exact hlen (by simp [hw])
    simp only [hlen, if_false]
    constructor
    · intro h
      split at h <;> simp at h
    · rintro ⟨w, ⟨rfl, hx⟩, hs⟩
      exact absurd hs (hfail w hx)

@[simp] theorem length_littleEndian (width n : Nat) :
    (Encoding.littleEndian width n).length = width := by
  induction width generalizing n with
  | zero => rfl
  | succ width ih => simp [Encoding.littleEndian, ih]

theorem ofLittleEndian_littleEndian {width n : Nat} (h : n < 256 ^ width) :
    ofLittleEndian (Encoding.littleEndian width n) = n := by
  induction width generalizing n with
  | zero =>
    have hn : n = 0 := by omega
    subst hn
    rfl
  | succ width ih =>
    have hdiv : n / 256 < 256 ^ width := by
      rw [Nat.div_lt_iff_lt_mul (by omega), ← Nat.pow_succ]
      exact h
    have hmod : (UInt8.ofNat (n % 256)).toNat = n % 256 := by simp
    rw [Encoding.littleEndian, ofLittleEndian, ih hdiv, hmod]
    omega

theorem ofLittleEndian_lt (s : Bytes) : ofLittleEndian s < 256 ^ s.length := by
  induction s with
  | nil => simp [ofLittleEndian]
  | cons b rest ih =>
    have hb := b.toNat_lt
    rw [ofLittleEndian, List.length_cons, Nat.pow_succ]
    omega

theorem littleEndian_ofLittleEndian (s : Bytes) :
    Encoding.littleEndian s.length (ofLittleEndian s) = s := by
  induction s with
  | nil => rfl
  | cons b rest ih =>
    have hb := b.toNat_lt
    have hmod : (b.toNat + 256 * ofLittleEndian rest) % 256 = b.toNat := by omega
    have hdiv : (b.toNat + 256 * ofLittleEndian rest) / 256 = ofLittleEndian rest := by omega
    rw [ofLittleEndian, List.length_cons, Encoding.littleEndian, hmod, hdiv, ih]
    simp

theorem exact_number (width : Nat) :
    Exact (number width) fun x w => x < 256 ^ width ∧ w = Encoding.littleEndian width x := by
  refine ((exact_take width).map ofLittleEndian).congr ?_
  intro x w
  constructor
  · rintro ⟨y, ⟨rfl, rfl⟩, rfl⟩
    exact ⟨ofLittleEndian_lt w, (littleEndian_ofLittleEndian w).symm⟩
  · rintro ⟨hx, rfl⟩
    exact ⟨_, ⟨rfl, length_littleEndian _ _⟩, (ofLittleEndian_littleEndian hx).symm⟩

theorem exact_byte : Exact byte fun x w => w = [x] := by
  refine ((exact_number 1).map UInt8.ofNat).congr ?_
  intro x w
  constructor
  · rintro ⟨n, ⟨hn, rfl⟩, rfl⟩
    have hmod : n % 256 = n := by omega
    simp [Encoding.littleEndian, hmod]
  · rintro rfl
    refine ⟨x.toNat, ⟨x.toNat_lt, ?_⟩, by simp⟩
    simp [Encoding.littleEndian]

theorem exact_region (n : Nat) :
    Exact (region n) fun x w => w = x ∧ x.length = n ∧ n ≤ maxRegion := by
  intro s x rest
  unfold region
  by_cases h : n > maxRegion
  · simp only [h, if_true]
    constructor
    · intro hr
      obtain ⟨_, _, hthrow, _⟩ := bind_eq_ok.1 hr
      exact absurd hthrow throw_ne_ok
    · rintro ⟨w, ⟨_, _, hn⟩, _⟩
      omega
  · have hn : n ≤ maxRegion := by omega
    simp only [h, if_false, hn, and_true]
    exact exact_take n s x rest

theorem exact_sized (width : Nat) :
    Exact (do region (← number width)) fun x w =>
      x.length < 256 ^ width ∧ x.length ≤ maxRegion ∧
        w = Encoding.littleEndian width x.length ++ x := by
  refine ((exact_number width).bind exact_region).congr ?_
  intro x w
  constructor
  · rintro ⟨n, w₁, w₂, ⟨hn, rfl⟩, ⟨rfl, rfl, hmax⟩, rfl⟩
    exact ⟨hn, hmax, rfl⟩
  · rintro ⟨hn, hmax, rfl⟩
    exact ⟨x.length, _, x, ⟨hn, rfl⟩, ⟨rfl, rfl, hmax⟩, rfl⟩

theorem encode_name_eq_ok {x : Name} :
    Encoding.name x = .ok w ↔ x.length ≤ 0xFFFF ∧ w = Encoding.littleEndian 2 x.length ++ x := by
  unfold Encoding.name
  by_cases h : x.length > 0xFFFF
  · simp only [h, if_true, reduceCtorEq, false_iff]
    omega
  · simp only [h, if_false, Except.ok.injEq]
    constructor
    · intro hw
      exact ⟨by omega, hw.symm⟩
    · intro hw
      exact hw.2.symm

theorem exact_name : Exact name fun x w => Encoding.name x = .ok w := by
  refine (exact_sized 2).congr ?_
  intro x w
  rw [encode_name_eq_ok]
  unfold maxRegion
  constructor
  · rintro ⟨hx, _, hw⟩
    exact ⟨by omega, hw⟩
  · rintro ⟨hx, hw⟩
    exact ⟨by omega, by omega, hw⟩

theorem exact_longString :
    Exact longString fun x w => x.length ≤ maxRegion ∧ w = Encoding.longString x := by
  refine (exact_sized 4).congr ?_
  intro x w
  unfold Encoding.longString maxRegion
  constructor
  · rintro ⟨_, hmax, hw⟩
    exact ⟨hmax, hw⟩
  · rintro ⟨hmax, hw⟩
    exact ⟨by omega, hmax, hw⟩

/-! ## Lists of items -/

theorem encode_each_cons {item : α → Except EncodeError Bytes} {x : α} {xs : List α} :
    Encoding.each item (x :: xs) = .ok w ↔
      ∃ w₁ w₂, item x = .ok w₁ ∧ Encoding.each item xs = .ok w₂ ∧ w = w₁ ++ w₂ := by
  simp only [Encoding.each, ok_bind, ok_return]
  constructor
  · rintro ⟨w₁, hx, w₂, hxs, rfl⟩
    exact ⟨w₁, w₂, hx, hxs, rfl⟩
  · rintro ⟨w₁, w₂, hx, hxs, rfl⟩
    exact ⟨w₁, hx, w₂, hxs, rfl⟩

def EachWritten (W : α → Bytes → Prop) : List α → Bytes → Prop
  | [], w => w = []
  | x :: xs, w => ∃ w₁ w₂, W x w₁ ∧ EachWritten W xs w₂ ∧ w = w₁ ++ w₂

theorem eachWritten_iff {enc : α → Except EncodeError Bytes} {P : α → Prop} {xs : List α} :
    EachWritten (fun x w => P x ∧ enc x = .ok w) xs w ↔
      (∀ x ∈ xs, P x) ∧ Encoding.each enc xs = .ok w := by
  induction xs generalizing w with
  | nil => simp [EachWritten, Encoding.each, eq_comm]
  | cons x xs ih =>
    simp only [EachWritten, ih, encode_each_cons, List.forall_mem_cons]
    constructor
    · rintro ⟨w₁, w₂, ⟨hx, hw₁⟩, ⟨hxs, hw₂⟩, rfl⟩
      exact ⟨⟨hx, hxs⟩, w₁, w₂, hw₁, hw₂, rfl⟩
    · rintro ⟨⟨hx, hxs⟩, w₁, w₂, hw₁, hw₂, rfl⟩
      exact ⟨w₁, w₂, ⟨hx, hw₁⟩, ⟨hxs, hw₂⟩, rfl⟩

theorem eachWritten_of_each {α : Type} {W : α → Bytes → Prop}
    {item : α → Except EncodeError Bytes} {xs : List α}
    (h : ∀ x ∈ xs, ∀ w, item x = .ok w → W x w) (hw : Encoding.each item xs = .ok w) :
    EachWritten W xs w := by
  induction xs generalizing w with
  | nil =>
    rw [Encoding.each] at hw
    exact (Except.ok.inj hw).symm
  | cons x xs ih =>
    obtain ⟨w₁, w₂, hw₁, hw₂, rfl⟩ := encode_each_cons.1 hw
    exact ⟨w₁, w₂, h x (by simp) w₁ hw₁, ih (fun y hy => h y (by simp [hy])) hw₂, rfl⟩

theorem exact_many {item : Reader α} {W : α → Bytes → Prop} (h : Exact item W) (n : Nat) :
    Exact (many item n) fun xs w => xs.length = n ∧ EachWritten W xs w := by
  induction n with
  | zero =>
    refine (Exact.pure []).congr ?_
    intro xs w
    constructor
    · rintro ⟨rfl, rfl⟩
      exact ⟨rfl, rfl⟩
    · rintro ⟨hlen, hw⟩
      have hxs : xs = [] := List.length_eq_zero_iff.1 hlen
      subst hxs
      exact ⟨rfl, hw⟩
  | succ n ih =>
    refine (h.bind fun x => ih.map (x :: ·)).congr ?_
    intro xs w
    constructor
    · rintro ⟨x, w₁, w₂, hw₁, ⟨ys, ⟨hlen, hw₂⟩, rfl⟩, rfl⟩
      exact ⟨by simp [hlen], w₁, w₂, hw₁, hw₂, rfl⟩
    · rintro ⟨hlen, hw⟩
      cases xs with
      | nil => simp at hlen
      | cons x ys =>
        obtain ⟨w₁, w₂, hw₁, hw₂, rfl⟩ := hw
        exact ⟨x, w₁, w₂, hw₁, ⟨ys, ⟨by simpa using hlen, hw₂⟩, rfl⟩, rfl⟩

theorem exact_counted {item : Reader α} {W : α → Bytes → Prop} (h : Exact item W) (width : Nat) :
    Exact (do many item (← number width)) fun xs w =>
      xs.length < 256 ^ width ∧
        ∃ v, EachWritten W xs v ∧ w = Encoding.littleEndian width xs.length ++ v := by
  refine ((exact_number width).bind (exact_many h)).congr ?_
  intro xs w
  constructor
  · rintro ⟨n, w₁, w₂, ⟨hn, rfl⟩, ⟨rfl, hw₂⟩, rfl⟩
    exact ⟨hn, w₂, hw₂, rfl⟩
  · rintro ⟨hn, v, hv, rfl⟩
    exact ⟨xs.length, _, v, ⟨hn, rfl⟩, ⟨rfl, hv⟩, rfl⟩

end UnitScript.Decoding
