import Mathlib.Data.List.Basic
import Mathlib.Data.List.Pairwise
import UnitScript.Lowering.Context

/-!
# Scratch cells do not meet

The base names of the four roles are distinct and have no dots, and a spill cell is named by the
base name, a dot and a number. So no two scratch cells share a name, and no name without a dot is
that of a scratch cell unless it is a base name.
-/

namespace UnitScript

namespace Bytes

theorem isDigit_of_mem_ofNat {n : Nat} {b : UInt8} (h : b ∈ ofNat n) : isDigit b = true := by
  obtain ⟨c, hc, rfl⟩ := List.mem_map.1 h
  have hdigit : c.isDigit = true := Nat.isDigit_of_mem_toDigits (by decide) (by decide) hc
  simp only [Char.isDigit, Bool.and_eq_true, decide_eq_true_eq, ge_iff_le,
    UInt32.le_iff_toNat_le] at hdigit
  have hlo : 48 ≤ c.toNat := hdigit.1
  have hhi : c.toNat ≤ 57 := hdigit.2
  simp only [isDigit, Bool.and_eq_true, decide_eq_true_eq, UInt8.le_iff_toNat_le,
    UInt8.toNat_ofNat']
  rw [Nat.mod_eq_of_lt (by omega)]
  exact ⟨hlo, hhi⟩

theorem dot_notMem_ofNat (n : Nat) : 46 ∉ ofNat n := by
  intro h
  have := isDigit_of_mem_ofNat h
  revert this
  decide

theorem map_ofNat (n : Nat) :
    (ofNat n).map (fun b => Char.ofNat b.toNat) = Nat.toDigits 10 n := by
  rw [ofNat, List.map_map]
  refine (List.map_congr_left fun c hc => ?_).trans (List.map_id _)
  have hdigit : c.isDigit = true := Nat.isDigit_of_mem_toDigits (by decide) (by decide) hc
  simp only [Char.isDigit, Bool.and_eq_true, decide_eq_true_eq, ge_iff_le, UInt32.le_iff_toNat_le]
    at hdigit
  have hhi : c.toNat ≤ 57 := hdigit.2
  simp only [Function.comp_apply, UInt8.toNat_ofNat', id_eq]
  rw [Nat.mod_eq_of_lt (by omega), Char.ofNat_toNat]

theorem ofNat_injective {a b : Nat} (h : ofNat a = ofNat b) : a = b := by
  have hdigits : Nat.toDigits 10 a = Nat.toDigits 10 b := by rw [← map_ofNat, ← map_ofNat, h]
  calc a = Nat.ofDigitChars 10 (Nat.toDigits 10 a) 0 :=
        (Nat.ofDigitChars_toDigits (by decide) (by decide)).symm
    _ = Nat.ofDigitChars 10 (Nat.toDigits 10 b) 0 := by rw [hdigits]
    _ = b := Nat.ofDigitChars_toDigits (by decide) (by decide)

end Bytes

namespace Scratch

structure Separate (s : Scratch) : Prop where
  dotless : ∀ r, 46 ∉ s.name r
  distinct : ∀ q r, s.name q = s.name r → q = r

theorem withDefaults_withDefaults (s : Scratch) : s.withDefaults.withDefaults = s.withDefaults := by
  have h : ∀ a b : Name, b ≠ [] → orDefault (orDefault a b) b = orDefault a b := by
    intro a b hb
    unfold orDefault
    cases a with
    | nil => cases b <;> simp
    | cons x xs => simp
  simp only [withDefaults]
  rw [h _ _ (by decide), h _ _ (by decide), h _ _ (by decide), h _ _ (by decide)]

theorem isReserved_iff {s : Scratch} {x : Name} :
    s.isReserved x = true ↔ ∃ r, s.withDefaults.name r = x := by
  simp only [isReserved, List.any_eq_true, decide_eq_true_eq]
  constructor
  · rintro ⟨r, -, h⟩
    exact ⟨r, h⟩
  · rintro ⟨r, h⟩
    refine ⟨r, ?_, h⟩
    cases r <;> decide

theorem validateFrom_ok {s : Scratch} {seen roles : List Role}
    (h : s.validateFrom seen roles = .ok ()) :
    (∀ r ∈ roles, isPlain (s.name r) = true) ∧
      (∀ q ∈ seen, ∀ r ∈ roles, s.name q ≠ s.name r) ∧
      roles.Pairwise fun q r => s.name q ≠ s.name r := by
  induction roles generalizing seen with
  | nil => simp
  | cons r rest ih =>
    unfold validateFrom at h
    by_cases hp : isPlain (s.name r) = true
    · cases hf : seen.find? fun q => decide (s.name q = s.name r) with
      | some q => simp [hp, hf] at h
      | none =>
        simp only [hp, Bool.not_true, Bool.false_eq_true, if_false, hf] at h
        obtain ⟨hplain, hseen, hrest⟩ := ih h
        have hr : ∀ q ∈ seen, s.name q ≠ s.name r := by
          intro q hq
          simpa using List.find?_eq_none.1 hf q hq
        refine ⟨?_, ?_, ?_⟩
        · intro q hq
          rcases List.mem_cons.1 hq with rfl | hq
          · exact hp
          · exact hplain q hq
        · intro q hq t ht
          rcases List.mem_cons.1 ht with rfl | ht
          · exact hr q hq
          · exact hseen q (by simp [hq]) t ht
        · exact .cons (fun t ht => hseen r (by simp) t ht) hrest
    · simp [hp] at h

theorem separate_of_validate {s : Scratch} (h : s.validate = .ok ()) : s.withDefaults.Separate := by
  obtain ⟨hplain, -, hpair⟩ := validateFrom_ok h
  have hmem : ∀ r : Role, r ∈ Role.all := by
    intro r
    cases r <;> decide
  refine ⟨fun r hdot => ?_, fun q r hqr => ?_⟩
  · have hp := hplain r (hmem r)
    simp only [isPlain, Bool.not_eq_true', List.any_eq_false] at hp
    exact hp 46 hdot (by decide)
  · by_contra hne
    have hsym : Std.Symm fun q r : Role => s.withDefaults.name q ≠ s.withDefaults.name r :=
      ⟨fun _ _ h => Ne.symm h⟩
    exact hpair.forall (hmem q) (hmem r) hne hqr

end Scratch

namespace Lowering.Context

variable {ctx : Context} {x : Name} {live : Live}

theorem cellName_zero (ctx : Context) (r : Role) : ctx.cellName r 0 = ctx.scratch.name r := rfl

theorem cellName_succ (ctx : Context) (r : Role) (n : Nat) :
    ctx.cellName r (n + 1) = ctx.scratch.name r ++ 46 :: Bytes.ofNat (n + 1) := by
  unfold cellName
  rw [if_neg (Nat.succ_ne_zero n)]
  exact List.append_assoc _ _ _

theorem dot_mem_cellName_succ (ctx : Context) (r : Role) (n : Nat) :
    46 ∈ ctx.cellName r (n + 1) := by
  rw [cellName_succ]
  simp

theorem cellName_injective (hs : ctx.scratch.Separate) {q r : Role} {i j : Nat}
    (h : ctx.cellName q i = ctx.cellName r j) : q = r ∧ i = j := by
  cases i with
  | zero =>
    cases j with
    | zero => exact ⟨hs.distinct q r h, rfl⟩
    | succ j =>
      refine absurd (dot_mem_cellName_succ ctx r j) ?_
      rw [← h]
      exact hs.dotless q
  | succ i =>
    cases j with
    | zero =>
      refine absurd (dot_mem_cellName_succ ctx q i) ?_
      rw [h]
      exact hs.dotless r
    | succ j =>
      rw [cellName_succ, cellName_succ,
        List.append_cons_inj_of_notMem (hs.dotless q) (Bytes.dot_notMem_ofNat _)] at h
      exact ⟨hs.distinct q r h.1, Bytes.ofNat_injective h.2.2⟩

/-- The names that a program may give to its own cells: those without a dot that are not a base
name. -/
def IsUser (ctx : Context) (x : Name) : Prop := 46 ∉ x ∧ ∀ r, x ≠ ctx.scratch.name r

theorem isUser_of {s : Scratch} (hctx : ctx.scratch = s.withDefaults) (hdot : 46 ∉ x)
    (hx : s.isReserved x = false) : ctx.IsUser x := by
  refine ⟨hdot, fun r hr => ?_⟩
  have hres : s.isReserved x = true := Scratch.isReserved_iff.2 ⟨r, by rw [hr, hctx]⟩
  rw [hx] at hres
  cases hres

theorem IsUser.ne_cellName (h : ctx.IsUser x) (r : Role) (n : Nat) : x ≠ ctx.cellName r n := by
  rintro rfl
  cases n with
  | zero => exact h.2 r rfl
  | succ n => exact h.1 (dot_mem_cellName_succ ctx r n)

/-- The cells that the code of an expression may write when `live` cells are in use: the two that
results are left in, and those of the nesting roles that are not in use. -/
def Writes (ctx : Context) (live : Live) (x : Name) : Prop :=
  x = ctx.scratch.primary ∨ x = ctx.scratch.struct ∨
    (∃ n, live.secondary ≤ n ∧ x = ctx.cellName .secondary n) ∨
    ∃ n, live.aggregate ≤ n ∧ x = ctx.cellName .aggregate n

theorem IsUser.not_writes (h : ctx.IsUser x) (live : Live) : ¬ctx.Writes live x := by
  rintro (rfl | rfl | ⟨n, -, rfl⟩ | ⟨n, -, rfl⟩)
  · exact h.2 .primary rfl
  · exact h.2 .struct rfl
  · exact h.ne_cellName _ _ rfl
  · exact h.ne_cellName _ _ rfl

theorem Writes.mono {live' : Live} (hw : ctx.Writes live' x)
    (hsec : live.secondary ≤ live'.secondary) (hagg : live.aggregate ≤ live'.aggregate) :
    ctx.Writes live x := by
  rcases hw with h | h | ⟨n, hn, h⟩ | ⟨n, hn, h⟩
  · exact .inl h
  · exact .inr (.inl h)
  · exact .inr (.inr (.inl ⟨n, by omega, h⟩))
  · exact .inr (.inr (.inr ⟨n, by omega, h⟩))

theorem not_writes_secondary (hs : ctx.scratch.Separate) {n : Nat}
    (h : n < live.secondary) : ¬ctx.Writes live (ctx.cellName .secondary n) := by
  rintro (g | g | ⟨k, hk, g⟩ | ⟨k, -, g⟩)
  · exact absurd (cellName_injective hs (g.trans (cellName_zero ctx .primary).symm)).1 (by decide)
  · exact absurd (cellName_injective hs (g.trans (cellName_zero ctx .struct).symm)).1 (by decide)
  · have := (cellName_injective hs g).2
    omega
  · exact absurd (cellName_injective hs g).1 (by decide)

theorem not_writes_aggregate (hs : ctx.scratch.Separate) {n : Nat}
    (h : n < live.aggregate) : ¬ctx.Writes live (ctx.cellName .aggregate n) := by
  rintro (g | g | ⟨k, -, g⟩ | ⟨k, hk, g⟩)
  · exact absurd (cellName_injective hs (g.trans (cellName_zero ctx .primary).symm)).1 (by decide)
  · exact absurd (cellName_injective hs (g.trans (cellName_zero ctx .struct).symm)).1 (by decide)
  · exact absurd (cellName_injective hs g).1 (by decide)
  · have := (cellName_injective hs g).2
    omega

end Lowering.Context

end UnitScript
