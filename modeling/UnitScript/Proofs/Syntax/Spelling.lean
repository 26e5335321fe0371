import UnitScript.Proofs.Lowering.Scratch
import UnitScript.Proofs.Syntax.Silence

/-!
# Names are no numerals

The names of a program that comes from a source text are words, so none of them, and no path of them,
is the name of a spill cell. Its array literals are no longer than its text.
-/

namespace UnitScript

theorem Bytes.IsWord.ne_ofNat {x : Bytes} (h : x.IsWord) (n : Nat) : x ≠ ofNat n := by
  rintro rfl
  obtain ⟨b, hb, hdigit⟩ := h.2
  rw [isDigit_of_mem_ofNat hb] at hdigit
  cases hdigit

namespace Token

theorem length_piecesFrom_le (skip : Nat) (s : Bytes) :
    (Utf8.piecesFrom skip s).length ≤ s.length := by
  induction s generalizing skip with
  | nil => simp [Utf8.piecesFrom]
  | cons b rest ih =>
    cases skip with
    | zero => exact Nat.succ_le_succ (ih _)
    | succ skip => exact Nat.le_succ_of_le (ih skip)

theorem length_scanBytes_le (source : Bytes) : (scanBytes source).tokens.length ≤ source.length := by
  have hchars : (Utf8.decode source).length ≤ source.length := by
    rw [Utf8.decode, List.length_map]
    exact length_piecesFrom_le 0 source
  exact Nat.le_trans (length_scanFrom_le _ _) hchars

end Token

/-- The names of a program are words, and its array literals are no longer than its text. -/
theorem Program.words_ofSource (source : Bytes) :
    Node.AllBuilt Bytes.IsWord (source.length + 1) (Program.ofSource source).1 := by
  intro n hn
  have hbuilt := built_ofSource (Token.words_scan (Utf8.decode source)) n hn
  refine ⟨hbuilt.names, fun k hk => ?_⟩
  have hlength := Token.length_scanBytes_le source
  have hsize := hbuilt.sizes k hk
  omega

end UnitScript
