import UnitScript.Proofs.Syntax.Lexing

/-!
# The scanner without a bound

Every token takes a character at least, and skipping blanks takes none back. So the scanner comes to
the end of every text, and its bound is never what stops it.
-/

namespace UnitScript

namespace Token

/-- Reads all tokens. -/
def scanAll (c : Cursor) : Option Scan :=
  match next? c with
  | none => some ⟨[], c.skipBlanks.pos, []⟩
  | some l => do
    -- given by `apply`, which keeps no source position in the term
    let more : Scan ← by apply scanAll; exact l.next
    return ⟨l.token :: more.tokens, more.eof, l.error.toList ++ more.errors⟩
partial_fixpoint

theorem scanAll_eq_scanFrom (n : Nat) (before cs : List Char) (h : cs.length ≤ n) :
    scanAll (.between before cs) = some (scanFrom n (.between before cs)) := by
  induction n generalizing before cs with
  | zero =>
    obtain rfl := List.eq_nil_of_length_eq_zero (Nat.le_zero.1 h)
    rw [scanAll]
    rfl
  | succ n ih =>
    rw [scanAll, scanFrom]
    obtain ⟨gap, rest, rfl, -, ⟨hnext, -⟩ | ⟨text, more, t, e, rfl, hrule, hnext⟩⟩ :=
      next?_between before cs
    · rw [hnext]
    · have hpos := List.length_pos_iff.2 hrule.ne_nil
      simp only [List.length_append] at h
      simp only [hnext, ih _ more (by omega)]
      rfl

theorem scanAll_scanBytes (source : Bytes) :
    scanAll (Cursor.start (Utf8.decode source)) = some (scanBytes source) :=
  scanAll_eq_scanFrom _ [] _ (Nat.le_refl _)

theorem scan_ne_eof (cs : List Char) : ∀ t ∈ (scan cs).tokens, t.kind ≠ .eof := by
  rintro t ht heof
  obtain ⟨_, _, _, _, -, hlex⟩ := (scans_scan cs).lexes t ht
  exact hlex.sort_ne_eof (by rw [heof]; rfl)

end Token

end UnitScript
