import UnitScript.Proofs.Syntax.Lexing

/-!
# What lexemes are made of

A number or a word is a run of characters, and its lexeme is the run. There is one exception: a NUL
that is the last character of the text is taken into the lexeme of the run that it ends. In string
literals every string can be written.
-/

namespace UnitScript

def TokenSort.admits (s : TokenSort) (x : Char) : Bool :=
  if s = .word then Token.continuesName x else Token.isDigit x

/-- The lexeme that a run of characters is read as: a word is brought into composed form. -/
def TokenSort.lexeme (s : TokenSort) (run : List Char) : Bytes :=
  Bytes.ofChars (if s = .word then Text.composed run else run)

namespace Token

theorem Lexes.run {before text rest : List Char} {t : Token} {e : Option LexError}
    (h : Lexes before text rest t e) (hsort : t.kind.sort = .int ∨ t.kind.sort = .word) :
    (∀ x ∈ text, t.kind.sort.admits x = true) ∧ (∀ x ∈ rest.head?, t.kind.sort.admits x = false) ∧
      t.lexeme = t.kind.sort.lexeme (runText text rest) := by
  cases h with
  | number _ hall hend => exact ⟨hall, hend, rfl⟩
  | word _ hall hend =>
    simp only [TokenKind.sort_ofWord]
    exact ⟨hall, hend, rfl⟩
  | symbol hkind => simp [hkind] at hsort
  | string | unterminated | badEscape | stray => simp [TokenKind.sort] at hsort

theorem exists_literal (value : List Char) : ∃ written, Literal value written := by
  induction value with
  | nil => exact ⟨[], .nil⟩
  | cons x value ih =>
    obtain ⟨written, ih⟩ := ih
    by_cases hx : x ∈ ['\x00', '\n', '"', '\\']
    · obtain ⟨e, he⟩ : ∃ e, (e, x) ∈ escapes := by
        simp only [List.mem_cons, List.not_mem_nil, or_false] at hx
        rcases hx with rfl | rfl | rfl | rfl
        · exact ⟨'0', by decide⟩
        · exact ⟨'n', by decide⟩
        · exact ⟨'"', by decide⟩
        · exact ⟨'\\', by decide⟩
      exact ⟨_, .escape he ih⟩
    · exact ⟨_, .plain hx ih⟩

theorem readString_literal (opening : Position) {value written : List Char}
    (h : Literal value written) (before rest acc : List Char) :
    readString opening (written ++ '"' :: rest)
      (Cursor.between before (written ++ '"' :: rest)).line
      (Cursor.between before (written ++ '"' :: rest)).column acc =
        ⟨.ok (acc.reverse ++ value), .between (before ++ written ++ ['"']) rest⟩ := by
  induction h generalizing before acc with
  | nil =>
    unfold readString
    simp [Cursor.after_between]
  | @plain x value written hx _ ih =>
    have hmore := ih (before ++ [x]) (x :: acc)
    unfold readString
    simp_all [Cursor.after_between]
  | @escape e x value written he _ ih =>
    have hmore := ih (before ++ ['\\', e]) (x :: acc)
    unfold readString
    simp_all [Cursor.after_between, escape?_eq_some_iff.2 he]

/-- Every string can be written between quotes. However that is done, whatever stands in front and
whatever follows, the literal is read as one token with the string for its lexeme, without an error,
and reading goes on right behind the closing quote. -/
theorem literal_reads_back (value : List Char) : (∃ written, Literal value written) ∧
    ∀ written, Literal value written → ∀ before rest,
      next? (.between before ('"' :: written ++ '"' :: rest)) =
        some ⟨⟨.string, Bytes.ofChars value, .behind before⟩, none,
          .between (before ++ '"' :: written ++ ['"']) rest⟩ := by
  refine ⟨exists_literal value, fun written h before rest => ?_⟩
  have hblank : Text.isBlank '"' = false := by decide
  have hdigit : isDigit '"' = false := by decide
  have hname : startsName '"' = false := by decide
  have hskip : (Cursor.between before ('"' :: (written ++ '"' :: rest))).skipBlanks =
      .between before ('"' :: (written ++ '"' :: rest)) := by
    rw [Cursor.skipBlanks, Cursor.rest_between, Cursor.skipFrom, if_neg (by simp [hblank]),
      if_neg (by simp), Cursor.mk_between]
  have hpos := Cursor.pos_between before (written ++ '"' :: rest) (x := '"') (by decide)
  simp only [List.cons_append, next?, hskip, Cursor.current?, Cursor.rest_between]
  simp [lexFrom, hdigit, hname, hpos, Cursor.advance_between, Cursor.rest_between,
    readString_literal _ h]

/-- A tab as it is and one by its escape, a quote, a line end and a NUL, with one more quote behind
the literal. -/
theorem literal_reads_back_escapes :
    Literal ['\t', '\t', '"', '\n', '\x00'] ['\t', '\\', 't', '\\', '"', '\\', 'n', '\\', '0'] ∧
    next? (.between [] ("\"\t\\t\\\"\\n\\0\"\"".toList)) =
      some ⟨⟨.string, [9, 9, 34, 10, 0], ⟨1, 1⟩⟩, none,
        .between ("\"\t\\t\\\"\\n\\0\"".toList) ['"']⟩ :=
  have hlit : Literal ['\t', '\t', '"', '\n', '\x00']
      ['\t', '\\', 't', '\\', '"', '\\', 'n', '\\', '0'] :=
    .plain (by decide) (.escape (by decide) (.escape (by decide) (.escape (by decide)
      (.escape (by decide) .nil))))
  ⟨hlit, (literal_reads_back _).2 _ hlit [] ['"']⟩

end Token

end UnitScript
