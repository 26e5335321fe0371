import Mathlib.Data.List.Forall2
import UnitScript.Proofs.Syntax.Lexing

/-!
# Where tokens stand

The tokens of a text stand one behind the other, each on a span of its own, with nothing but blanks
and comments outside of the spans. The span gives the place of the token, and its lexeme or the
error that is reported for it.
-/

namespace UnitScript

/-- The characters of a text from the place `first` on, up to and without the place `past`. -/
structure Span where
  first : Nat
  past : Nat
  deriving DecidableEq, Repr

namespace Span

def text (s : Span) (cs : List Char) : List Char := (cs.drop s.first).take (s.past - s.first)

theorem text_append (before text rest : List Char) :
    Span.text ⟨before.length, before.length + text.length⟩ (before ++ (text ++ rest)) = text := by
  simp [Span.text]

/-- From `start` on, what is outside of the spans is made of blanks and comments. -/
def BlankOutside (cs : List Char) : (start : Nat) → List Span → Prop
  | start, [] => Blanks (cs.drop start) []
  | start, s :: more =>
    Blanks (Span.text ⟨start, s.first⟩ cs) (cs.drop s.first) ∧ BlankOutside cs s.past more

end Span

namespace Token

/-- What a token of its sort is made of. The lexeme of a number or a symbol is the text of the span,
and that of a word is the composed form of it. Words and numbers go on as long as they can. For text
that is no token there is an error at its place, or, if it is a wrong escape, within the span. -/
def SpelledBy (t : Token) (cs : List Char) (s : Span) (errors : List LexError) : Prop :=
  match t.kind.sort with
  | .int => (∀ x ∈ s.text cs, isDigit x = true) ∧
      (∀ x ∈ (cs.drop s.past).head?, isDigit x = false) ∧
      t.lexeme = Bytes.ofChars (s.text cs)
  | .symbol => t.lexeme = Bytes.ofChars (s.text cs)
  | .word => (∀ x ∈ s.text cs, continuesName x = true) ∧
      (∀ x ∈ (cs.drop s.past).head?, continuesName x = false) ∧
      t.lexeme = Bytes.ofChars (Text.composed (s.text cs))
  | .illegal => ∃ e ∈ errors, e.pos = t.pos ∨
      e.fault = .badEscape ∧ ∃ i, s.first ≤ i ∧ i < s.past ∧ e.pos = .behind (cs.take i)
  | .string | .eof => True

theorem Lexes.spelledBy {before text rest : List Char} {t : Token} {e : Option LexError}
    {errors : List LexError} (h : Lexes before text rest t e) (hnul : '\x00' ∉ rest)
    (he : ∀ x ∈ e, x ∈ errors) : t.SpelledBy (before ++ (text ++ rest))
      ⟨before.length, before.length + text.length⟩ errors := by
  have hrun : ∀ run, runText run rest = run := by
    intro run
    rw [runText, if_neg]
    rintro rfl
    simp at hnul
  have hdrop : (before ++ (text ++ rest)).drop (before.length + text.length) = rest := by simp
  unfold SpelledBy
  rw [Span.text_append, hdrop]
  cases h with
  | number _ hall hend => exact ⟨hall, hend, congrArg Bytes.ofChars (hrun _)⟩
  | symbol hkind => simp only [hkind]
  | word _ hall hend =>
    simp only [TokenKind.sort_ofWord, hrun]
    exact ⟨hall, hend, trivial⟩
  | string => trivial
  | unterminated | stray => exact ⟨_, he _ rfl, .inl rfl⟩
  | badEscape body =>
    have htake : (before ++ ('"' :: body ++ ['\\'] ++ rest)).take (before ++ '"' :: body).length =
        before ++ '"' :: body := by
      rw [List.append_assoc ('"' :: body), ← List.append_assoc, List.take_left]
    exact ⟨_, he _ rfl, .inr ⟨rfl, (before ++ '"' :: body).length, by simp, by simp, by rw [htake]⟩⟩

/-- The tokens of a text from the place `start` on, each with its span. -/
structure Layout (cs : List Char) (start : Nat) (tokens : List Token) (errors : List LexError)
    (spans : List Span) : Prop where
  inside : ∀ s ∈ spans, start ≤ s.first ∧ s.first < s.past ∧ s.past ≤ cs.length
  increasing : spans.Pairwise fun a b => a.past ≤ b.first
  outside : Span.BlankOutside cs start spans
  placed : List.Forall₂ (fun t s => t.pos = .behind (cs.take s.first) ∧ t.SpelledBy cs s errors)
    tokens spans

theorem Scans.layout {before cs : List Char} {ts : List Token} {es errors : List LexError}
    (h : Scans before cs ts es) (hnul : '\x00' ∉ cs) (hes : es ⊆ errors) :
    ∃ spans, Layout (before ++ cs) before.length ts errors spans := by
  induction h with
  | @ends before gap rest hgap hend =>
    obtain rfl : rest = [] := by
      cases rest with
      | nil => rfl
      | cons x xs => simp [hend x rfl] at hnul
    refine ⟨[], List.forall_mem_nil _, .nil, ?_, .nil⟩
    simpa [Span.BlankOutside] using hgap
  | @token before gap text rest t e ts es hgap hrule _ ih =>
    simp only [List.mem_append, not_or] at hnul
    obtain ⟨spans, hlayout⟩ := ih hnul.2.2 (fun x hx => hes (List.mem_append_right _ hx))
    have hpos := List.length_pos_iff.2 hrule.ne_nil
    have hcs : before ++ (gap ++ (text ++ rest)) = before ++ gap ++ (text ++ rest) := by simp
    rw [List.append_assoc, List.length_append] at hlayout
    rw [hcs]
    refine ⟨⟨(before ++ gap).length, (before ++ gap).length + text.length⟩ :: spans, ?_, ?_, ?_, ?_⟩
    · refine List.forall_mem_cons.2 ⟨by simp; omega, fun s hs => ?_⟩
      obtain ⟨hfirst, hinside⟩ := hlayout.inside s hs
      exact ⟨Nat.le_trans (by simp [Nat.add_assoc]) hfirst, hinside⟩
    · exact List.pairwise_cons.2 ⟨fun s hs => (hlayout.inside s hs).1, hlayout.increasing⟩
    · refine ⟨?_, hlayout.outside⟩
      rw [List.drop_left, ← hcs, List.length_append, Span.text_append]
      exact hgap
    · refine .cons ⟨?_, ?_⟩ hlayout.placed
      · rw [List.take_left, hrule.pos_eq]
      · refine hrule.spelledBy hnul.2.2 fun x hx => hes ?_
        exact List.mem_append_left _ (Option.mem_toList.2 hx)

end Token

end UnitScript
