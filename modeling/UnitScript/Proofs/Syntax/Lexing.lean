import UnitScript.Token.Lexer

/-!
# What the scanner takes from a text

The scanner goes through a text from its start to its end. The text it has read and the rest
determine the cursor. Each token is the next few characters behind some blanks and comments; `Lexes`
says which characters make which token, `Scans` how a whole text is cut.
-/

namespace UnitScript

namespace Position

/-- The place of the last character of a text; in front of the first column where there is none. -/
def ofLast (cs : List Char) : Position :=
  ⟨1 + cs.count '\n', (cs.reverse.takeWhile (· != '\n')).length⟩

/-- The place of the character behind `before`: its line is one more than the line ends in front of
it, and its column counts the characters of the line up to it, itself included. -/
def behind (before : List Char) : Position :=
  ⟨1 + before.count '\n', (before.reverse.takeWhile (· != '\n')).length + 1⟩

theorem ofLast_append {x : Char} (before : List Char) (h : x ≠ '\n') :
    ofLast (before ++ [x]) = behind before := by
  simp [ofLast, behind, h]

end Position

namespace Cursor

/-- The cursor between the text that is read and the rest. -/
def between (before rest : List Char) : Cursor :=
  after (Position.ofLast before).line (Position.ofLast before).column rest

theorem rest_after (line column : Nat) (cs : List Char) : (after line column cs).rest = cs := by
  unfold after
  split
  · rfl
  · split <;> rfl

theorem rest_between (before rest : List Char) : (between before rest).rest = rest :=
  rest_after _ _ _

theorem between_nil (before : List Char) :
    between before [] = ⟨[], (Position.ofLast before).line, (Position.ofLast before).column⟩ := rfl

theorem between_cons (before : List Char) (x : Char) (xs : List Char) :
    between before (x :: xs) = ⟨x :: xs, (Position.ofLast (before ++ [x])).line,
      (Position.ofLast (before ++ [x])).column⟩ := by
  by_cases hx : x = '\n' <;> simp [between, after, Position.ofLast, hx, Nat.add_assoc]

theorem after_between (before : List Char) (x : Char) (xs : List Char) :
    after (between before (x :: xs)).line (between before (x :: xs)).column xs =
      between (before ++ [x]) xs := by
  rw [between_cons]
  rfl

/-- The place of a character; line ends count for the line that they begin. -/
theorem pos_between (before xs : List Char) {x : Char} (hx : x ≠ '\n') :
    (between before (x :: xs)).pos = .behind before := by
  rw [between_cons, ← Position.ofLast_append before hx]
  rfl

theorem mk_between (before cs : List Char) :
    (⟨cs, (between before cs).line, (between before cs).column⟩ : Cursor) = between before cs := by
  cases cs with
  | nil => rfl
  | cons x xs => rw [between_cons]

theorem advance_between (before : List Char) (x : Char) (xs : List Char) :
    (between before (x :: xs)).advance = between (before ++ [x]) xs := by
  rw [between_cons]
  rfl

theorem advanceBy_between (before text rest : List Char) :
    (between before (text ++ rest)).advanceBy text.length = between (before ++ text) rest := by
  induction text generalizing before with
  | nil => simp [advanceBy]
  | cons x xs ih => simp [advanceBy, advance_between, ih]

end Cursor

/-- Blanks and comments in front of `rest`. A comment goes on up to the end of its line, or up to a
NUL, which ends the text. -/
inductive Blanks : (gap rest : List Char) → Prop where
  | nil (rest : List Char) : Blanks [] rest
  | blank {x : Char} {gap rest : List Char} : Text.isBlank x = true → Blanks gap rest →
      Blanks (x :: gap) rest
  | comment {body gap rest : List Char} : '\n' ∉ body →
      (∀ x ∈ (gap ++ rest).head?, x = '\n' ∨ x = '\x00') → Blanks gap rest →
      Blanks ('/' :: '/' :: body ++ gap) rest

namespace Cursor

/-- What is skipped from within a comment on: the rest of the comment, and then blanks. -/
def SkippedFrom (inComment : Bool) (gap rest : List Char) : Prop :=
  if inComment then ∃ body more, gap = body ++ more ∧ '\n' ∉ body ∧
    (∀ x ∈ (more ++ rest).head?, x = '\n' ∨ x = '\x00') ∧ Blanks more rest
  else Blanks gap rest

theorem skipFrom_between (inComment : Bool) (before cs : List Char) : ∃ gap rest, cs = gap ++ rest ∧
    skipFrom inComment cs (between before cs).line (between before cs).column =
      between (before ++ gap) rest ∧
    SkippedFrom inComment gap rest ∧ ∀ x ∈ rest.head?, Text.isBlank x = false := by
  induction cs generalizing inComment before with
  | nil =>
    refine ⟨[], [], rfl, by simp [skipFrom, between_nil], ?_, by simp⟩
    cases inComment with
    | false => exact .nil []
    | true => exact ⟨[], [], rfl, by simp, by simp, .nil []⟩
  | cons x xs ih =>
    have hgo : ∀ b, ∃ gap rest, xs = gap ++ rest ∧
        skipFrom b xs
          (after (between before (x :: xs)).line (between before (x :: xs)).column xs).line
          (after (between before (x :: xs)).line (between before (x :: xs)).column xs).column =
          between (before ++ (x :: gap)) rest ∧
        SkippedFrom b gap rest ∧ ∀ x ∈ rest.head?, Text.isBlank x = false := by
      intro b
      rw [after_between, List.append_cons]
      simpa using ih b (before ++ [x])
    have hstay : (⟨x :: xs, (between before (x :: xs)).line, (between before (x :: xs)).column⟩ :
        Cursor) = between (before ++ []) (x :: xs) := by rw [List.append_nil, mk_between]
    cases inComment with
    | true =>
      rw [skipFrom]
      split
      · next hx =>
        obtain ⟨gap, rest, rfl, hskip, hgap, hrest⟩ := hgo false
        have hblank : Blanks ('\n' :: gap) rest := .blank (by decide) hgap
        exact ⟨x :: gap, rest, rfl, hskip, ⟨[], x :: gap, rfl, by simp, by simp [hx], hx ▸ hblank⟩,
          hrest⟩
      · next hx =>
        split
        · next hnul =>
          have hblank : Text.isBlank x = false := hnul ▸ by decide
          exact ⟨[], x :: xs, rfl, hstay, ⟨[], [], rfl, by simp, by simp [hnul], .nil _⟩,
            by simpa using hblank⟩
        · obtain ⟨gap, rest, rfl, hskip, ⟨body, more, rfl, hbody, hends, hmore⟩, hrest⟩ := hgo true
          have hnot : '\n' ∉ x :: body := by simp [hbody, Ne.symm hx]
          exact ⟨x :: (body ++ more), rest, rfl, hskip, ⟨x :: body, more, rfl, hnot, hends, hmore⟩,
            hrest⟩
    | false =>
      rw [skipFrom]
      split
      · next hx =>
        obtain ⟨gap, rest, rfl, hskip, hgap, hrest⟩ := hgo false
        exact ⟨x :: gap, rest, rfl, hskip, .blank hx hgap, hrest⟩
      · next hx =>
        split
        · next hslash =>
          obtain ⟨rfl, hhead⟩ := hslash
          obtain ⟨gap, rest, rfl, hskip, ⟨body, more, rfl, hbody, hends, hmore⟩, hrest⟩ := hgo true
          refine ⟨'/' :: (body ++ more), rest, rfl, hskip, ?_, hrest⟩
          cases body with
          | nil =>
            rcases hends _ hhead with h | h <;> cases h
          | cons y body =>
            obtain rfl : y = '/' := by simpa using hhead
            exact .comment (fun h => hbody (List.mem_cons_of_mem _ h)) hends hmore
        · refine ⟨[], x :: xs, rfl, hstay, .nil _, ?_⟩
          simpa using hx

end Cursor

/-- The sorts of token that are read in different ways; a word is a name or a keyword. -/
inductive TokenSort where
  | illegal | eof | word | int | string | symbol
  deriving DecidableEq, Repr

namespace TokenKind

def sort : TokenKind → TokenSort
  | illegal => .illegal
  | eof => .eof
  | int => .int
  | string => .string
  | ident | letWord | funcWord | ifWord | elseWord | whileWord | returnWord | importWord
  | includeWord | passWord | numberType | stringType | structType | nullType => .word
  | _ => .symbol

theorem sort_ofWord (word : Bytes) : (ofWord word).sort = .word := by
  fun_cases ofWord word <;> rfl

end TokenKind

namespace Token

/-- The escapes of string literals: the character behind the backslash and the one it stands for. -/
def escapes : List (Char × Char) :=
  [('\\', '\\'), ('"', '"'), ('n', '\n'), ('t', '\t'), ('r', '\r'), ('0', '\x00')]

theorem escape?_eq_some_iff {e x : Char} : escape? e = some x ↔ (e, x) ∈ escapes := by
  unfold escape? escapes
  split <;> simp_all [eq_comm]

/-- The ways to write a string between quotes: quotes, backslashes, line ends and NULs by their
escapes, tabs and carriage returns with or without, and all else as it is. -/
inductive Literal : (value written : List Char) → Prop where
  | nil : Literal [] []
  | plain {x : Char} {value written : List Char} : x ∉ ['\x00', '\n', '"', '\\'] →
      Literal value written → Literal (x :: value) (x :: written)
  | escape {e x : Char} {value written : List Char} : (e, x) ∈ escapes →
      Literal value written → Literal (x :: value) ('\\' :: e :: written)

/-- How reading goes on behind an opening quote: the literal is closed by a quote, or it is not
closed, or it has a wrong escape. -/
inductive ReadString (opening : Position) (before acc : List Char) :
    List Char → StringEnd → Prop where
  | closed {value written rest : List Char} : Literal value written →
      ReadString opening before acc (written ++ '"' :: rest)
        ⟨.ok (acc.reverse ++ value), .between (before ++ written ++ ['"']) rest⟩
  | unterminated (text rest : List Char) : ReadString opening before acc (text ++ rest)
      ⟨.error ⟨opening, .unterminatedString⟩, .between (before ++ text) rest⟩
  | badEscape (text rest : List Char) : ReadString opening before acc (text ++ '\\' :: rest)
      ⟨.error ⟨.behind (before ++ text), .badEscape⟩, .between (before ++ text ++ ['\\']) rest⟩

theorem ReadString.prepend {opening : Position} {before acc cs front : List Char} {x : Char}
    {r : StringEnd}
    (hfront : ∀ {value written}, Literal value written → Literal (x :: value) (front ++ written))
    (h : ReadString opening (before ++ front) (x :: acc) cs r) :
    ReadString opening before acc (front ++ cs) r := by
  cases h with
  | closed hlit => simpa using ReadString.closed (hfront hlit)
  | unterminated text rest => simpa using ReadString.unterminated (front ++ text) rest
  | badEscape text rest => simpa using ReadString.badEscape (front ++ text) rest

theorem readString_between (opening : Position) (before cs acc : List Char) :
    ReadString opening before acc cs (readString opening cs (Cursor.between before cs).line
      (Cursor.between before cs).column acc) := by
  induction hn : cs.length using Nat.strongRecOn generalizing cs before acc with
  | ind n ih =>
  have hgo : ∀ front (x : Char) cs', cs = front ++ cs' → front ≠ [] →
      (∀ {value written}, Literal value written → Literal (x :: value) (front ++ written)) →
      ReadString opening before acc cs (readString opening cs'
        (Cursor.between (before ++ front) cs').line (Cursor.between (before ++ front) cs').column
        (x :: acc)) := by
    rintro front x cs' rfl hne hfront
    have hlt : cs'.length < n := by
      have := List.length_pos_iff.2 hne
      rw [← hn, List.length_append]
      omega
    exact .prepend hfront (ih _ hlt _ _ _ rfl)
  cases cs with
  | nil => simpa [readString, Cursor.between_nil] using ReadString.unterminated [] []
  | cons x xs =>
    unfold readString
    simp only [Cursor.after_between]
    split
    · have hunterminated : ReadString opening before acc (x :: xs) _ := .unterminated [] (x :: xs)
      rw [Cursor.mk_between]
      simpa using hunterminated
    · next hends =>
      split
      · next hquote =>
        subst hquote
        have hclosed : ReadString opening before acc ([] ++ '"' :: xs) _ := .closed .nil
        simpa using hclosed
      · next hquote =>
        split
        · next hslash =>
          subst hslash
          have hpos : (⟨(Cursor.between before ('\\' :: xs)).line,
              (Cursor.between before ('\\' :: xs)).column⟩ : Position) = .behind before :=
            Cursor.pos_between before xs (by decide)
          have hbad : ReadString opening before acc ([] ++ '\\' :: xs) _ := .badEscape [] xs
          rw [hpos]
          split
          · rw [Cursor.between_cons]
            simpa [Cursor.between_nil] using hbad
          · next e ys =>
            simp only [Cursor.after_between]
            split
            · simpa using hbad
            · next r he =>
              have hescape := hgo ['\\', e] r ys rfl (by simp)
                (.escape (escape?_eq_some_iff.1 he))
              simpa using hescape
        · next hslash => exact hgo [x] x xs rfl (by simp) (.plain (by simp_all))

/-- Which characters in front of `rest` make which token with which error, when `before` stands in
front of them. Numbers and words are as long as they can be. -/
inductive Lexes (before : List Char) : (text rest : List Char) → Token → Option LexError →
    Prop where
  | number {run rest : List Char} : run ≠ [] → (∀ x ∈ run, isDigit x = true) →
      (∀ x ∈ rest.head?, isDigit x = false) →
      Lexes before run rest ⟨.int, Bytes.ofChars (runText run rest), .behind before⟩ none
  | word {x : Char} {run rest : List Char} : startsName x = true →
      (∀ y ∈ x :: run, continuesName y = true) → (∀ y ∈ rest.head?, continuesName y = false) →
      Lexes before (x :: run) rest
        ⟨.ofWord (Bytes.ofChars (Text.composed (runText (x :: run) rest))),
          Bytes.ofChars (Text.composed (runText (x :: run) rest)), .behind before⟩ none
  | string {value written rest : List Char} : Literal value written →
      Lexes before ('"' :: written ++ ['"']) rest ⟨.string, Bytes.ofChars value, .behind before⟩
        none
  | unterminated (body rest : List Char) : Lexes before ('"' :: body) rest
      ⟨.illegal, [], .behind before⟩ (some ⟨.behind before, .unterminatedString⟩)
  | badEscape (body rest : List Char) : Lexes before ('"' :: body ++ ['\\']) rest
      ⟨.illegal, [], .behind before⟩ (some ⟨.behind (before ++ '"' :: body), .badEscape⟩)
  | symbol {kind : TokenKind} {text rest : List Char} : kind.sort = .symbol → text ≠ [] →
      Lexes before text rest ⟨kind, Bytes.ofChars text, .behind before⟩ none
  | stray {x : Char} {rest : List Char} {fault : LexFault} :
      Lexes before [x] rest ⟨.illegal, Bytes.ofChars [x], .behind before⟩
        (some ⟨.behind before, fault⟩)

theorem symbol?_sort {x : Char} {next : Option Char} {kind : TokenKind} {n : Nat}
    (h : symbol? x next = some (kind, n)) :
    kind.sort = .symbol ∧ (n = 1 ∨ n = 2 ∧ next = some '=') := by
  unfold symbol? at h
  split at h <;> first
    | (cases h; exact ⟨rfl, .inl rfl⟩)
    | (split at h <;> first
        | (cases h; exact ⟨rfl, .inl rfl⟩)
        | (cases h; exact ⟨rfl, .inr ⟨rfl, by assumption⟩⟩)
        | cases h)
    | cases h

/-- A run of characters with a property is taken as a whole. -/
theorem advanceBy_run (p : Char → Bool) (before cs : List Char) : ∃ run rest, cs = run ++ rest ∧
    cs.takeWhile p = run ∧
    (Cursor.between before cs).advanceBy run.length = .between (before ++ run) rest ∧
    (∀ x ∈ run, p x = true) ∧ ∀ x ∈ rest.head?, p x = false := by
  refine ⟨cs.takeWhile p, cs.dropWhile p, List.takeWhile_append_dropWhile.symm, rfl, ?_,
    List.all_eq_true.1 List.all_takeWhile, ?_⟩
  · have h := Cursor.advanceBy_between before (cs.takeWhile p) (cs.dropWhile p)
    rwa [List.takeWhile_append_dropWhile] at h
  · intro x hx
    have hnot := List.head?_dropWhile_not p cs
    rwa [hx] at hnot

/-- The token at a cursor is made of the next characters, and reading goes on behind them. -/
theorem lexFrom_between (before : List Char) {x : Char} (xs : List Char) (hx : x ≠ '\n') :
    ∃ text rest token error, x :: xs = text ++ rest ∧
      lexFrom (.between before (x :: xs)) x = ⟨token, error, .between (before ++ text) rest⟩ ∧
      Lexes before text rest token error := by
  unfold lexFrom
  simp only [Cursor.pos_between before xs hx, Cursor.rest_between, Cursor.advance_between]
  split
  · next hdigit =>
    obtain ⟨run, rest, hcs, hrun, hnext, hall, hend⟩ := advanceBy_run isDigit before (x :: xs)
    rw [hrun, hnext, Cursor.rest_between]
    refine ⟨run, rest, _, _, hcs, rfl, .number ?_ hall hend⟩
    rintro rfl
    exact absurd hdigit (by simp [hend x (by rw [← List.nil_append rest, ← hcs]; rfl)])
  · split
    · next hstarts =>
      obtain ⟨run, rest, hcs, hrun, hnext, hall, hend⟩ :=
        advanceBy_run continuesName before (x :: xs)
      have hcontinues : continuesName x = true := by rw [continuesName, hstarts]; rfl
      rw [List.takeWhile_cons, if_pos hcontinues] at hrun
      subst hrun
      rw [List.takeWhile_cons, if_pos hcontinues, hnext, Cursor.rest_between]
      exact ⟨_, rest, _, _, hcs, rfl, .word hstarts hall hend⟩
    · split
      · next hquote =>
        subst hquote
        have hread := readString_between (.behind before) (before ++ ['"']) xs []
        revert hread
        generalize readString _ _ _ _ _ = r
        intro hread
        cases hread with
        | @closed _ _ rest hlit => exact ⟨_, rest, _, _, by simp, by simp, .string hlit⟩
        | unterminated text rest => exact ⟨_, rest, _, _, rfl, by simp, .unterminated text rest⟩
        | badEscape text rest => exact ⟨_, rest, _, _, by simp, by simp, .badEscape text rest⟩
      · split
        · next kind n hsymbol =>
          obtain ⟨hkind, hn⟩ := symbol?_sort hsymbol
          obtain ⟨text, rest, hcs, rfl⟩ :
              ∃ text rest, x :: xs = text ++ rest ∧ n = text.length := by
            refine ⟨(x :: xs).take n, (x :: xs).drop n, (List.take_append_drop _ _).symm, ?_⟩
            rcases hn with rfl | ⟨rfl, hnext⟩
            · rfl
            · cases xs with
              | nil => cases hnext
              | cons y ys => rfl
          rw [hcs, Cursor.advanceBy_between, List.take_left]
          refine ⟨text, rest, _, _, rfl, rfl, .symbol hkind ?_⟩
          rintro rfl
          simp at hn
        · exact ⟨[x], xs, _, _, rfl, rfl, .stray⟩

/-- How a text is cut into tokens, up to its end or to a NUL. -/
inductive Scans : (before rest : List Char) → List Token → List LexError → Prop where
  | ends {before gap rest : List Char} : Blanks gap rest → (∀ x ∈ rest.head?, x = '\x00') →
      Scans before (gap ++ rest) [] []
  | token {before gap text rest : List Char} {t : Token} {e : Option LexError} {ts : List Token}
      {es : List LexError} : Blanks gap (text ++ rest) → Lexes (before ++ gap) text rest t e →
      Scans (before ++ gap ++ text) rest ts es →
      Scans before (gap ++ (text ++ rest)) (t :: ts) (e.toList ++ es)

/-- One step of the scanner: blanks, and then a token or the end. -/
theorem next?_between (before cs : List Char) : ∃ gap rest, cs = gap ++ rest ∧ Blanks gap rest ∧
    (next? (.between before cs) = none ∧ (∀ x ∈ rest.head?, x = '\x00') ∨
      ∃ text more t e, rest = text ++ more ∧ Lexes (before ++ gap) text more t e ∧
        next? (.between before cs) = some ⟨t, e, .between (before ++ gap ++ text) more⟩) := by
  obtain ⟨gap, rest, rfl, hskip, hgap, hblank⟩ := Cursor.skipFrom_between false before cs
  refine ⟨gap, rest, rfl, hgap, ?_⟩
  have hskip : (Cursor.between before (gap ++ rest)).skipBlanks =
      .between (before ++ gap) rest := by
    rw [← hskip, Cursor.skipBlanks, Cursor.rest_between]
  simp only [next?, hskip, Cursor.current?, Cursor.rest_between]
  cases rest with
  | nil => exact .inl ⟨rfl, by simp⟩
  | cons x xs =>
    by_cases hnul : x = '\x00'
    · exact .inl ⟨by simp [hnul], by simp [hnul]⟩
    · have hline : x ≠ '\n' := by
        rintro rfl
        exact absurd (hblank '\n' rfl) (by decide)
      obtain ⟨text, more, t, e, hcs, hlex, hrule⟩ := lexFrom_between (before ++ gap) xs hline
      exact .inr ⟨text, more, t, e, hcs, hrule, by simp [hnul, hlex]⟩

namespace Lexes

variable {before text rest : List Char} {t : Token} {e : Option LexError}

theorem ne_nil (h : Lexes before text rest t e) : text ≠ [] := by
  cases h with
  | number hne => exact hne
  | symbol _ hne => exact hne
  | word | string | unterminated | badEscape | stray => simp

theorem pos_eq (h : Lexes before text rest t e) : t.pos = .behind before := by
  cases h <;> rfl

theorem sort_ne_eof (h : Lexes before text rest t e) : t.kind.sort ≠ .eof := by
  cases h with
  | word => simp [TokenKind.sort_ofWord]
  | symbol hkind => simp [hkind]
  | number | string | unterminated | badEscape | stray => simp [TokenKind.sort]

end Lexes

theorem scans_scanFrom (n : Nat) (before cs : List Char) (hn : cs.length ≤ n) :
    Scans before cs (scanFrom n (.between before cs)).tokens
      (scanFrom n (.between before cs)).errors := by
  induction n generalizing before cs with
  | zero =>
    obtain rfl := List.eq_nil_of_length_eq_zero (Nat.le_zero.1 hn)
    exact .ends (.nil []) (by simp)
  | succ n ih =>
    obtain ⟨gap, rest, rfl, hgap, ⟨hnext, hend⟩ | ⟨text, more, t, e, rfl, hrule, hnext⟩⟩ :=
      next?_between before cs
    · rw [scanFrom, hnext]
      exact .ends hgap hend
    · rw [scanFrom, hnext]
      have hpos := List.length_pos_iff.2 hrule.ne_nil
      simp only [List.length_append] at hn
      exact .token hgap hrule (ih _ _ (by omega))

theorem length_scanFrom_le (n : Nat) (c : Cursor) : (scanFrom n c).tokens.length ≤ n := by
  induction n generalizing c with
  | zero => exact Nat.le_refl 0
  | succ n ih =>
    rw [scanFrom]
    cases next? c with
    | none => exact Nat.zero_le _
    | some l => exact Nat.succ_le_succ (ih l.next)

theorem scans_scan (cs : List Char) : Scans [] cs (scan cs).tokens (scan cs).errors :=
  scans_scanFrom _ [] cs (Nat.le_refl _)

theorem Scans.lexes {before cs : List Char} {ts : List Token} {es : List LexError}
    (h : Scans before cs ts es) : ∀ t ∈ ts, ∃ front text rest e,
      before ++ cs = front ++ text ++ rest ∧ Lexes front text rest t e := by
  induction h with
  | ends => exact List.forall_mem_nil _
  | @token before gap text rest t e ts es _ hrule _ ih =>
    refine List.forall_mem_cons.2 ⟨⟨before ++ gap, text, rest, e, by simp, hrule⟩, fun u hu => ?_⟩
    obtain ⟨front, text', rest', e', hcs, hrule'⟩ := ih u hu
    exact ⟨front, text', rest', e', by simpa using hcs, hrule'⟩

end Token

end UnitScript
