import UnitScript.Proofs.Syntax.Descent
import UnitScript.Proofs.Syntax.Scanning

/-!
# What a silent parser has read

Every statement takes a token, so the parser comes to the end of every text, and its bounds are never
what stops it. Where something is missing in a tree it was reported. In a program without errors
nothing is missing, except the value of a bare `return` and the types that were left out. The names in
a program are lexemes of its text, so they have no dot.
-/

namespace UnitScript

namespace Node

theorem importsOfAll_append (ms ns : List Node) :
    importsOfAll (ms ++ ns) = importsOfAll ms ++ importsOfAll ns := by
  induction ms with
  | nil => rfl
  | cons m rest ih => rw [List.cons_append, importsOfAll, importsOfAll, ih, List.append_assoc]

theorem importsOfAll_singleton (n : Node) : importsOfAll [n] = n.imports := List.append_nil _

end Node

/-- All that is asked of what is read from the state is that it is whole. -/
def ParseState.whole (s : ParseState) : Node.Aim := ⟨fun _ => True, s.rest.length + 1, True⟩

theorem ParseState.good_whole (s : ParseState) : Parser.Good s.whole s :=
  ⟨fun _ _ _ => trivial, Nat.le_refl _⟩

namespace Parser

attribute [local simp] Node.imports Node.importsOfAll

variable {a : Node.Aim} {d : Nat}

abbrev importCount (o : Option Node) : Nat := (Node.importsOfAll o.toList).length

abbrev MaybeMeets (a : Node.Aim) (o : Option Node) : Prop := ∀ n ∈ o, n.Meets a

abbrev RunsStatement (a : Node.Aim) (d : Nat) (p : Parser (Option Node)) (c : Descent (Option Node)) :
    Prop :=
  ∀ s, 0 < s.rest.length → s.rest.length ≤ d →
    Run a (s.rest.length - 1) s p c importCount (MaybeMeets a)

section Rules

variable {m : Nat} {s : ParseState} {P : Option Node → Prop}

theorem run_none (hm : s.rest.length ≤ m) (h : P none) :
    Run a m s (pure none) (pure none) importCount P :=
  run_pure (by simpa [importCount] using hm) h

theorem run_some {n : Node} (hm : n.imports.length + s.rest.length ≤ m) (h : P (some n)) :
    Run a m s (pure (some n)) (pure (some n)) importCount P :=
  run_pure (by simpa [importCount, Node.importsOfAll_singleton] using hm) h

end Rules

theorem maybe_none : MaybeMeets a none := by
  intro n hn
  cases hn

theorem maybe_some {n : Node} (h : n.Meets a) : MaybeMeets a (some n) := by
  intro n' hn'
  cases hn'
  exact h

theorem MaybeMeets.toList {o : Option Node} (h : MaybeMeets a o) : Node.AllMeet a o.toList :=
  fun n hn => h n (Option.mem_toList.1 hn)

theorem runs_letStatement (d : Nat) : RunsStatement a d letStatement Descent.letStatement := by
  intro s hpos _
  refine run_current (run_advance fun s₁ h₁ => run_current (run_ite (fun _ => ?_) fun hident => ?_))
  · exact run_report fun s₂ h₂ => run_none (by omega) fun _ => maybe_none
  · refine run_named (Classical.not_not.1 hident) (run_advance fun s₂ h₂ => ?_)
    refine (run_writtenType s₂).bind fun type s₃ h₃ => ?_
    refine run_expect fun s₄ h₄ => (run_expr s₄).bind fun value s₅ h₅ => ?_
    refine run_expect fun s₆ h₆ => run_some (by simp; omega) fun hvalue _ hname => ?_
    exact maybe_some (Node.meets_binary (Node.meets_ident hname) hvalue)

theorem runs_returnStatement (d : Nat) :
    RunsStatement a d returnStatement Descent.returnStatement := by
  intro s hpos _
  refine run_current (run_advance fun s₁ h₁ => ?_)
  have hend : ∀ value s', s'.rest.length ≤ s₁.rest.length → Run a (s.rest.length - 1) s'
      (expect .semicolon >>= fun _ => pure (some (Node.ret (head s).pos value)))
      (liftM (expect .semicolon) >>= fun _ => pure (some (Node.ret (head s).pos value)))
      importCount fun o => (Node.ret (head s).pos value).Meets a → MaybeMeets a o := by
    intro value s' hs'
    exact run_expect fun s₂ h₂ => run_some (by simp; omega) maybe_some
  refine run_current (run_ite (fun _ => ?_) fun _ => ?_)
  · refine (hend .missing s₁ (Nat.le_refl _)).mono (Nat.le_refl _) fun _ o h => h ?_
    exact Node.meets_leaf rfl rfl fun _ => rfl
  · refine (run_expr s₁).bind fun value s₂ h₂ => ?_
    refine (hend value s₂ (by omega)).mono (Nat.le_refl _) fun _ o h hvalue => h ?_
    exact Node.meets_ret hvalue

theorem run_modulePathWithin (n : Nat) {s : ParseState} (hn : s.rest.length < n) :
    Run a s.rest.length s (modulePathWithin n) Descent.modulePath (fun _ => 0) fun _ => True := by
  induction n generalizing s with
  | zero => exact absurd hn (Nat.not_lt_zero _)
  | succ n ih =>
    rw [Descent.modulePath]
    refine run_current (run_ite (fun _ => run_pure (by omega) trivial) fun hdot => ?_)
    have hpos := rest_pos (Classical.not_not.1 hdot) (by decide)
    refine run_advance fun s₁ h₁ => run_current (run_ite (fun _ => ?_) fun _ => ?_)
    · exact run_report fun s₂ h₂ => run_pure (by omega) fun _ => trivial
    · refine run_advance fun s₂ h₂ => (ih (by omega)).bind fun path s₃ h₃ => ?_
      exact run_pure (by omega) fun _ => trivial

theorem runs_importStatement (d : Nat) :
    RunsStatement a d importStatement Descent.importStatement := by
  intro s hpos _
  refine run_current (run_advance fun s₁ h₁ => run_current (run_ite (fun _ => ?_) fun hname => ?_))
  · exact run_report fun s₂ h₂ => run_none (by omega) fun _ => maybe_none
  · have hpos₁ := rest_pos (Classical.not_not.1 hname) (by decide)
    refine run_advance fun s₂ h₂ => run_bound ?_
    refine (run_modulePathWithin _ (Nat.lt_succ_self _)).bind fun path s₃ h₃ => ?_
    refine run_expect fun s₄ h₄ => run_some (by simp; omega) fun _ => ?_
    exact maybe_some (Node.meets_leaf rfl rfl fun _ => rfl)

theorem runs_plainStatement (d : Nat) : RunsStatement a d plainStatement Descent.plainStatement := by
  intro s hpos _
  refine (run_expr s).bind fun left s₁ h₁ => run_ite (fun _ => ?_) fun hpresent => ?_
  · exact run_advance fun s₂ h₂ => run_none (by omega) fun _ => maybe_none
  · have hweight : left.weight = left.imports.length + 1 := if_neg hpresent
    refine run_current (run_ite (fun _ => ?_) fun _ => ?_)
    · refine run_advance fun s₂ h₂ => (run_expr s₂).bind fun right s₃ h₃ => ?_
      refine run_expect fun s₄ h₄ => run_some (by simp; omega) fun hright hleft => ?_
      exact maybe_some (Node.meets_binary hleft hright)
    · exact run_expect fun s₂ h₂ => run_some (by omega) maybe_some

theorem run_paramsWithin (n : Nat) {s : ParseState} (hn : s.rest.length < n) :
    Run a s.rest.length s (paramsWithin n) Descent.params (fun _ => 0)
      fun params => ∀ p ∈ params, a.named p.name := by
  induction n generalizing s with
  | zero => exact absurd hn (Nat.not_lt_zero _)
  | succ n ih =>
    rw [Descent.params]
    refine run_current (run_ite (fun _ => ?_) fun hname => ?_)
    · exact run_report fun s₁ h₁ => run_pure (by omega) fun _ => List.forall_mem_nil _
    · have hpos := rest_pos (Classical.not_not.1 hname) (by decide)
      refine run_named (Classical.not_not.1 hname) (run_advance fun s₁ h₁ => ?_)
      refine (run_writtenType s₁).bind fun type s₂ h₂ => run_current (run_ite (fun _ => ?_) fun _ => ?_)
      · refine run_advance fun s₃ h₃ => (ih (by omega)).bind fun params s₄ h₄ => ?_
        exact run_pure (by omega) fun hparams _ hname => List.forall_mem_cons.2 ⟨hname, hparams⟩
      · exact run_pure (by omega) fun _ hname => List.forall_mem_singleton.2 hname

section Blocks

variable {statement : Parser (Option Node)}

theorem run_statementsWithin (h : RunsStatement a d statement Descent.statement) (close : TokenKind)
    (n : Nat) {s : ParseState} (hn : s.rest.length < n) (hd : s.rest.length ≤ d) :
    Run a s.rest.length s (statementsWithin statement close n) (Descent.statements close)
      (fun ns => (Node.importsOfAll ns).length) (Node.AllMeet a) := by
  induction n generalizing s with
  | zero => exact absurd hn (Nat.not_lt_zero _)
  | succ n ih =>
    rw [Descent.statements]
    refine run_current (run_ite (fun _ => ?_) fun hopen => ?_)
    · exact run_pure (by simp) (List.forall_mem_nil _)
    · have hpos := rest_pos rfl fun heof => hopen (.inr heof)
      refine (h s hpos hd).bind fun o s₁ h₁ => (ih (by omega) (by omega)).bind fun ns s₂ h₂ => ?_
      refine run_pure ?_ fun hns ho => List.forall_mem_append.2 ⟨ho.toList, hns⟩
      unfold importCount at h₁
      rw [Node.importsOfAll_append, List.length_append]
      omega

theorem run_block (h : RunsStatement a d statement Descent.statement) {s : ParseState}
    (hd : s.rest.length ≤ d) : Run a s.rest.length s (block statement) Descent.block
      (fun ns => (Node.importsOfAll ns).length) (Node.AllMeet a) := by
  rw [Descent.block]
  refine run_expect fun s₁ h₁ => run_bound ?_
  refine (run_statementsWithin h .rBrace _ (Nat.lt_succ_self _) (by omega)).bind fun body s₂ h₂ => ?_
  refine run_current (run_ite (fun _ => ?_) fun _ => ?_)
  · exact run_advance fun s₃ h₃ => run_pure (by omega) id
  · exact run_report fun s₃ h₃ => run_pure (by omega) fun _ => id

theorem runs_funcStatement (h : RunsStatement a d statement Descent.statement) :
    RunsStatement a (d + 1) (funcStatement statement) Descent.funcStatement := by
  intro s hpos hd
  rw [Descent.funcStatement]
  refine run_advance fun s₁ h₁ => run_current (run_ite (fun _ => ?_) fun hident => ?_)
  · exact run_report fun s₂ h₂ => run_none (by omega) fun _ => maybe_none
  · refine run_named (Classical.not_not.1 hident) (run_advance fun s₂ h₂ => run_expect fun s₃ h₃ => ?_)
    have hend : ∀ params s', s'.rest.length ≤ s₃.rest.length → Run a (s.rest.length - 1) s' (do
        expect .rParen
        let result ← annotation
        let body ← block statement
        return some (.func (head s₁).pos (head s₁).lexeme params result body)) (do
        expect .rParen
        let result ← Descent.annotation
        let body ← Descent.block
        return some (.func (head s₁).pos (head s₁).lexeme params result body))
        importCount fun o => (∀ p ∈ params, a.named p.name) → a.named (head s₁).lexeme →
          MaybeMeets a o := by
      intro params s' hs'
      refine run_expect fun s₄ h₄ => (run_writtenType s₄).bind fun result s₅ h₅ => ?_
      refine (run_block h (by omega)).bind fun body s₆ h₆ => ?_
      refine run_some (by simp only [Node.imports]; omega) fun hbody _ hparams hname => ?_
      exact maybe_some (Node.meets_func hname hparams hbody)
    refine run_current (run_ite (fun _ => ?_) fun _ => run_bound ?_)
    · exact (hend [] s₃ (Nat.le_refl _)).mono (Nat.le_refl _) fun _ o ho => ho (List.forall_mem_nil _)
    · exact (run_paramsWithin _ (Nat.lt_succ_self _)).bind fun params s₄ h₄ => hend params s₄ (by omega)

theorem runs_ifStatement (h : RunsStatement a d statement Descent.statement) :
    RunsStatement a (d + 1) (ifStatement statement) Descent.ifStatement := by
  intro s hpos hd
  rw [Descent.ifStatement]
  refine run_current (run_advance fun s₁ h₁ => (run_expr s₁).bind fun test s₂ h₂ => ?_)
  refine (run_block h (by omega)).bind fun yes s₃ h₃ => ?_
  have hend : ∀ no s', (Node.importsOfAll no).length + s'.rest.length ≤ s₃.rest.length →
      Run a (s.rest.length - 1) s' (pure (some (Node.cond (head s).pos test yes no)))
        (pure (some (Node.cond (head s).pos test yes no))) importCount fun o =>
          Node.AllMeet a no → Node.AllMeet a yes → test.Meets a → MaybeMeets a o := by
    intro no s' hs'
    refine run_some ?_ fun hno hyes htest => maybe_some (Node.meets_cond htest hyes hno)
    rw [Node.imports, List.length_append]
    omega
  refine run_current (run_ite (fun helse => run_advance fun s₄ h₄ => ?_) fun _ => ?_)
  · have hpos₃ := rest_pos helse (by decide)
    refine run_current (run_ite (fun hif => ?_) fun _ => ?_)
    · have hpos₄ := rest_pos hif (by decide)
      have hnested : Run a (s₄.rest.length - 1) s₄ (Option.toList <$> statement)
          (Option.toList <$> Descent.statement) (fun ns => (Node.importsOfAll ns).length)
          (Node.AllMeet a) :=
        (h s₄ hpos₄ (by omega)).map (fun _ => rfl) fun o ho => ho.toList
      exact hnested.bind fun no s₅ h₅ => hend no s₅ (by omega)
    · exact (run_block h (by omega)).bind fun no s₅ h₅ => hend no s₅ (by omega)
  · refine (hend [] s₃ (by simp)).mono (Nat.le_refl _) fun _ o ho => ho ?_
    exact List.forall_mem_nil _

theorem runs_whileStatement (h : RunsStatement a d statement Descent.statement) :
    RunsStatement a (d + 1) (whileStatement statement) Descent.whileStatement := by
  intro s hpos hd
  rw [Descent.whileStatement]
  refine run_current (run_advance fun s₁ h₁ => (run_expr s₁).bind fun test s₂ h₂ => ?_)
  refine (run_block h (by omega)).bind fun body s₃ h₃ => ?_
  refine run_some (by simp only [Node.imports]; omega) fun hbody htest => ?_
  exact maybe_some (Node.meets_loop htest hbody)

end Blocks

theorem runs_statementWithin (d : Nat) :
    RunsStatement a d (statementWithin d) Descent.statement := by
  induction d with
  | zero => exact fun s hpos hd => absurd hpos (by omega)
  | succ d ih =>
    intro s hpos hd
    rw [Descent.statement]
    refine run_current ?_
    cases (head s).kind with
    | letWord => exact runs_letStatement _ s hpos hd
    | funcWord => exact runs_funcStatement ih s hpos hd
    | ifWord => exact runs_ifStatement ih s hpos hd
    | whileWord => exact runs_whileStatement ih s hpos hd
    | returnWord => exact runs_returnStatement _ s hpos hd
    | importWord | includeWord => exact runs_importStatement _ s hpos hd
    | passWord =>
      refine run_advance fun s₁ h₁ => run_expect fun s₂ h₂ => run_some ?_ (maybe_some ?_)
      · simp only [Node.imports, List.length_nil]
        omega
      · exact Node.meets_leaf rfl rfl fun _ => rfl
    | semicolon | illegal => exact run_advance fun s₁ h₁ => run_none (by omega) maybe_none
    | _ => exact runs_plainStatement _ s hpos hd

theorem run_program (a : Node.Aim) (s : ParseState) : Run a s.rest.length s program Descent.program
    (fun ns => (Node.importsOfAll ns).length) (Node.AllMeet a) :=
  run_bound (run_statementsWithin (runs_statementWithin _) .eof _ (Nat.lt_succ_self _) (Nat.le_succ _))

/-- The statements of a block end where it is closed, or with the text. -/
theorem ends_statementsWithin {statement : Parser (Option Node)}
    (h : RunsStatement a d statement Descent.statement) (close : TokenKind) (n : Nat) {s : ParseState}
    (hn : s.rest.length < n) (hd : s.rest.length ≤ d) :
    (head (statementsWithin statement close n s).2).kind = close ∨
      (head (statementsWithin statement close n s).2).kind = .eof := by
  induction n generalizing s with
  | zero => exact absurd hn (Nat.not_lt_zero _)
  | succ n ih =>
    rw [statementsWithin, current_bind]
    by_cases hclosed : (head s).kind = close ∨ (head s).kind = .eof
    · rw [if_pos hclosed]
      exact hclosed
    · have hpos := rest_pos rfl fun heof => hclosed (.inr heof)
      have hlength := (h s hpos hd).length
      rw [if_neg hclosed]
      exact ih (s := (statement s).2) (by omega) (by omega)

theorem head_program (s : ParseState) : (head (program s).2).kind = .eof :=
  (ends_statementsWithin (runs_statementWithin (a := s.whole) _) .eof _ (Nat.lt_succ_self _)
    (Nat.le_succ _)).elim id id

/-- If no token stands for the end of the text, the whole text is read. -/
theorem rest_program {s : ParseState} (h : ∀ t ∈ s.rest, t.kind ≠ .eof) : (program s).2.rest = [] := by
  have hhead := head_program s
  cases hrest : (program s).2.rest with
  | nil => rfl
  | cons t rest =>
    have hmem : t ∈ s.rest := (run_program s.whole s).suffix.subset (by rw [hrest]; exact List.mem_cons_self)
    rw [head, hrest] at hhead
    exact absurd hhead (h t hmem)

end Parser

namespace Program

/-- What the name tokens of a source have, the names of the program have, and no array literal has
more elements than there are tokens, and one. -/
theorem built_ofSource {W : Name → Prop} {source : Bytes}
    (h : ∀ t ∈ (Token.scanBytes source).tokens, t.Named W) :
    Node.AllBuilt W ((Token.scanBytes source).tokens.length + 1) (Program.ofSource source).1 :=
  ((Parser.run_program ⟨W, _, False⟩ _).result ⟨h, Nat.le_refl _⟩ False.elim).built

theorem dotless_ofSource (source : Bytes) : ∀ n ∈ (Program.ofSource source).1, n.Dotless :=
  fun n hn => (built_ofSource (Token.plain_scan _) n hn).names

/-- Reading ends for every source. The scanner and the parser without bounds come to the end of the
text with the program that is read; from whatever state a statement is read, it takes a token unless
the text is at its end. Where an expression or a type is called for and nothing is reported, there is
one; so if there are no errors then nothing is missing in the program, except what was left out. -/
theorem ofSource_ends_and_silence (source : Bytes) :
    Token.scanAll (Cursor.start (Utf8.decode source)) = some (Token.scanBytes source) ∧
      (∃ s, Descent.program ⟨(Token.scanBytes source).tokens, (Token.scanBytes source).eof, []⟩ =
          some ((ofSource source).1, s) ∧
        (Parser.head s).kind = .eof ∧ s.rest = [] ∧
        (ofSource source).2 = (Token.scanBytes source).errors.map LexError.message ++
          s.errors.map ParseError.message) ∧
      (∀ s, (Parser.head s).kind ≠ .eof → ∃ o s', Descent.statement s = some (o, s') ∧
        s'.rest <:+ s.rest ∧ s'.rest.length < s.rest.length) ∧
      (∀ s, ∃ e s', Descent.expr s = some (e, s') ∧ (s'.errors = [] → e.isComplete = true)) ∧
      (∀ s, ∃ t s', Descent.type s = some (t, s') ∧ (s'.errors = [] → t.isSome = true)) ∧
      ((ofSource source).2 = [] → ∀ n ∈ (ofSource source).1, n.isComplete = true) := by
  let start : ParseState := ⟨(Token.scanBytes source).tokens, (Token.scanBytes source).eof, []⟩
  have hprogram := Parser.run_program start.whole start
  refine ⟨Token.scanAll_scanBytes source, ⟨(Parser.program start).2, hprogram.same, ?_, ?_, rfl⟩,
    fun s hs => ?_, fun s => ?_, fun s => ?_, fun hsilent => ?_⟩
  · exact Parser.head_program start
  · exact Parser.rest_program (Token.scan_ne_eof _)
  · have hpos := Parser.rest_pos rfl hs
    have hstatement := Parser.runs_statementWithin (a := s.whole) _ s hpos (Nat.le_refl _)
    have hlength := hstatement.length
    exact ⟨_, _, hstatement.same, hstatement.suffix, by omega⟩
  · have hexpr := Parser.run_expr (a := s.whole) s
    exact ⟨_, _, hexpr.same, fun hs => (hexpr.result s.good_whole fun _ => hs).complete trivial⟩
  · have htype := Parser.runs_typeWithin (a := s.whole) _ s (Nat.lt_succ_self _)
    exact ⟨_, _, htype.same, fun hs => htype.result s.good_whole (fun _ => hs) trivial⟩
  · have herrors : (Parser.program start).2.errors = [] :=
      List.map_eq_nil_iff.1 (List.append_eq_nil_iff.1 hsilent).2
    exact fun n hn => (hprogram.result start.good_whole (fun _ => herrors) n hn).complete trivial

/-- Two statements with a bare `return`, a path, and types that are left out. -/
theorem ofSource_silent_sample :
    (ofSource (Bytes.ofString "func f(a) \x7b return; \x7d let x = m.n.f(1, g[0]);")).1.length = 2 ∧
      (ofSource (Bytes.ofString "func f(a) \x7b return; \x7d let x = m.n.f(1, g[0]);")).2 = [] ∧
      ∀ n ∈ (ofSource (Bytes.ofString "func f(a) \x7b return; \x7d let x = m.n.f(1, g[0]);")).1,
        n.isComplete = true := by
  have hread : (ofSource (Bytes.ofString
      "func f(a) \x7b return; \x7d let x = m.n.f(1, g[0]);")).1.length = 2 ∧
      (ofSource (Bytes.ofString
        "func f(a) \x7b return; \x7d let x = m.n.f(1, g[0]);")).2 = [] := by
    decide +kernel
  exact ⟨hread.1, hread.2, (ofSource_ends_and_silence _).2.2.2.2.2 hread.2⟩

end Program

end UnitScript
