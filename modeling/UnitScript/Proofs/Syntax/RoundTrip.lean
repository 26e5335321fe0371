import UnitScript.Proofs.Bytes
import UnitScript.Proofs.Syntax.Expressions

/-!
# Parsing undoes writing

The parser, run on the written form of a program of the surface grammar, reports nothing and gives the
program back, but for places.
-/

namespace UnitScript

open Token (fixed)
open Node (Alike AllAlike)

namespace Bytes

theorem splitOn_ne_nil (sep : UInt8) (s : Bytes) : splitOn sep s ≠ [] := by
  intro h
  have hpieces := flatMap_splitOn sep s
  rw [h] at hpieces
  exact List.append_ne_nil_of_right_ne_nil s (List.cons_ne_nil sep []) hpieces.symm

theorem join_append_sep {sep : UInt8} {parts : List Bytes} (h : parts ≠ []) :
    join [sep] parts ++ [sep] = parts.flatMap (· ++ [sep]) := by
  induction parts using join.induct with
  | case1 => exact absurd rfl h
  | case2 part => simp [join]
  | case3 first second rest ih =>
    rw [join, List.append_assoc, ih (List.cons_ne_nil _ _), List.flatMap_cons (x := first)]

theorem join_splitOn (sep : UInt8) (s : Bytes) : join [sep] (splitOn sep s) = s := by
  have hpieces := flatMap_splitOn sep s
  rw [← join_append_sep (splitOn_ne_nil sep s)] at hpieces
  exact List.append_cancel_right hpieces

end Bytes

namespace Node

theorem isMissing_unplaced (n : Node) : n.unplaced.isMissing = n.isMissing := by
  cases n <;> rfl

theorem IsExpr.isMissing {e : Node} (h : e.IsExpr) : e.isMissing = false := by
  cases h <;> rfl

theorem blockTokens_cons (n : Node) (rest : List Node) :
    blockTokens (n :: rest) = n.statementTokens ++ blockTokens rest := rfl

theorem statementTokens_of_isExpr {e : Node} (h : e.IsExpr) :
    e.statementTokens = e.tokens ++ [fixed .semicolon] := by
  cases h with
  | @binary pos op left right hop hleft hright =>
    cases op with
    | assign => cases hop
    | declare => cases hop
    | _ => rfl
  | _ => rfl

end Node

namespace Parser

variable {n : Node} {body : List Node} {depth : Nat} {value : Node}

/-- The statement is read where it stands. An `else` behind it would go on with a conditional. -/
def ParsesStatement (n : Node) : Prop :=
  ∀ depth, n.statementTokens.length ≤ depth →
    Reads (statementWithin depth) n.statementTokens (· ≠ .elseWord)
      fun o => ∃ read, o = some read ∧ n.Alike read

/-! ## Simple statements -/

theorem not_isMissing_of_alike {e read : Node} (he : e.IsExpr) (h : e.Alike read) :
    read.isMissing = false := by
  rw [← Node.isMissing_unplaced, h, Node.isMissing_unplaced]
  exact he.isMissing

/-- A statement that starts as an expression does is not told by its first word. -/
theorem reads_plain {ws : List Token} {F : TokenKind → Prop} {P : Option Node → Prop}
    (hstarts : Node.Starts ws) (hdepth : ws.length ≤ depth) (h : Reads plainStatement ws F P) :
    Reads (statementWithin depth) ws F P := by
  obtain ⟨w, rest, rfl, hw⟩ := hstarts
  obtain ⟨depth, rfl⟩ := Nat.exists_eq_succ_of_ne_zero (Nat.ne_zero_of_lt hdepth)
  refine reads_current fun t ht => ?_
  rw [← kind_of_unplaced ht] at hw
  simp only [Node.startKinds, List.mem_cons, List.not_mem_nil, or_false] at hw
  rcases hw with hw | hw | hw | hw | hw | hw
  all_goals
    rw [hw]
    exact h

theorem parsesStatement_expr {e : Node} (he : e.IsExpr) : ParsesStatement e := by
  intro depth hdepth
  rw [Node.statementTokens_of_isExpr he] at hdepth ⊢
  refine reads_plain (he.starts.append _) hdepth ?_
  refine (reads_expr he).bind (follow_fixed (by decide)) fun read hread => ?_
  rw [not_isMissing_of_alike he hread, if_neg Bool.false_ne_true]
  refine reads_fixed fun t ht => ?_
  rw [if_neg (by rw [ht]; decide)]
  exact reads_expect rfl (reads_pure ⟨read, rfl, hread⟩)

theorem parsesStatement_assign (pos : Position) {target : Node} (htarget : target.IsExpr)
    (hvalue : value.IsExpr) : ParsesStatement (.binary pos .assign target value none) := by
  intro depth hdepth
  refine reads_plain (htarget.starts.append _) hdepth ?_
  refine (reads_expr htarget).bind (follow_fixed (by decide)) fun left hleft => ?_
  rw [not_isMissing_of_alike htarget hleft, if_neg Bool.false_ne_true]
  refine reads_fixed fun t ht => ?_
  rw [if_pos ht]
  refine reads_advance ((reads_expr hvalue).bind (follow_fixed (by decide)) fun right hright => ?_)
  have halike := congrArg₂ (Node.binary .unknown .assign · · none) hleft hright
  exact reads_expect rfl (reads_pure ⟨_, rfl, halike⟩)

theorem parsesStatement_declare (pos place : Position) (name : Name) {type : Option TypeExpr}
    (htype : ∀ t ∈ type, t.IsWritten) (hvalue : value.IsExpr) :
    ParsesStatement (.binary pos .declare (.ident place name) value type) := by
  intro depth hdepth
  obtain ⟨depth, rfl⟩ := Nat.exists_eq_succ_of_ne_zero (Nat.ne_zero_of_lt hdepth)
  refine reads_fixed fun start hstart => ?_
  rw [hstart]
  refine reads_fixed fun start _ => reads_advance (reads_name fun t ht hname => ?_)
  rw [if_neg (not_not_intro ht)]
  refine reads_advance ((reads_writtenType htype).bind (follow_fixed (by decide)) fun written hwritten => ?_)
  refine reads_expect rfl ((reads_expr hvalue).bind (follow_fixed (by decide)) ?_)
  intro read hread
  have hparts := congrArg₂ (fun x => Node.binary .unknown .declare (.ident .unknown x)) hname hread
  have halike := congr hparts hwritten
  exact reads_expect rfl (reads_pure ⟨_, rfl, halike⟩)

theorem parsesStatement_ret (pos : Position) (hvalue : value.IsExpr) :
    ParsesStatement (.ret pos value) := by
  intro depth hdepth
  obtain ⟨depth, rfl⟩ := Nat.exists_eq_succ_of_ne_zero (Nat.ne_zero_of_lt hdepth)
  refine reads_fixed fun start hstart => ?_
  rw [hstart]
  refine reads_fixed fun start _ => reads_advance ?_
  obtain ⟨w, ws, hws, hw⟩ := hvalue.starts.append [fixed .semicolon]
  rw [hws]
  refine reads_current fun t ht => ?_
  have hne : t.kind ≠ .semicolon := by
    rw [kind_of_unplaced ht]
    intro hsemicolon
    rw [hsemicolon] at hw
    exact absurd hw (by decide)
  rw [if_neg hne, ← hws]
  refine (reads_expr hvalue).bind (follow_fixed (by decide)) fun read hread => ?_
  exact reads_expect rfl (reads_pure ⟨_, rfl, congrArg (Node.ret .unknown) hread⟩)

theorem parsesStatement_bareRet (pos : Position) : ParsesStatement (.ret pos .missing) := by
  intro depth hdepth
  obtain ⟨depth, rfl⟩ := Nat.exists_eq_succ_of_ne_zero (Nat.ne_zero_of_lt hdepth)
  refine reads_fixed fun start hstart => ?_
  rw [hstart]
  refine reads_fixed fun start _ => reads_advance (reads_fixed fun t ht => ?_)
  rw [if_pos ht]
  have hend : Reads (expect .semicolon >>= fun _ => pure (some (Node.ret start.pos .missing)))
      [fixed .semicolon] (· ≠ .elseWord)
      fun o => ∃ read, o = some read ∧ (Node.ret pos .missing).Alike read :=
    reads_expect rfl (reads_pure ⟨_, rfl, rfl⟩)
  exact hend

theorem parsesStatement_pass (pos : Position) : ParsesStatement (.pass pos) := by
  intro depth hdepth
  obtain ⟨depth, rfl⟩ := Nat.exists_eq_succ_of_ne_zero (Nat.ne_zero_of_lt hdepth)
  refine reads_fixed fun start hstart => ?_
  rw [hstart]
  exact reads_advance (reads_expect rfl (reads_pure ⟨_, rfl, rfl⟩))

theorem reads_modulePathWithin {parts : List Name} {n : Nat} (hn : parts.length ≤ n) :
    Reads (modulePathWithin n) (parts.flatMap fun part => [fixed .dot, .name part]) (· ≠ .dot)
      (· = parts) := by
  induction parts generalizing n with
  | nil =>
    cases n with
    | zero => exact reads_pure rfl
    | succ n =>
      refine reads_current_nil fun t ht => ?_
      rw [if_pos ht]
      exact reads_pure rfl
  | cons part parts ih =>
    obtain ⟨n, rfl⟩ := Nat.exists_eq_succ_of_ne_zero (Nat.ne_zero_of_lt hn)
    refine reads_fixed fun t ht => ?_
    rw [if_neg (not_not_intro ht)]
    refine reads_advance (reads_name fun next hnext hpart => ?_)
    rw [if_neg (not_not_intro hnext)]
    refine reads_advance ((ih (Nat.le_of_succ_le_succ hn)).bind_nil (fun _ => id) ?_)
    rintro _ rfl
    exact reads_pure (by rw [hpart])

theorem parsesStatement_importUnit (pos : Position) (name : Name) :
    ParsesStatement (.importUnit pos name) := by
  intro depth hdepth
  obtain ⟨depth, rfl⟩ := Nat.exists_eq_succ_of_ne_zero (Nat.ne_zero_of_lt hdepth)
  have hjoin := Bytes.join_splitOn 46 name
  show Reads _ (fixed .importWord :: (Node.pathTokens (Bytes.splitOn 46 name) ++ _)) _ _
  obtain ⟨first, parts, hparts⟩ := List.exists_cons_of_ne_nil (Bytes.splitOn_ne_nil 46 name)
  rw [hparts] at hjoin ⊢
  refine reads_fixed fun start hstart => ?_
  rw [hstart]
  refine reads_fixed fun start _ => reads_advance (reads_name fun t ht hname => ?_)
  rw [if_neg (not_not_intro ht)]
  refine reads_advance (reads_bound fun n hn => ?_)
  have hlength : parts.length ≤ n := by
    have htokens : (parts.flatMap fun part => [fixed .dot, .name part]).length = parts.length * 2 := by
      simp [List.length_flatMap]
    have hall : (parts.flatMap fun part => [fixed .dot, .name part]).length < n :=
      Nat.lt_of_le_of_lt (List.sublist_append_left _ _).length_le hn
    omega
  refine (reads_modulePathWithin hlength).bind (follow_fixed (by decide)) ?_
  rintro _ rfl
  rw [← hname] at hjoin
  exact reads_expect rfl (reads_pure ⟨_, rfl, congrArg (Node.importUnit .unknown) hjoin⟩)

/-! ## Blocks -/

/-- The kinds of the tokens that a statement can start with. -/
def statementKinds : List TokenKind :=
  [.letWord, .funcWord, .ifWord, .whileWord, .returnWord, .passWord, .importWord] ++ Node.startKinds

theorem starts_statement (h : n.IsStatement) :
    ∃ w rest, n.statementTokens = w :: rest ∧ w.kind ∈ statementKinds := by
  have hexpr {ws : List Token} (h : Node.Starts ws) :
      ∃ w rest, ws = w :: rest ∧ w.kind ∈ statementKinds := by
    obtain ⟨w, rest, hws, hw⟩ := h
    exact ⟨w, rest, hws, List.mem_append_right _ hw⟩
  cases h with
  | expr h =>
    rw [Node.statementTokens_of_isExpr h]
    exact hexpr (h.starts.append _)
  | assign pos htarget h => exact hexpr (htarget.starts.append _)
  | declare | func | cond | loop | ret | bareRet | pass | importUnit =>
    exact ⟨_, _, rfl, by decide⟩

theorem follow_blockTokens (hbody : ∀ n ∈ body, n.IsStatement) {close : TokenKind}
    (hclose : close ≠ .elseWord) :
    Follow (· ≠ .elseWord) (fun k => k = close ∨ k = .eof) (Node.blockTokens body) := by
  cases body with
  | nil =>
    rintro k (rfl | rfl)
    · exact hclose
    · decide
  | cons n rest =>
    obtain ⟨w, ws, htokens, hw⟩ := starts_statement (hbody n List.mem_cons_self)
    rw [Node.blockTokens_cons, htokens]
    show w.kind ≠ .elseWord
    intro helse
    rw [helse] at hw
    exact absurd hw (by decide)

theorem reads_statementsWithin (hbody : ∀ n ∈ body, n.IsStatement)
    (hparses : ∀ n ∈ body, ParsesStatement n) {close : TokenKind} (hclose : close ∉ statementKinds)
    (helse : close ≠ .elseWord) (hdepth : (Node.blockTokens body).length ≤ depth) {count : Nat}
    (hcount : (Node.blockTokens body).length ≤ count) :
    Reads (statementsWithin (statementWithin depth) close count) (Node.blockTokens body)
      (fun k => k = close ∨ k = .eof) (AllAlike body) := by
  induction body generalizing count with
  | nil =>
    cases count with
    | zero => exact reads_pure rfl
    | succ count =>
      refine reads_current_nil fun t ht => ?_
      rw [if_pos ht]
      exact reads_pure rfl
  | cons n rest ih =>
    rw [List.forall_mem_cons] at hbody hparses
    obtain ⟨w, ws, htokens, hw⟩ := starts_statement hbody.1
    have hread := hparses.1 depth
    rw [Node.blockTokens_cons, htokens, List.length_append, List.length_cons] at hdepth hcount
    rw [htokens, List.length_cons] at hread
    obtain ⟨count, rfl⟩ := Nat.exists_eq_succ_of_ne_zero (show count ≠ 0 by omega)
    rw [Node.blockTokens_cons, htokens]
    refine reads_current fun t ht => ?_
    have hopen : ¬(t.kind = close ∨ t.kind = .eof) := by
      rw [kind_of_unplaced ht]
      rintro (rfl | heof)
      · exact hclose hw
      · rw [heof] at hw
        exact absurd hw (by decide)
    rw [if_neg hopen]
    refine (hread (by omega)).bind (follow_blockTokens hbody.2 helse) ?_
    rintro _ ⟨read, rfl, hread⟩
    refine (ih hbody.2 hparses.2 (by omega) (by omega)).bind_nil (fun _ => id) fun reads hreads => ?_
    exact reads_pure (.cons hread hreads)

theorem reads_block (hbody : ∀ n ∈ body, n.IsStatement) (hparses : ∀ n ∈ body, ParsesStatement n)
    (hdepth : (Node.blockTokens body).length ≤ depth) {F : TokenKind → Prop} :
    Reads (block (statementWithin depth)) (Node.inBraces (Node.blockTokens body)) F
      (AllAlike body) := by
  refine reads_expect rfl (reads_bound fun count hcount => ?_)
  have hlength : (Node.blockTokens body).length ≤ count :=
    Nat.le_of_lt (Nat.lt_of_le_of_lt (List.sublist_append_left _ _).length_le hcount)
  refine (reads_statementsWithin hbody hparses (by decide) (by decide) hdepth hlength).bind
    (follow_fixed (.inl rfl)) fun read hread => reads_fixed fun t ht => ?_
  rw [if_pos ht]
  exact reads_advance (reads_pure hread)

/-! ## Statements with blocks -/

theorem reads_paramsWithin {params : List Param} (hparams : ∀ p ∈ params, ∀ t ∈ p.type, t.IsWritten)
    (hne : params ≠ []) (count : Nat) (hcount : params.length ≤ count) :
    Reads (paramsWithin count) (Token.listed (params.map Param.tokens))
      (fun k => k ≠ .lt ∧ k ≠ .colon ∧ k ≠ .comma)
      fun read => read.map Param.unplaced = params.map Param.unplaced := by
  induction params generalizing count with
  | nil => exact absurd rfl hne
  | cons p rest ih =>
    obtain ⟨count, rfl⟩ := Nat.exists_eq_succ_of_ne_zero (Nat.ne_zero_of_lt hcount)
    rw [List.forall_mem_cons] at hparams
    have hparam {read : Token} {type : Option TypeExpr} (hname : read.lexeme = p.name)
        (htype : type.map TypeExpr.unplaced = p.type.map TypeExpr.unplaced) :
        Param.unplaced ⟨read.pos, read.lexeme, type⟩ = p.unplaced := by
      rw [Param.unplaced, Param.unplaced, hname, htype]
    cases rest with
    | nil =>
      refine reads_name fun t ht hname => ?_
      rw [if_neg (not_not_intro ht)]
      refine reads_advance ((reads_writtenType hparams.1).bind_nil (fun k hk => ⟨hk.1, hk.2.1⟩) ?_)
      refine fun type htype => reads_current_nil fun next hnext => ?_
      rw [if_neg hnext.2.2]
      exact reads_pure (by rw [List.map_cons, hparam hname htype]; rfl)
    | cons next rest =>
      refine reads_name fun t ht hname => ?_
      rw [if_neg (not_not_intro ht)]
      refine reads_advance ((reads_writtenType hparams.1).bind (follow_fixed (by decide)) ?_)
      refine fun type htype => reads_fixed fun comma hcomma => ?_
      rw [if_pos hcomma]
      refine reads_advance ((ih hparams.2 (List.cons_ne_nil _ _) count
        (Nat.le_of_succ_le_succ hcount)).bind_nil (fun _ => id) fun read hread => ?_)
      exact reads_pure (by rw [List.map_cons, hparam hname htype, hread]; rfl)

theorem length_le_params (params : List Param) :
    params.length ≤ (Token.listed (params.map Param.tokens)).length := by
  induction params with
  | nil => exact Nat.zero_le _
  | cons p rest ih =>
    cases rest with
    | nil => simp [Token.listed, Param.tokens]
    | cons next rest =>
      simp only [List.map_cons, Token.listed, List.length_append, List.length_cons, Param.tokens]
        at ih ⊢
      omega

theorem parsesStatement_func (pos : Position) (name : Name) {params : List Param}
    {result : Option TypeExpr} (hparams : ∀ p ∈ params, ∀ t ∈ p.type, t.IsWritten)
    (hresult : ∀ t ∈ result, t.IsWritten) (hbody : ∀ n ∈ body, n.IsStatement)
    (hparses : ∀ n ∈ body, ParsesStatement n) :
    ParsesStatement (.func pos name params result body) := by
  intro depth hdepth
  obtain ⟨depth, rfl⟩ := Nat.exists_eq_succ_of_ne_zero (Nat.ne_zero_of_lt hdepth)
  simp only [Node.statementTokens, Node.inBraces, List.length_cons, List.length_append] at hdepth
  have hrest : ∀ (t : Token) (read : List Param), t.lexeme = name →
      read.map Param.unplaced = params.map Param.unplaced → Reads (do
        expect .rParen
        let result ← annotation
        let body ← block (statementWithin depth)
        return some (.func t.pos t.lexeme read result body))
      (fixed .rParen :: (TypeExpr.annotationTokens result ++ Node.inBraces (Node.blockTokens body)))
      (· ≠ .elseWord) fun o => ∃ read, o = some read ∧
        (Node.func pos name params result body).Alike read := by
    intro t read hname hread
    refine reads_expect rfl ((reads_writtenType hresult).bind (follow_fixed (by decide)) ?_)
    intro written hwritten
    refine (reads_block hbody hparses (by omega)).bind_nil (fun _ => id) fun inner hinner => ?_
    have hhead := congrArg₂ (Node.func .unknown) hname hread
    have halike := congr (congr hhead hwritten) hinner
    exact reads_pure ⟨_, rfl, halike⟩
  refine reads_fixed fun start hstart => ?_
  rw [hstart]
  refine reads_advance (reads_name fun t ht hname => ?_)
  rw [if_neg (not_not_intro ht)]
  refine reads_advance (reads_expect rfl ?_)
  cases params with
  | nil =>
    refine reads_fixed fun close hclose => ?_
    rw [if_pos hclose]
    exact hrest t [] hname rfl
  | cons p rest =>
    obtain ⟨ws, hws⟩ : ∃ ws, Token.listed ((p :: rest).map Param.tokens) = .name p.name :: ws := by
      cases rest with
      | nil => exact ⟨_, rfl⟩
      | cons next rest => exact ⟨_, rfl⟩
    have hread := reads_paramsWithin hparams (List.cons_ne_nil p rest)
    have hlength := length_le_params (p :: rest)
    rw [hws] at hread hlength ⊢
    refine reads_name fun first hfirst _ => ?_
    rw [if_neg (by rw [hfirst]; decide)]
    refine reads_bound fun count hcount => ?_
    have hall : (Token.name p.name :: ws).length < count :=
      Nat.lt_of_le_of_lt (List.sublist_append_left _ _).length_le hcount
    refine (hread count (by omega)).bind (follow_fixed (by decide)) fun read hread => ?_
    exact hrest t read hname hread

theorem parsesStatement_loop (pos : Position) {test : Node} (htest : test.IsExpr)
    (hbody : ∀ n ∈ body, n.IsStatement) (hparses : ∀ n ∈ body, ParsesStatement n) :
    ParsesStatement (.loop pos test body) := by
  intro depth hdepth
  obtain ⟨depth, rfl⟩ := Nat.exists_eq_succ_of_ne_zero (Nat.ne_zero_of_lt hdepth)
  have hlength : (test.tokens ++ Node.inBraces (Node.blockTokens body)).length ≤ depth :=
    Nat.le_of_succ_le_succ hdepth
  simp only [Node.inBraces, List.length_cons, List.length_append] at hlength
  refine reads_fixed fun start hstart => ?_
  rw [hstart]
  refine reads_fixed fun start _ => reads_advance ?_
  refine (reads_expr htest).bind (follow_fixed (by decide)) fun read hread => ?_
  refine (reads_block hbody hparses (by omega)).bind_nil (fun _ => id) fun inner hinner => ?_
  exact reads_pure ⟨_, rfl, congrArg₂ (Node.loop .unknown) hread hinner⟩

/-- The other branch of a conditional, from behind the first one on. -/
theorem reads_otherwise {no : List Node} (hno : ∀ n ∈ no, n.IsStatement)
    (hparses : ∀ n ∈ no, ParsesStatement n) (hdepth : (Node.blockTokens no).length ≤ depth)
    {β : Type} (finish : List Node → β) {Q : β → Prop}
    (hfinish : ∀ read, AllAlike no read → Q (finish read)) :
    Reads (do
      if (← current).kind = .elseWord then
        advance
        let read ← if (← current).kind = .ifWord then Option.toList <$> statementWithin depth
          else block (statementWithin depth)
        return finish read
      else return finish []) (Node.otherwise no (Node.blockTokens no)) (· ≠ .elseWord) Q := by
  have hblock : Reads (do
      if (← current).kind = .elseWord then
        advance
        let read ← if (← current).kind = .ifWord then Option.toList <$> statementWithin depth
          else block (statementWithin depth)
        return finish read
      else return finish []) (fixed .elseWord :: Node.inBraces (Node.blockTokens no))
      (· ≠ .elseWord) Q := by
    refine reads_fixed fun t ht => ?_
    rw [if_pos ht]
    refine reads_advance (reads_fixed fun next hnext => ?_)
    rw [if_neg (by rw [hnext]; decide)]
    exact (reads_block hno hparses hdepth).bind_nil (fun _ => id) fun read hread =>
      reads_pure (hfinish read hread)
  unfold Node.otherwise
  split
  · refine reads_current_nil fun t ht => ?_
    rw [if_neg ht]
    exact reads_pure (hfinish [] rfl)
  · next pos test yes rest =>
    refine reads_fixed fun t ht => ?_
    rw [if_pos ht]
    have hnested := hparses _ List.mem_cons_self depth
    rw [Node.blockTokens, Node.blockTokens, List.append_nil] at hdepth ⊢
    refine reads_advance (reads_fixed fun next hnext => ?_)
    rw [if_pos hnext]
    refine ((hnested hdepth).map Option.toList).bind_nil (fun _ => id) ?_
    rintro _ ⟨_, ⟨read, rfl, hread⟩, rfl⟩
    exact reads_pure (hfinish [read] (.cons hread rfl))
  · exact hblock

theorem parsesStatement_cond (pos : Position) {test : Node} {yes no : List Node}
    (htest : test.IsExpr) (hyes : ∀ n ∈ yes, n.IsStatement) (hno : ∀ n ∈ no, n.IsStatement)
    (hparsesYes : ∀ n ∈ yes, ParsesStatement n) (hparsesNo : ∀ n ∈ no, ParsesStatement n) :
    ParsesStatement (.cond pos test yes no) := by
  intro depth hdepth
  obtain ⟨depth, rfl⟩ := Nat.exists_eq_succ_of_ne_zero (Nat.ne_zero_of_lt hdepth)
  have hlength : (Node.blockTokens no).length ≤ (Node.otherwise no (Node.blockTokens no)).length := by
    unfold Node.otherwise
    split
    · exact Nat.le_refl _
    · exact Nat.le_succ _
    · simp only [Node.inBraces, List.length_cons, List.length_append]
      omega
  have hall : (test.tokens ++ (Node.inBraces (Node.blockTokens yes) ++
      Node.otherwise no (Node.blockTokens no))).length ≤ depth := Nat.le_of_succ_le_succ hdepth
  simp only [Node.inBraces, List.length_cons, List.length_append] at hall
  refine reads_fixed fun start hstart => ?_
  rw [hstart]
  refine reads_fixed fun start _ => reads_advance ?_
  refine (reads_expr htest).bind (follow_fixed (by decide)) fun read hread => ?_
  refine (reads_block (F := fun _ => True) hyes hparsesYes (by omega)).bind ?_ fun first hfirst => ?_
  · cases Node.otherwise no (Node.blockTokens no) with
    | nil => exact fun _ _ => trivial
    | cons w ws => trivial
  · have hdepthNo : (Node.blockTokens no).length ≤ depth := by omega
    refine reads_otherwise hno hparsesNo hdepthNo
      (fun other => some (Node.cond start.pos read first other)) ?_
    intro other hother
    have halike := congr (congrArg₂ (Node.cond .unknown) hread hfirst) hother
    exact ⟨_, rfl, halike⟩

theorem parsesStatement_of_isStatement (h : n.IsStatement) : ParsesStatement n := by
  induction h with
  | expr h => exact parsesStatement_expr h
  | declare pos place name htype h => exact parsesStatement_declare pos place name htype h
  | assign pos htarget h => exact parsesStatement_assign pos htarget h
  | func pos name hparams hresult hbody ih =>
    exact parsesStatement_func pos name hparams hresult hbody ih
  | cond pos htest hyes hno ihyes ihno => exact parsesStatement_cond pos htest hyes hno ihyes ihno
  | loop pos htest hbody ih => exact parsesStatement_loop pos htest hbody ih
  | ret pos h => exact parsesStatement_ret pos h
  | bareRet pos => exact parsesStatement_bareRet pos
  | pass pos => exact parsesStatement_pass pos
  | importUnit pos name => exact parsesStatement_importUnit pos name

end Parser

namespace Program

/-- Tokens that are written as those of a program are read as that program, and nothing is reported. -/
theorem ofTokens_tokens {body : List Node} (hbody : ∀ n ∈ body, n.IsStatement) {ts : List Token}
    (hts : ts.map Token.unplaced = tokens body) (eof : Position) :
    (ofTokens ts eof).errors = [] ∧
      (ofTokens ts eof).body.map Node.unplaced = body.map Node.unplaced := by
  have hread : Parser.Reads Parser.program (tokens body) (· = .eof) (AllAlike body) := by
    refine Parser.reads_bound fun n hn => ?_
    exact (Parser.reads_statementsWithin hbody
      (fun n hn => Parser.parsesStatement_of_isStatement (hbody n hn)) (by decide) (by decide)
      (Nat.le_of_lt hn) (Nat.le_of_lt hn)).mono (fun k hk => .inl hk) fun _ => id
  obtain ⟨read, hrun, halike⟩ := hread ts [] eof [] hts rfl
  rw [List.append_nil] at hrun
  have hparsed : ofTokens ts eof = ⟨read, []⟩ := by
    have hunfold : ofTokens ts eof =
        ⟨(Parser.program ⟨ts, eof, []⟩).1, (Parser.program ⟨ts, eof, []⟩).2.errors⟩ := rfl
    rw [hunfold, hrun]
  rw [hparsed]
  refine ⟨rfl, ?_⟩
  rw [← Node.unplacedAll_eq_map, ← Node.unplacedAll_eq_map]
  exact halike

/-! ## A written program -/

namespace Sample

def variableNamed (x : String) : Node := .ident .unknown x

def operation (op : Operator) (left right : Node) : Node := .binary .unknown op left right none

/-- `x - (1 - -9223372036854775808) * 2 < y == 0` -/
def test : Node :=
  operation .eq
    (operation .lt
      (operation .sub (variableNamed "x")
        (operation .mul
          (operation .sub (.number .unknown 1) (.number .unknown (-9223372036854775808)))
          (.number .unknown 2)))
      (variableNamed "y"))
    (.number .unknown 0)

/-- `a.b.g(x, [1, "s"])` -/
def path : Node :=
  .property .unknown (variableNamed "a") (.property .unknown (variableNamed "b")
    (.call .unknown (variableNamed "g")
      [variableNamed "x", .array .unknown [.number .unknown 1, .string .unknown "s"]]))

def body : List Node :=
  [.importUnit .unknown "std.math",
    .func .unknown "f"
      [⟨.unknown, "x", none⟩,
        ⟨.unknown, "y", some (.callbackOf .unknown (.callbackOf .unknown (.named .unknown "null")))⟩]
      (some (.named .unknown "number"))
      [.cond .unknown test
        [.binary .unknown .declare (variableNamed "z") path (some (.callback .unknown)),
          .ret .unknown .missing]
        [.cond .unknown (variableNamed "x") [.pass .unknown]
          [operation .assign (variableNamed "x")
            (.property .unknown (variableNamed "a") (.index .unknown "c" (variableNamed "x")))]],
        .loop .unknown (operation .gt (variableNamed "x") (operation .gt (variableNamed "y") path)) []]]

def source : Bytes := Bytes.ofString
  "import std.math;
  func f(x, y: func<func<null>>): number \x7b
    if x - (1 - -9223372036854775808) * 2 < y == 0 \x7b
      let z: func = a.b.g(x, [1, \"s\"]); return;
    \x7d else if x \x7b pass; \x7d else \x7b x = a.c[x]; \x7d
    while x > (y > a.b.g(x, [1, \"s\"])) \x7b \x7d
  \x7d"

theorem isExpr_variableNamed (x : String) : (variableNamed x).IsExpr := .ident _ _

theorem isExpr_test : test.IsExpr :=
  .binary _ rfl
    (.binary _ rfl
      (.binary _ rfl (isExpr_variableNamed _)
        (.binary _ rfl (.binary _ rfl (.number _ _) (.number _ _)) (.number _ _)))
      (isExpr_variableNamed _))
    (.number _ _)

theorem isExpr_path : path.IsExpr := by
  have hitems : ∀ e ∈ [Node.number .unknown 1, .string .unknown "s"], e.IsExpr := by
    simp [Node.IsExpr.number, Node.IsExpr.string]
  refine .property _ _ _ (.property _ _ _ (.call _ _ _ ?_) rfl) rfl
  simp [isExpr_variableNamed, Node.IsExpr.array _ hitems]

theorem isStatement_body : ∀ n ∈ body, n.IsStatement := by
  have hindex : (Node.property .unknown (variableNamed "a")
      (.index .unknown "c" (variableNamed "x"))).IsExpr :=
    .property _ _ _ (.index _ _ (isExpr_variableNamed _)) rfl
  have hdeclare : (Node.binary .unknown .declare (variableNamed "z") path
      (some (.callback .unknown))).IsStatement :=
    .declare _ _ _ (by decide) isExpr_path
  have hassign : (operation .assign (variableNamed "x") (.property .unknown (variableNamed "a")
      (.index .unknown "c" (variableNamed "x")))).IsStatement :=
    .assign _ (isExpr_variableNamed _) hindex
  have hother : (Node.cond .unknown (variableNamed "x") [.pass .unknown]
      [operation .assign (variableNamed "x") (.property .unknown (variableNamed "a")
        (.index .unknown "c" (variableNamed "x")))]).IsStatement :=
    .cond _ (isExpr_variableNamed _) (by simp [Node.IsStatement.pass]) (by simp [hassign])
  have hloop : (operation .gt (variableNamed "x") (operation .gt (variableNamed "y") path)).IsExpr :=
    .binary _ rfl (isExpr_variableNamed _) (.binary _ rfl (isExpr_variableNamed _) isExpr_path)
  simp only [body, List.forall_mem_cons, List.not_mem_nil, false_implies, implies_true, and_true]
  refine ⟨.importUnit _ _, .func _ _ (by decide) (by decide) ?_⟩
  simp only [List.forall_mem_cons, List.not_mem_nil, false_implies, implies_true, and_true]
  refine ⟨.cond _ isExpr_test ?_ (by simp [hother]), .loop _ hloop (List.forall_mem_nil _)⟩
  simp [hdeclare, Node.IsStatement.bareRet]

/-- The tokens of the text are those of the program, so that it is read from them. -/
theorem ofTokens_source : (∀ n ∈ body, n.IsStatement) ∧
    (Token.scanBytes source).tokens.map Token.unplaced = tokens body ∧
      (ofTokens (Token.scanBytes source).tokens (Token.scanBytes source).eof).errors = [] ∧
      (ofTokens (Token.scanBytes source).tokens (Token.scanBytes source).eof).body.map Node.unplaced =
        body.map Node.unplaced := by
  have htokens : (Token.scanBytes source).tokens.map Token.unplaced = tokens body := by
    decide +kernel
  exact ⟨isStatement_body, htokens, ofTokens_tokens isStatement_body htokens _⟩

end Sample

end Program

end UnitScript
