import UnitScript.Proofs.Syntax.Reading

/-!
# Reading expressions

An expression is read at four levels: operands, products, sums and comparisons. The induction over
expressions proves at once that each level reads what may stand there, which is the expression itself
or, where it binds too loosely, the expression in parentheses.
-/

namespace UnitScript

open Token (fixed)
open Node (Alike AllAlike inParens)

namespace Node

variable {e : Node} {limit : Nat} {inner : List Token}

theorem looseness_le (e : Node) : e.looseness ≤ 3 := by
  unfold looseness Operator.looseness
  split
  · split <;> decide
  · decide

theorem inParens_of_le (h : e.looseness ≤ limit) : inParens limit e inner = inner :=
  if_neg (Nat.not_lt.2 h)

theorem inParens_of_lt (h : limit < e.looseness) :
    inParens limit e inner = fixed .lParen :: (inner ++ [fixed .rParen]) :=
  if_pos h

def startKinds : List TokenKind := [.int, .string, .lBracket, .lParen, .ident, .minus]

def Starts (ws : List Token) : Prop := ∃ w rest, ws = w :: rest ∧ w.kind ∈ startKinds

theorem Starts.append {ws : List Token} (h : Starts ws) (us : List Token) : Starts (ws ++ us) := by
  obtain ⟨w, rest, rfl, hw⟩ := h
  exact ⟨w, rest ++ us, rfl, hw⟩

theorem Starts.inParens {ws : List Token} (h : Starts ws) (limit : Nat) (e : Node) :
    Starts (inParens limit e ws) := by
  unfold Node.inParens
  split
  · exact ⟨_, _, rfl, by decide⟩
  · exact h

theorem IsExpr.starts (h : IsExpr e) : Starts e.tokens := by
  induction h with
  | number pos value =>
    rw [tokens]
    split <;> exact ⟨_, _, rfl, by simp [startKinds, fixed, Token.digits]⟩
  | string pos value => exact ⟨_, _, rfl, by simp [startKinds]⟩
  | array pos h => exact ⟨_, _, rfl, by decide⟩
  | ident | index | call | property => exact ⟨_, _, rfl, by simp [startKinds, Token.name]⟩
  | binary pos hop hleft hright ihleft ihright => exact (ihleft.inParens _ _).append _

end Node

namespace Parser

/-! ## Levels -/

/-- The operators of a level. Those of level 1 bind most tightly. -/
def levelOperator? : Nat → TokenKind → Option Operator
  | 1 => multiplicative?
  | 2 => additive?
  | 3 => comparison?
  | _ => fun _ => none

def tower (operand : Parser Node) : Nat → Parser Node
  | 0 => operand
  | j + 1 => level (levelOperator? (j + 1)) (tower operand j)

/-- Operands whose brackets hold expressions less than `depth` deep. -/
def operandWithin (depth : Nat) : Parser Node := unary (primary (exprWithin depth))

/-- A token of this kind does not go on with an expression of the level. -/
def Closes (j : Nat) (k : TokenKind) : Prop :=
  k ≠ .lParen ∧ k ≠ .lBracket ∧ k ≠ .dot ∧ ∀ i ≤ j, levelOperator? i k = none

instance (j : Nat) (k : TokenKind) : Decidable (Closes j k) := by
  unfold Closes
  infer_instance

theorem Closes.pred {j : Nat} {k : TokenKind} (h : Closes (j + 1) k) :
    Closes j k ∧ levelOperator? (j + 1) k = none :=
  ⟨⟨h.1, h.2.1, h.2.2.1, fun i hi => h.2.2.2 i (Nat.le_succ_of_le hi)⟩, h.2.2.2 _ (Nat.le_refl _)⟩

section Climbing

variable {operand : Parser Node} {ws : List Token} {P : Node → Prop} {i j : Nat}

/-- What is read at a level is read at all levels above it. -/
theorem Reads.climb (h : Reads (tower operand i) ws (Closes i) P) (hij : i ≤ j) :
    Reads (tower operand j) ws (Closes j) P := by
  induction hij with
  | refl => exact h
  | step _ ih => exact ih.leads.reads.mono (fun k hk => hk.pred) fun _ => id

end Climbing

/-- The expression is read wherever it is written. -/
structure Parses (e : Node) : Prop where
  operand : ∀ depth, (inParens 0 e e.tokens).length ≤ depth + 1 →
    Reads (operandWithin depth) (inParens 0 e e.tokens) (Closes 0) e.Alike
  level : ∀ depth j, (inParens (j + 1) e e.tokens).length ≤ depth + 1 →
    Leads (levelOperator? (j + 1)) (tower (operandWithin depth) j) (inParens (j + 1) e e.tokens)
      (Closes j) e.Alike

section Parses

variable {e left right : Node} {depth : Nat}

theorem Parses.reads (h : Parses e) (depth j : Nat)
    (hdepth : (inParens j e e.tokens).length ≤ depth + 1) :
    Reads (tower (operandWithin depth) j) (inParens j e e.tokens) (Closes j) e.Alike := by
  cases j with
  | zero => exact h.operand depth hdepth
  | succ j => exact (h.level depth j hdepth).reads.mono (fun k hk => hk.pred) fun _ => id

theorem Parses.expr (h : Parses e) (hstarts : Node.Starts e.tokens)
    (hdepth : e.tokens.length ≤ depth) : Reads (exprWithin depth) e.tokens (Closes 3) e.Alike := by
  obtain ⟨w, rest, htokens, -⟩ := hstarts
  have hpos : 0 < e.tokens.length := by
    rw [htokens]
    exact Nat.succ_pos _
  obtain ⟨depth, rfl⟩ := Nat.exists_eq_succ_of_ne_zero (show depth ≠ 0 by omega)
  have hreads := h.reads depth 3
  rw [Node.inParens_of_le e.looseness_le] at hreads
  exact hreads hdepth

theorem parses_of_operand (hloose : e.looseness = 0)
    (h : ∀ depth, e.tokens.length ≤ depth + 1 →
      Reads (operandWithin depth) e.tokens (Closes 0) e.Alike) : Parses e where
  operand depth hdepth := by
    rw [Node.inParens_of_le (Nat.le_of_eq hloose)] at hdepth ⊢
    exact h depth hdepth
  level depth j hdepth := by
    rw [Node.inParens_of_le (by omega)] at hdepth ⊢
    have hbase : Reads (tower (operandWithin depth) 0) e.tokens (Closes 0) e.Alike := h depth hdepth
    exact (hbase.climb (Nat.zero_le j)).leads

theorem reads_unary {primary : Parser Node} {w : Token} {ws : List Token} {F : TokenKind → Prop}
    {P : Node → Prop} (hw : w.kind ≠ .minus) (h : Reads primary (w :: ws) F P) :
    Reads (unary primary) (w :: ws) F P := by
  refine reads_bound fun n hn => ?_
  obtain ⟨n, rfl⟩ := Nat.exists_eq_succ_of_ne_zero (Nat.ne_zero_of_lt hn)
  refine reads_current fun t ht => ?_
  have hne : t.kind ≠ .minus := by rwa [kind_of_unplaced ht]
  rw [if_pos hne]
  exact h

theorem reads_parens {F : TokenKind → Prop} {P : Node → Prop} {ws : List Token}
    (h : Reads (exprWithin depth) ws (Closes 3) P) :
    Reads (operandWithin depth) (fixed .lParen :: (ws ++ [fixed .rParen])) F P := by
  refine reads_unary (by decide) (reads_fixed fun t ht => ?_)
  rw [ht]
  refine reads_advance (h.bind (follow_fixed (by decide)) fun inner hinner => ?_)
  exact reads_expect rfl (reads_pure hinner)

theorem levelOperator?_symbol {op : Operator} (hop : (op.isArithmetic || op.isComparison) = true) :
    ∃ j, op.looseness = j + 1 ∧ levelOperator? (j + 1) op.symbol = some op ∧ Closes j op.symbol := by
  cases op <;> first
    | exact ⟨0, by decide⟩
    | exact ⟨1, by decide⟩
    | exact ⟨2, by decide⟩
    | cases hop

/-- An operation is read at the level of its operator, and at the levels below it in parentheses. -/
theorem parses_binary (pos : Position) {op : Operator}
    (hop : (op.isArithmetic || op.isComparison) = true) (hleft : Parses left)
    (hright : Parses right) (hstarts : Node.Starts (Node.binary pos op left right none).tokens) :
    Parses (.binary pos op left right none) := by
  obtain ⟨k, hk, hlevel, hcloses⟩ := levelOperator?_symbol hop
  set e := Node.binary pos op left right none with he
  have hloose : e.looseness = k + 1 := hk
  have htokens : e.tokens = inParens (k + 1) left left.tokens ++
      fixed op.symbol :: inParens k right right.tokens := by
    rw [he, Node.tokens, hk]
    rfl
  have hown : ∀ depth, e.tokens.length ≤ depth + 1 → Leads (levelOperator? (k + 1))
      (tower (operandWithin depth) k) e.tokens (Closes k) e.Alike := by
    intro depth hdepth
    rw [htokens] at hdepth ⊢
    rw [List.length_append, List.length_cons] at hdepth
    have hpair := (hleft.level depth k (by omega)).binary (w := fixed op.symbol) hlevel hcloses
      (hright.reads depth k (by omega))
    intro ts rest eof errors hts hrest
    obtain ⟨_, n, hn, ⟨_, l, r, hl, hr, rfl⟩, hrun⟩ := hpair ts rest eof errors hts hrest
    refine ⟨_, n, hn, ?_, hrun⟩
    exact congrArg₂ (Node.binary .unknown op · · none) hl hr
  have habove : ∀ depth, e.tokens.length ≤ depth + 1 →
      Reads (tower (operandWithin depth) (k + 1)) e.tokens (Closes (k + 1)) e.Alike :=
    fun depth hdepth => (hown depth hdepth).reads.mono (fun k hk => hk.pred) fun _ => id
  have hexpr : ∀ depth, e.tokens.length ≤ depth →
      Reads (exprWithin depth) e.tokens (Closes 3) e.Alike := by
    intro depth hdepth
    obtain ⟨w, rest, hw, -⟩ := hstarts
    have hpos : e.tokens.length = rest.length + 1 := by rw [hw, List.length_cons]
    obtain ⟨depth, rfl⟩ := Nat.exists_eq_succ_of_ne_zero (show depth ≠ 0 by omega)
    exact (habove depth hdepth).climb (hloose ▸ e.looseness_le)
  have hparens : ∀ depth, (fixed .lParen :: (e.tokens ++ [fixed .rParen])).length ≤ depth + 1 →
      Reads (tower (operandWithin depth) 0) (fixed .lParen :: (e.tokens ++ [fixed .rParen]))
        (Closes 0) e.Alike := by
    intro depth hdepth
    simp only [List.length_cons, List.length_append] at hdepth
    exact reads_parens (hexpr depth (by omega))
  refine ⟨fun depth hdepth => ?_, fun depth j hdepth => ?_⟩
  · rw [Node.inParens_of_lt (by omega)] at hdepth ⊢
    exact hparens depth hdepth
  · rcases Nat.lt_trichotomy j k with hj | rfl | hj
    · rw [Node.inParens_of_lt (by omega)] at hdepth ⊢
      exact ((hparens depth hdepth).climb (Nat.zero_le j)).leads
    · rw [Node.inParens_of_le (by omega)] at hdepth ⊢
      exact hown depth hdepth
    · rw [Node.inParens_of_le (by omega)] at hdepth ⊢
      exact ((habove depth hdepth).climb hj).leads

end Parses

/-! ## Lists of expressions -/

section Lists

variable {depth : Nat} {es : List Node}

/-- The expressions of a list are read where each of them stands. -/
def ReadsAll (depth : Nat) (es : List Node) : Prop :=
  ∀ e ∈ es, Node.Starts e.tokens ∧ Reads (exprWithin depth) e.tokens (Closes 3) e.Alike

theorem starts_listed {e : Node} (hes : ReadsAll depth (e :: es)) :
    Node.Starts (Token.listed (Node.tokensOfAll (e :: es))) := by
  have he := (hes e List.mem_cons_self).1
  cases es with
  | nil => exact he
  | cons next rest => exact he.append _

theorem length_le_listed (hes : ReadsAll depth es) :
    es.length ≤ (Token.listed (Node.tokensOfAll es)).length := by
  induction es with
  | nil => exact Nat.zero_le _
  | cons e rest ih =>
    obtain ⟨⟨⟨w, ws, hws, -⟩, -⟩, hrest⟩ := List.forall_mem_cons.1 hes
    cases rest with
    | nil => simp [Node.tokensOfAll, Token.listed, hws]
    | cons next rest =>
      have := ih hrest
      simp only [Node.tokensOfAll, Token.listed, List.length_append, List.length_cons] at this ⊢
      omega

theorem reads_separated (hes : ReadsAll depth es) (hne : es ≠ []) {n : Nat} (hn : es.length ≤ n) :
    Reads (separated (exprWithin depth) n) (Token.listed (Node.tokensOfAll es))
      (fun k => Closes 3 k ∧ k ≠ .comma) (AllAlike es) := by
  induction es generalizing n with
  | nil => exact absurd rfl hne
  | cons e rest ih =>
    obtain ⟨n, rfl⟩ := Nat.exists_eq_succ_of_ne_zero (Nat.ne_zero_of_lt hn)
    obtain ⟨⟨-, he⟩, hrest⟩ := List.forall_mem_cons.1 hes
    cases rest with
    | nil =>
      refine he.bind_nil (fun k hk => hk.1) fun a ha => reads_current_nil fun t ht => ?_
      rw [if_neg ht.2]
      exact reads_pure (.cons ha rfl)
    | cons next rest =>
      refine he.bind (follow_fixed (by decide)) fun a ha => reads_fixed fun t ht => ?_
      rw [if_pos ht]
      refine reads_advance ((ih hrest (List.cons_ne_nil _ _) (Nat.le_of_succ_le_succ hn)).bind_nil
        (fun _ => id) fun as has => ?_)
      exact reads_pure (.cons ha has)

theorem reads_bracketed (hes : ReadsAll depth es) {close : TokenKind}
    (hclose : close ∉ Node.startKinds) (hcloses : Closes 3 close ∧ close ≠ .comma)
    {F : TokenKind → Prop} :
    Reads (bracketed (exprWithin depth) close)
      (Token.listed (Node.tokensOfAll es) ++ [fixed close]) F (AllAlike es) := by
  have hend : ∀ items, AllAlike es items →
      Reads (expect close >>= fun _ => pure items) [fixed close] F (AllAlike es) :=
    fun items hitems => reads_expect rfl (reads_pure hitems)
  cases es with
  | nil =>
    refine reads_fixed fun t ht => ?_
    rw [if_pos ht]
    exact hend [] rfl
  | cons e rest =>
    obtain ⟨w, ws, hws, hw⟩ := (starts_listed hes).append [fixed close]
    rw [hws]
    refine reads_current fun t ht => ?_
    have hne : t.kind ≠ close := by
      rw [kind_of_unplaced ht]
      rintro rfl
      exact hclose hw
    rw [if_neg hne, ← hws]
    refine reads_bound fun n hn => ?_
    have hlength : (e :: rest).length ≤ n := by
      have := length_le_listed hes
      rw [List.length_append] at hn
      omega
    exact (reads_separated hes (List.cons_ne_nil _ _) hlength).bind hcloses hend

end Lists

/-! ## Expressions -/

section Expressions

variable {e : Node} {depth : Nat}

/-- The expression is read as what starts with a name. -/
def ParsesNamed (e : Node) : Prop :=
  ∀ depth n, e.tokens.length ≤ depth + 1 → e.tokens.length ≤ n →
    Reads (namedWithin (exprWithin depth) n) e.tokens (Closes 0) e.Alike

theorem length_le_of_mem {es : List Node} (h : e ∈ es) :
    e.tokens.length ≤ (Token.listed (Node.tokensOfAll es)).length := by
  induction es with
  | nil => cases h
  | cons first rest ih =>
    cases rest with
    | nil =>
      obtain rfl := List.mem_singleton.1 h
      exact Nat.le_refl _
    | cons next rest =>
      simp only [Node.tokensOfAll, Token.listed, List.length_append, List.length_cons] at ih ⊢
      rcases List.mem_cons.1 h with rfl | h
      · omega
      · have := ih h
        omega

theorem readsAll {es : List Node} (hes : ∀ e ∈ es, e.IsExpr) (hparses : ∀ e ∈ es, Parses e)
    (hdepth : (Token.listed (Node.tokensOfAll es)).length ≤ depth) : ReadsAll depth es :=
  fun e he => ⟨(hes e he).starts, (hparses e he).expr (hes e he).starts
    (Nat.le_trans (length_le_of_mem he) hdepth)⟩

theorem parsesNamed_ident (pos : Position) (name : Name) : ParsesNamed (.ident pos name) := by
  intro depth n _ hn
  obtain ⟨n, rfl⟩ := Nat.exists_eq_succ_of_ne_zero (Nat.ne_zero_of_lt hn)
  refine reads_name fun t _ hname => reads_advance (reads_current_nil fun next hnext => ?_)
  have hread : Reads (pure (.ident t.pos t.lexeme)) [] (Closes 0) (Node.ident pos name).Alike :=
    reads_pure (by rw [hname]; rfl)
  split
  · next hkind => exact absurd hkind hnext.1
  · next hkind => exact absurd hkind hnext.2.1
  · next hkind => exact absurd hkind hnext.2.2.1
  · exact hread

theorem parsesNamed_index (pos : Position) (name : Name) {i : Node} (hi : Parses i)
    (hstarts : Node.Starts i.tokens) : ParsesNamed (.index pos name i) := by
  intro depth n hdepth hn
  obtain ⟨n, rfl⟩ := Nat.exists_eq_succ_of_ne_zero (Nat.ne_zero_of_lt hn)
  simp only [Node.tokens, List.length_cons, List.length_append] at hdepth
  refine reads_name fun t _ hname => reads_advance (reads_fixed fun next hnext => ?_)
  rw [hnext]
  refine reads_advance ((hi.expr hstarts (by omega)).bind (follow_fixed (by decide)) ?_)
  intro read hread
  exact reads_expect rfl (reads_pure (congrArg₂ (Node.index .unknown) hname hread))

theorem parsesNamed_call (pos place : Position) (name : Name) {args : List Node}
    (hargs : ∀ a ∈ args, a.IsExpr) (hparses : ∀ a ∈ args, Parses a) :
    ParsesNamed (.call pos (.ident place name) args) := by
  intro depth n hdepth hn
  obtain ⟨n, rfl⟩ := Nat.exists_eq_succ_of_ne_zero (Nat.ne_zero_of_lt hn)
  simp only [Node.tokens, List.length_cons, List.length_append] at hdepth
  refine reads_name fun t _ hname => reads_advance (reads_fixed fun next hnext => ?_)
  rw [hnext]
  refine reads_advance ((reads_bracketed (readsAll hargs hparses (by omega)) (by decide)
    (by decide)).bind_nil (G := Closes 0) (F := Closes 0) (fun _ => id) fun read hread => ?_)
  exact reads_pure (congrArg₂ (fun x => Node.call .unknown (.ident .unknown x)) hname hread)

theorem parsesNamed_property (pos place : Position) (name : Name) {member : Node}
    (hmember : ParsesNamed member) (hstarts : ∃ x ws, member.tokens = .name x :: ws) :
    ParsesNamed (.property pos (.ident place name) member) := by
  intro depth n hdepth hn
  obtain ⟨n, rfl⟩ := Nat.exists_eq_succ_of_ne_zero (Nat.ne_zero_of_lt hn)
  simp only [Node.tokens, List.length_cons, List.length_append] at hdepth hn
  refine reads_name fun t _ hname => reads_advance (reads_fixed fun next hnext => ?_)
  rw [hnext]
  obtain ⟨x, ws, htokens⟩ := hstarts
  have hread := hmember depth n (by omega) (by omega)
  rw [htokens] at hread ⊢
  refine reads_advance (reads_name fun first hfirst _ => ?_)
  rw [if_neg (not_not_intro hfirst)]
  refine hread.bind_nil (fun _ => id) fun read hread => reads_pure ?_
  exact congrArg₂ (fun x => Node.property .unknown (.ident .unknown x)) hname hread

theorem exists_name_of_isNamed (h : e.IsExpr) (hnamed : e.isNamed = true) :
    ∃ x ws, e.tokens = .name x :: ws := by
  cases h with
  | ident pos name => exact ⟨name, _, rfl⟩
  | index pos name h => exact ⟨name, _, rfl⟩
  | call pos place name h => exact ⟨name, _, rfl⟩
  | property pos place name h hmember => exact ⟨name, _, rfl⟩
  | _ => cases hnamed

theorem parses_of_named (hexpr : e.IsExpr) (hnamed : e.isNamed = true) (h : ParsesNamed e) :
    Parses e := by
  have hloose : e.looseness = 0 := by
    cases hexpr with
    | binary => cases hnamed
    | _ => rfl
  refine parses_of_operand hloose fun depth hdepth => ?_
  have hread := fun n => h depth n hdepth
  obtain ⟨x, ws, htokens⟩ := exists_name_of_isNamed hexpr hnamed
  rw [htokens] at hread ⊢
  refine reads_unary (by simp [Token.name]) (reads_name fun t ht _ => ?_)
  rw [ht]
  exact reads_bound fun n hn => hread n (Nat.le_of_lt hn)

theorem parses_number (pos : Position) (value : Int64) : Parses (.number pos value) := by
  obtain ⟨hrange, hvalue⟩ := Decimal.signed_natAbs value
  refine parses_of_operand rfl fun depth _ => ?_
  rw [Node.tokens]
  split
  · next hneg =>
    rw [decide_eq_true hneg] at hrange hvalue
    refine reads_bound fun n hn => ?_
    obtain ⟨n, rfl⟩ := Nat.exists_eq_succ_of_ne_zero (Nat.ne_zero_of_lt hn)
    refine reads_fixed fun minus hminus => ?_
    rw [if_neg (not_not_intro hminus)]
    refine reads_advance (reads_current fun t ht => ?_)
    have hint : t.kind = .int := kind_of_unplaced ht
    rw [if_pos hint]
    refine reads_advance ((reads_literal _ (lexeme_of_unplaced ht) hrange).mono (fun _ => id) ?_)
    rintro _ rfl
    rw [hvalue]
    rfl
  · next hpos =>
    rw [decide_eq_false hpos] at hrange hvalue
    refine reads_unary (by simp [Token.digits]) (reads_current fun t ht => ?_)
    rw [kind_of_unplaced ht]
    refine reads_advance ((reads_literal _ (lexeme_of_unplaced ht) hrange).mono (fun _ => id) ?_)
    rintro _ rfl
    rw [hvalue]
    rfl

theorem parses_string (pos : Position) (value : Bytes) : Parses (.string pos value) := by
  refine parses_of_operand rfl fun depth _ => ?_
  refine reads_unary (by simp) (reads_current fun t ht => ?_)
  rw [kind_of_unplaced ht]
  refine reads_advance (reads_pure ?_)
  rw [lexeme_of_unplaced ht]
  rfl

theorem parses_array (pos : Position) {elements : List Node} (helements : ∀ e ∈ elements, e.IsExpr)
    (hparses : ∀ e ∈ elements, Parses e) : Parses (.array pos elements) := by
  refine parses_of_operand rfl fun depth hdepth => ?_
  simp only [Node.tokens, List.length_cons, List.length_append] at hdepth
  refine reads_unary (by decide) (reads_fixed fun t ht => ?_)
  rw [ht]
  refine reads_advance ((reads_bracketed (readsAll helements hparses (by omega)) (by decide)
    (by decide)).bind_nil (G := Closes 0) (F := Closes 0) (fun _ => id) fun read hread => ?_)
  exact reads_pure (congrArg (Node.array .unknown) hread)

theorem parses_of_isExpr (h : e.IsExpr) : Parses e ∧ (e.isNamed = true → ParsesNamed e) := by
  have hnamed {e : Node} (h : e.IsExpr) (hn : e.isNamed = true) (hp : ParsesNamed e) :
      Parses e ∧ (e.isNamed = true → ParsesNamed e) := ⟨parses_of_named h hn hp, fun _ => hp⟩
  have hplain {e : Node} (hn : e.isNamed = false) (hp : Parses e) :
      Parses e ∧ (e.isNamed = true → ParsesNamed e) :=
    ⟨hp, fun h => absurd h (Bool.eq_false_iff.1 hn)⟩
  induction h with
  | number pos value => exact hplain rfl (parses_number pos value)
  | string pos value => exact hplain rfl (parses_string pos value)
  | array pos h ih => exact hplain rfl (parses_array pos h fun e he => (ih e he).1)
  | ident pos name => exact hnamed (.ident pos name) rfl (parsesNamed_ident pos name)
  | index pos name h ih =>
    exact hnamed (.index pos name h) rfl (parsesNamed_index pos name ih.1 h.starts)
  | call pos place name h ih =>
    exact hnamed (.call pos place name h) rfl
      (parsesNamed_call pos place name h fun a ha => (ih a ha).1)
  | property pos place name h hmember ih =>
    exact hnamed (.property pos place name h hmember) rfl
      (parsesNamed_property pos place name (ih.2 hmember) (exists_name_of_isNamed h hmember))
  | binary pos hop hleft hright ihleft ihright =>
    exact hplain rfl (parses_binary pos hop ihleft.1 ihright.1
      (Node.IsExpr.binary pos hop hleft hright).starts)

theorem reads_expr (h : e.IsExpr) : Reads expr e.tokens (Closes 3) e.Alike :=
  reads_bound fun _ hn => (parses_of_isExpr h).1.expr h.starts (Nat.le_of_lt hn)

end Expressions

end Parser

end UnitScript
