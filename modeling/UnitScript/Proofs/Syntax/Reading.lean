import UnitScript.Proofs.Lowering.Scratch
import UnitScript.Proofs.Syntax.Surface

/-!
# Reading what is written

What a parser does with the tokens that it is meant for: it takes them and no others, reports nothing,
and gives the expected result. Whether a token belongs to an expression is decided by looking at the one
behind it, so that the rules name the kinds of token that may follow.
-/

namespace UnitScript

open Token (fixed)

namespace Parser

/-- On tokens that are written as `ws`, with a token of a kind in `F` behind them, the parser takes
these tokens, reports nothing, and its result has the property `P`. -/
def Reads {α : Type} (p : Parser α) (ws : List Token) (F : TokenKind → Prop) (P : α → Prop) : Prop :=
  ∀ ts rest eof errors, ts.map Token.unplaced = ws → F (head ⟨rest, eof, errors⟩).kind →
    ∃ a, p ⟨ts ++ rest, eof, errors⟩ = (a, ⟨rest, eof, errors⟩) ∧ P a

/-- If a token of a kind in `G` follows the tokens `ws`, then what comes first of all that has a kind
in `F`. -/
def Follow (F G : TokenKind → Prop) : List Token → Prop
  | [] => ∀ k, G k → F k
  | w :: _ => F w.kind

theorem kind_of_unplaced {t w : Token} (h : t.unplaced = w) : t.kind = w.kind := by
  rw [← h]
  rfl

theorem lexeme_of_unplaced {t w : Token} (h : t.unplaced = w) : t.lexeme = w.lexeme := by
  rw [← h]
  rfl

theorem current_bind {β : Type} (f : Token → Parser β) (s : ParseState) :
    (current >>= f) s = f (head s) s := rfl

section Rules

variable {α β : Type} {p : Parser α} {f : α → Parser β} {ws us : List Token} {w : Token}
  {F G : TokenKind → Prop} {P P' : α → Prop} {Q : β → Prop}

theorem Follow.head {ts rest : List Token} {eof : Position} {errors : List ParseError}
    (h : Follow F G us) (hts : ts.map Token.unplaced = us) (hrest : G (head ⟨rest, eof, errors⟩).kind) :
    F (Parser.head ⟨ts ++ rest, eof, errors⟩).kind := by
  cases ts with
  | nil =>
    subst hts
    exact h _ hrest
  | cons t ts =>
    subst hts
    exact h

theorem follow_fixed {k : TokenKind} (h : F k) : Follow F G (fixed k :: us) := h

theorem reads_pure {a : α} (h : P a) : Reads (pure a) [] F P := by
  rintro ts rest eof errors hts -
  obtain rfl := List.map_eq_nil_iff.1 hts
  exact ⟨a, rfl, h⟩

theorem Reads.mono (h : Reads p ws F P) (hF : ∀ k, G k → F k) (hP : ∀ a, P a → P' a) :
    Reads p ws G P' := by
  intro ts rest eof errors hts hrest
  obtain ⟨a, ha, hPa⟩ := h ts rest eof errors hts (hF _ hrest)
  exact ⟨a, ha, hP a hPa⟩

theorem Reads.bind (hp : Reads p ws F P) (hfollow : Follow F G us)
    (hf : ∀ a, P a → Reads (f a) us G Q) : Reads (p >>= f) (ws ++ us) G Q := by
  intro ts rest eof errors hts hrest
  obtain ⟨front, back, rfl, hfront, hback⟩ := List.map_eq_append_iff.1 hts
  obtain ⟨a, ha, hPa⟩ := hp front (back ++ rest) eof errors hfront (hfollow.head hback hrest)
  obtain ⟨b, hb, hQb⟩ := hf a hPa back rest eof errors hback hrest
  refine ⟨b, ?_, hQb⟩
  have hrun : (p >>= f) ⟨front ++ back ++ rest, eof, errors⟩ =
      f (p ⟨front ++ (back ++ rest), eof, errors⟩).1 (p ⟨front ++ (back ++ rest), eof, errors⟩).2 := by
    rw [List.append_assoc]
    rfl
  rw [hrun, ha]
  exact hb

/-- As `Reads.bind`, where no further tokens are taken. -/
theorem Reads.bind_nil (hp : Reads p ws F P) (hF : ∀ k, G k → F k)
    (hf : ∀ a, P a → Reads (f a) [] G Q) : Reads (p >>= f) ws G Q := by
  have h : Reads (p >>= f) (ws ++ []) G Q := hp.bind hF hf
  rwa [List.append_nil] at h

theorem Reads.map (h : Reads p ws F P) (g : α → β) :
    Reads (g <$> p) ws F fun b => ∃ a, P a ∧ b = g a := by
  intro ts rest eof errors hts hrest
  obtain ⟨a, ha, hPa⟩ := h ts rest eof errors hts hrest
  refine ⟨g a, ?_, a, hPa, rfl⟩
  have hrun : (g <$> p) ⟨ts ++ rest, eof, errors⟩ =
      (g (p ⟨ts ++ rest, eof, errors⟩).1, (p ⟨ts ++ rest, eof, errors⟩).2) := rfl
  rw [hrun, ha]

theorem reads_current {f : Token → Parser β}
    (h : ∀ t, t.unplaced = w → Reads (f t) (w :: ws) G Q) : Reads (current >>= f) (w :: ws) G Q := by
  intro ts rest eof errors hts hrest
  cases ts with
  | nil => cases hts
  | cons t ts => exact h t (List.cons.inj hts).1 (t :: ts) rest eof errors hts hrest

theorem reads_fixed {k : TokenKind} {f : Token → Parser β}
    (h : ∀ t, t.kind = k → Reads (f t) (fixed k :: ws) G Q) :
    Reads (current >>= f) (fixed k :: ws) G Q :=
  reads_current fun t ht => h t (kind_of_unplaced ht)

theorem reads_name {x : Name} {f : Token → Parser β}
    (h : ∀ t, t.kind = .ident → t.lexeme = x → Reads (f t) (.name x :: ws) G Q) :
    Reads (current >>= f) (.name x :: ws) G Q :=
  reads_current fun t ht => h t (kind_of_unplaced ht) (lexeme_of_unplaced ht)

/-- No tokens are left, so that the next one is one that may follow. -/
theorem reads_current_nil {f : Token → Parser β} (h : ∀ t, G t.kind → Reads (f t) [] G Q) :
    Reads (current >>= f) [] G Q := by
  intro ts rest eof errors hts hrest
  obtain rfl := List.map_eq_nil_iff.1 hts
  exact h _ hrest [] rest eof errors rfl hrest

theorem reads_advance {f : PUnit → Parser β} (h : Reads (f ⟨⟩) ws G Q) :
    Reads (advance >>= f) (w :: ws) G Q := by
  intro ts rest eof errors hts hrest
  cases ts with
  | nil => cases hts
  | cons t ts => exact h ts rest eof errors (List.cons.inj hts).2 hrest

theorem reads_expect {want : TokenKind} {f : PUnit → Parser β} (hw : w.kind = want)
    (h : Reads (f ⟨⟩) ws G Q) : Reads (expect want >>= f) (w :: ws) G Q := by
  intro ts rest eof errors hts hrest
  cases ts with
  | nil => cases hts
  | cons t ts =>
    obtain ⟨ht, hts⟩ := List.cons.inj hts
    obtain ⟨b, hb, hQb⟩ := h ts rest eof errors hts hrest
    refine ⟨b, ?_, hQb⟩
    have hexpect : expect want ⟨t :: ts ++ rest, eof, errors⟩ = (⟨⟩, ⟨ts ++ rest, eof, errors⟩) := by
      have hkind : t.kind = want := (kind_of_unplaced ht).trans hw
      have hrun : expect want ⟨t :: ts ++ rest, eof, errors⟩ =
          (if t.kind ≠ want then report t.pos (.expected want t) >>= fun _ => advance else advance)
            ⟨t :: ts ++ rest, eof, errors⟩ := rfl
      rw [hrun, if_neg (not_not_intro hkind)]
      rfl
    have hbind : (expect want >>= f) ⟨t :: ts ++ rest, eof, errors⟩ =
        f (expect want ⟨t :: ts ++ rest, eof, errors⟩).1
          (expect want ⟨t :: ts ++ rest, eof, errors⟩).2 := rfl
    rw [hbind, hexpect]
    exact hb

theorem reads_bound {f : Nat → Parser β} (h : ∀ n, ws.length < n → Reads (f n) ws G Q) :
    Reads (bound >>= f) ws G Q := by
  intro ts rest eof errors hts hrest
  have hlength : ws.length < (ts ++ rest).length + 1 := by
    rw [← hts, List.length_map, List.length_append]
    omega
  exact h _ hlength ts rest eof errors hts hrest

end Rules

/-! ## Types -/

theorem reads_typeWithin {t : TypeExpr} (ht : t.IsWritten) {depth : Nat}
    (hdepth : t.tokens.length ≤ depth) :
    Reads (typeWithin depth) t.tokens (· ≠ .lt)
      fun o => ∃ read, o = some read ∧ read.unplaced = t.unplaced := by
  induction t generalizing depth with
  | named pos name =>
    obtain ⟨depth, rfl⟩ := Nat.exists_eq_succ_of_ne_zero (Nat.ne_of_gt hdepth)
    refine reads_current fun tok htok => ?_
    have hkind : tok.kind ∈ TypeExpr.wordKinds := (kind_of_unplaced htok).symm ▸ ht
    have hname : tok.lexeme = name := lexeme_of_unplaced htok
    simp only [TypeExpr.wordKinds, List.mem_cons, List.not_mem_nil, or_false] at hkind
    rcases hkind with hkind | hkind | hkind | hkind
    all_goals
      rw [hkind]
      exact reads_advance (reads_pure ⟨_, rfl, by rw [hname]; rfl⟩)
  | callback pos =>
    obtain ⟨depth, rfl⟩ := Nat.exists_eq_succ_of_ne_zero (Nat.ne_of_gt hdepth)
    refine reads_fixed fun tok htok => ?_
    rw [htok]
    refine reads_advance (reads_current_nil fun next hnext => ?_)
    rw [if_neg hnext]
    exact reads_pure ⟨_, rfl, rfl⟩
  | callbackOf pos result ih =>
    simp only [TypeExpr.tokens, List.length_cons, List.length_append] at hdepth
    obtain ⟨depth, rfl⟩ := Nat.exists_eq_succ_of_ne_zero (show depth ≠ 0 by omega)
    refine reads_fixed fun tok htok => ?_
    rw [htok]
    refine reads_advance (reads_fixed fun next hnext => ?_)
    rw [if_pos hnext]
    refine reads_advance ((ih ht (by omega)).bind (follow_fixed (by decide)) ?_)
    rintro _ ⟨read, rfl, hread⟩
    refine reads_expect rfl (reads_pure ⟨_, rfl, ?_⟩)
    rw [TypeExpr.unplaced, hread]
    rfl

theorem reads_writtenType {type : Option TypeExpr} (htype : ∀ t ∈ type, t.IsWritten) :
    Reads annotation (TypeExpr.annotationTokens type) (fun k => k ≠ .lt ∧ k ≠ .colon)
      fun o => o.map TypeExpr.unplaced = type.map TypeExpr.unplaced := by
  cases type with
  | none =>
    refine reads_current_nil fun next hnext => ?_
    rw [if_neg hnext.2]
    exact reads_pure rfl
  | some t =>
    refine reads_fixed fun tok htok => ?_
    rw [if_pos htok]
    refine reads_advance (reads_bound fun n hn => ?_)
    refine (reads_typeWithin (htype t rfl) (Nat.le_of_lt hn)).mono (fun k hk => hk.1) ?_
    rintro _ ⟨read, rfl, hread⟩
    exact congrArg some hread

end Parser

/-! ## Integers -/

namespace Bytes

theorem digitsValue_ofNat (n : Nat) : digitsValue (ofNat n) = n := by
  have hfold : ∀ (cs : List Char) (value : Nat), (∀ c ∈ cs, c.isDigit = true) →
      (cs.map fun c => UInt8.ofNat c.toNat).foldl (fun n b => n * 10 + (b.toNat - 48)) value =
        Nat.ofDigitChars 10 cs value := by
    intro cs
    induction cs with
    | nil => exact fun _ _ => rfl
    | cons c cs ih =>
      intro value hcs
      rw [List.forall_mem_cons] at hcs
      have hdigit := hcs.1
      simp only [Char.isDigit, Bool.and_eq_true, decide_eq_true_eq, ge_iff_le,
        UInt32.le_iff_toNat_le] at hdigit
      have hhi : c.toNat ≤ 57 := hdigit.2
      have hbyte : (UInt8.ofNat c.toNat).toNat = c.toNat := by
        rw [UInt8.toNat_ofNat', Nat.mod_eq_of_lt (by omega)]
      rw [List.map_cons, List.foldl_cons, hbyte, ih _ hcs.2, Nat.ofDigitChars_cons, Nat.mul_comm]
      rfl
  calc digitsValue (ofNat n) = Nat.ofDigitChars 10 (Nat.toDigits 10 n) 0 :=
        hfold _ 0 fun c hc => Nat.isDigit_of_mem_toDigits (by decide) (by decide) hc
    _ = n := Nat.ofDigitChars_toDigits (by decide) (by decide)

end Bytes

namespace Decimal

theorem read_ofNat {negative : Bool} {n : Nat} (h : n ≤ maxMagnitude negative) :
    read negative (Bytes.ofNat n) = (signed negative n, true) := by
  have hnonempty : (Bytes.ofNat n).isEmpty = false := by
    simp [Bytes.ofNat, Nat.toDigits_ne_nil]
  have hdigits : (Bytes.ofNat n).all Bytes.isDigit = true :=
    List.all_eq_true.2 fun b hb => Bytes.isDigit_of_mem_ofNat hb
  unfold read
  rw [hnonempty, hdigits, Bytes.digitsValue_ofNat]
  exact if_pos h

theorem signed_natAbs (v : Int64) : v.toInt.natAbs ≤ maxMagnitude (decide (v < 0)) ∧
    signed (decide (v < 0)) v.toInt.natAbs = v := by
  have hlow := v.le_toInt
  have hhigh := v.toInt_lt
  have hsign : v < 0 ↔ v.toInt < 0 := Int64.lt_iff_toInt_lt
  by_cases hv : v.toInt < 0
  · have habs : -(v.toInt.natAbs : Int) = v.toInt := by omega
    simp only [hsign, hv, decide_true, maxMagnitude, signed, if_true, habs, Int64.ofInt_toInt,
      and_true]
    omega
  · have habs : (v.toInt.natAbs : Int) = v.toInt := by omega
    simp only [hsign, hv, decide_false, maxMagnitude, signed, Bool.false_eq_true, if_false, habs,
      Int64.ofInt_toInt, and_true]
    omega

end Decimal

namespace Parser

theorem reads_literal {F : TokenKind → Prop} {negative : Bool} {tok : Token} {n : Nat}
    (place : Position) (htok : tok.lexeme = Bytes.ofNat n)
    (hn : n ≤ Decimal.maxMagnitude negative) :
    Reads (literal place negative tok) [] F (· = .number place (Decimal.signed negative n)) := by
  unfold literal
  rw [htok, Decimal.read_ofNat hn]
  exact reads_pure rfl

/-! ## Operators that group to the left -/

section Levels

variable {op? : TokenKind → Option Operator} {operand : Parser Node} {ws us : List Token} {w : Token}
  {F : TokenKind → Prop} {P Q : Node → Prop}

/-- On the tokens `ws` the parser of a level comes to a left operand with the property `P`, and goes on
from there with as many operators as there may be. -/
def Leads (op? : TokenKind → Option Operator) (operand : Parser Node) (ws : List Token)
    (F : TokenKind → Prop) (P : Node → Prop) : Prop :=
  ∀ ts rest eof errors, ts.map Token.unplaced = ws → F (head ⟨rest, eof, errors⟩).kind →
    ∃ left n, rest.length < n ∧ P left ∧ level op? operand ⟨ts ++ rest, eof, errors⟩ =
      chain op? operand n left ⟨rest, eof, errors⟩

theorem Reads.leads (h : Reads operand ws F P) : Leads op? operand ws F P := by
  intro ts rest eof errors hts hrest
  obtain ⟨left, hleft, hP⟩ := h ts rest eof errors hts hrest
  refine ⟨left, rest.length + 1, Nat.lt_succ_self _, hP, ?_⟩
  have hrun : level op? operand ⟨ts ++ rest, eof, errors⟩ =
      (bound >>= fun n => chain op? operand n (operand ⟨ts ++ rest, eof, errors⟩).1)
        (operand ⟨ts ++ rest, eof, errors⟩).2 := rfl
  rw [hrun, hleft]
  rfl

theorem Leads.binary {op : Operator} (hleft : Leads op? operand ws F P) (hop : op? w.kind = some op)
    (hw : F w.kind) (hright : Reads operand us F Q) :
    Leads op? operand (ws ++ w :: us) F
      fun e => ∃ pos left right, P left ∧ Q right ∧ e = .binary pos op left right none := by
  intro ts rest eof errors hts hrest
  obtain ⟨front, back, rfl, hfront, hback⟩ := List.map_eq_append_iff.1 hts
  cases back with
  | nil => cases hback
  | cons t back =>
    obtain ⟨ht, hback⟩ := List.cons.inj hback
    have hkind := kind_of_unplaced ht
    obtain ⟨left, n, hn, hP, hrun⟩ := hleft front (t :: back ++ rest) eof errors hfront
      (show F t.kind by rwa [hkind])
    obtain ⟨right, hoperand, hQ⟩ := hright back rest eof errors hback hrest
    rw [List.length_append, List.length_cons] at hn
    obtain ⟨n, rfl⟩ := Nat.exists_eq_succ_of_ne_zero (show n ≠ 0 by omega)
    refine ⟨_, n, by omega, ⟨t.pos, left, right, hP, hQ, rfl⟩, ?_⟩
    have hmatch : op? (head ⟨t :: back ++ rest, eof, errors⟩).kind = some op := by
      rw [← hop, ← hkind]
      rfl
    have hstep : chain op? operand (n + 1) left ⟨t :: back ++ rest, eof, errors⟩ =
        chain op? operand n (.binary t.pos op left (operand ⟨back ++ rest, eof, errors⟩).1 none)
          (operand ⟨back ++ rest, eof, errors⟩).2 := by
      rw [chain, current_bind, hmatch]
      rfl
    rw [List.append_assoc, hrun, hstep, hoperand]

/-- A token that is no operator of the level ends it. -/
theorem Leads.reads (h : Leads op? operand ws F P) :
    Reads (level op? operand) ws (fun k => F k ∧ op? k = none) P := by
  rintro ts rest eof errors hts ⟨hrest, hnone⟩
  obtain ⟨left, n, hn, hP, hrun⟩ := h ts rest eof errors hts hrest
  obtain ⟨n, rfl⟩ := Nat.exists_eq_succ_of_ne_zero (Nat.ne_zero_of_lt hn)
  refine ⟨left, hrun.trans ?_, hP⟩
  rw [chain, current_bind, hnone]
  rfl

end Levels

end Parser

end UnitScript
