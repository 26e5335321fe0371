import Mathlib.Algebra.Group.Int.Defs
import Mathlib.Algebra.Group.Nat.Defs
import UnitScript.Proofs.Syntax.Expressions

/-!
# The value of a written integer

Digits may stand behind any number of minus signs, with parentheses around any part. A minus directly in
front of the digits is read together with them; every other one negates the literal that was read, and
this wraps around. So a numeral is either reported as out of range or has the value that it denotes,
except for one: the least integer, written with its sign, is its own negative.
-/

namespace UnitScript

open Token (fixed)

/-- The ways to write an integer by its digits. -/
inductive Numeral where
  | digits
  | minus (x : Numeral)
  | parens (x : Numeral)
  deriving DecidableEq, Repr

namespace Numeral

def tokens (d : Bytes) : Numeral → List Token
  | digits => [⟨.int, d, .unknown⟩]
  | minus x => fixed .minus :: x.tokens d
  | parens x => fixed .lParen :: (x.tokens d ++ [fixed .rParen])

def signs : Numeral → Nat
  | digits => 0
  | minus x => x.signs + 1
  | parens x => x.signs

/-- Whether a minus stands directly in front of the digits. -/
def isSigned : Numeral → Bool
  | digits => false
  | minus digits => true
  | minus x => x.isSigned
  | parens x => x.isSigned

def denoted (x : Numeral) (d : Bytes) : Int := (-1) ^ x.signs * (Bytes.digitsValue d : Int)

/-- What is read: the digits with the sign in front of them, and for each further minus the negative. -/
def value (d : Bytes) : Numeral → Int64
  | digits => (Decimal.read false d).1
  | minus digits => (Decimal.read true d).1
  | minus x => -(x.value d)
  | parens x => x.value d

def complaints (x : Numeral) (d : Bytes) (place : Position) : List ParseError :=
  if (Decimal.read x.isSigned d).2 then []
  else [⟨place, .badInteger (if x.isSigned then 45 :: d else d)⟩]

variable {d : Bytes} {x : Numeral}

/-! ## What is read and what is denoted -/

theorem denoted_minus (x : Numeral) (d : Bytes) : (minus x).denoted d = -x.denoted d := by
  rw [denoted, denoted, signs, Int.pow_succ, Int.mul_neg, Int.mul_one, Int.neg_mul]

theorem denoted_eq (x : Numeral) (d : Bytes) :
    x.denoted d = if x.signs % 2 = 0 then (Bytes.digitsValue d : Int) else -Bytes.digitsValue d := by
  induction x with
  | digits => simp [denoted, signs]
  | parens x ih => exact ih
  | minus x ih =>
    rw [denoted_minus, ih, signs]
    split <;> split <;> omega

theorem read_eq (negative : Bool) (hne : d ≠ []) (hd : ∀ b ∈ d, Bytes.isDigit b = true) :
    Decimal.read negative d =
      if Bytes.digitsValue d ≤ Decimal.maxMagnitude negative then
        (Decimal.signed negative (Bytes.digitsValue d), true)
      else (Decimal.signed negative (Decimal.maxMagnitude negative), false) := by
  have hdigits : (d.isEmpty || !d.all Bytes.isDigit) = false := by
    simpa [hne] using hd
  rw [Decimal.read, hdigits]
  rfl

/-- Nothing is reported just when the digits are in range for the sign in front of them. -/
theorem complaints_eq_nil_iff (x : Numeral) (hne : d ≠ []) (hd : ∀ b ∈ d, Bytes.isDigit b = true)
    (place : Position) :
    x.complaints d place = [] ↔ Bytes.digitsValue d ≤ Decimal.maxMagnitude x.isSigned := by
  rw [complaints, read_eq _ hne hd]
  by_cases hfits : Bytes.digitsValue d ≤ Decimal.maxMagnitude x.isSigned <;> simp [hfits]

/-- In range, what is read is the denoted integer, but wrapped around. -/
theorem value_eq (hne : d ≠ []) (hd : ∀ b ∈ d, Bytes.isDigit b = true)
    (hfits : Bytes.digitsValue d ≤ Decimal.maxMagnitude x.isSigned) :
    x.value d = Int64.ofInt (x.denoted d) := by
  have hread : ∀ negative, Bytes.digitsValue d ≤ Decimal.maxMagnitude negative →
      (Decimal.read negative d).1 = Decimal.signed negative (Bytes.digitsValue d) := by
    intro negative h
    rw [read_eq negative hne hd, if_pos h]
  induction x with
  | digits =>
    rw [value, hread false hfits, denoted_eq]
    rfl
  | parens x ih => exact ih hfits
  | minus x ih =>
    rw [denoted_minus]
    cases x with
    | digits =>
      rw [value, hread true hfits, denoted_eq]
      rfl
    | minus y | parens y =>
      rw [Int64.ofInt_neg, ← ih hfits]
      rfl

/-- The one numeral that is read as another integer than it denotes. -/
theorem value_exact_iff (hne : d ≠ []) (hd : ∀ b ∈ d, Bytes.isDigit b = true)
    (hfits : Bytes.digitsValue d ≤ Decimal.maxMagnitude x.isSigned) :
    (x.value d).toInt = x.denoted d ↔
      ¬(x.isSigned = true ∧ Bytes.digitsValue d = 2 ^ 63 ∧ x.signs % 2 = 0) := by
  have hlow := (x.value d).le_toInt
  have hhigh := (x.value d).toInt_lt
  have hsign := denoted_eq x d
  have hrange : -2 ^ 63 ≤ x.denoted d → x.denoted d < 2 ^ 63 →
      (x.value d).toInt = x.denoted d := by
    intro hge hlt
    rw [value_eq hne hd hfits]
    exact Int64.toInt_ofInt_of_le hge hlt
  cases hsigned : x.isSigned with
  | false =>
    rw [hsigned] at hfits
    simp only [Decimal.maxMagnitude, Bool.false_eq_true, if_false] at hfits
    simp only [Bool.false_eq_true, false_and, not_false_eq_true, iff_true]
    split at hsign <;> exact hrange (by omega) (by omega)
  | true =>
    rw [hsigned] at hfits
    simp only [Decimal.maxMagnitude, if_true] at hfits
    simp only [true_and]
    split at hsign
    · constructor
      · omega
      · exact fun h => hrange (by omega) (by omega)
    · exact iff_of_true (hrange (by omega) (by omega)) (by omega)

/-- The result of reading a numeral in front of `rest`: one literal, and a report if the digits are out
of range. Without a report the literal is the integer that the numeral denotes, except exactly for the
least integer, written with its sign, behind an odd number of further minus signs. -/
def ReadAs (x : Numeral) (d : Bytes) (rest : List Token) (s : ParseState) (r : Node × ParseState) :
    Prop :=
  ∃ pos value faults,
    r = (.number pos value, { s with rest := rest, errors := s.errors ++ faults }) ∧
    (faults = [] ↔ Bytes.digitsValue d ≤ Decimal.maxMagnitude x.isSigned) ∧
    (faults ≠ [] ∨ value.toInt = (-1) ^ x.signs * (Bytes.digitsValue d : Int) ↔
      ¬(x.isSigned = true ∧ Bytes.digitsValue d = 2 ^ 63 ∧ x.signs % 2 = 0))

theorem readAs_value (hne : d ≠ []) (hd : ∀ b ∈ d, Bytes.isDigit b = true) {rest : List Token}
    {s : ParseState} (pos place : Position) :
    x.ReadAs d rest s (.number pos (x.value d),
      { s with rest := rest, errors := s.errors ++ x.complaints d place }) := by
  have hnil := x.complaints_eq_nil_iff hne hd place
  refine ⟨pos, _, _, rfl, hnil, ?_⟩
  by_cases hfits : Bytes.digitsValue d ≤ Decimal.maxMagnitude x.isSigned
  · rw [← value_exact_iff hne hd hfits, hnil.2 hfits]
    simp [denoted]
  · -- digits out of range are reported, and the excepted ones are in range
    refine iff_of_true (.inl fun h => hfits (hnil.1 h)) ?_
    rintro ⟨hsigned, hvalue, -⟩
    apply hfits
    rw [hsigned, hvalue]
    decide

end Numeral

namespace Parser

variable {d : Bytes} {x : Numeral} {rest ts : List Token} {eof : Position} {errors : List ParseError}

theorem bind_eq {α β : Type} {p : Parser α} {f : α → Parser β} {a : α} {s s' : ParseState}
    (h : p s = (a, s')) : (p >>= f) s = f a s' := by
  change f (p s).1 (p s).2 = _
  rw [h]

theorem literal_eq (place : Position) (negative : Bool) (tok : Token) (s : ParseState) :
    literal place negative tok s = (.number place (Decimal.read negative tok.lexeme).1,
      { s with errors := s.errors ++ if (Decimal.read negative tok.lexeme).2 then [] else
        [⟨tok.pos, .badInteger (if negative then 45 :: tok.lexeme else tok.lexeme)⟩] }) := by
  unfold literal
  cases hread : Decimal.read negative tok.lexeme with
  | mk value ok =>
    cases ok with
    | true => simp; rfl
    | false => rfl

/-- What is read as an operand is read as an expression, when no operator follows. -/
theorem level_eq {op? : TokenKind → Option Operator} {operand : Parser Node} {s s' : ParseState}
    {a : Node} (h : operand s = (a, s')) (hnone : op? (head s').kind = none) :
    level op? operand s = (a, s') := by
  have hrun : level op? operand s = chain op? operand (s'.rest.length + 1) a s' := by
    rw [level, bind_eq h]
    rfl
  rw [hrun, chain, current_bind, hnone]
  rfl

theorem exprWithin_eq {depth : Nat} {s s' : ParseState} {a : Node}
    (h : operandWithin depth s = (a, s')) (hcloses : ∀ i ≤ 3, levelOperator? i (head s').kind = none) :
    exprWithin (depth + 1) s = (a, s') :=
  level_eq (level_eq (level_eq h (hcloses 1 (by decide))) (hcloses 2 (by decide)))
    (hcloses 3 (by decide))

theorem unaryWithin_of_ne {primary : Parser Node} {s : ParseState} (h : (head s).kind ≠ .minus)
    (n : Nat) : unaryWithin primary n s = primary s := by
  cases n with
  | zero => rfl
  | succ n => rw [unaryWithin, current_bind, if_pos h]

theorem unaryWithin_minus {primary : Parser Node} {n : Nat} {t : Token} {r : List Token}
    (h : t.kind = .minus) : unaryWithin primary (n + 1) ⟨t :: r, eof, errors⟩ =
      (if (head ⟨r, eof, errors⟩).kind = .int then
        literal t.pos true (head ⟨r, eof, errors⟩) ⟨r.tail, eof, errors⟩
      else (negated t.pos (unaryWithin primary n ⟨r, eof, errors⟩).1,
        (unaryWithin primary n ⟨r, eof, errors⟩).2)) := by
  have hkind : (head ⟨t :: r, eof, errors⟩).kind = .minus := h
  rw [unaryWithin, current_bind, if_neg (not_not_intro hkind)]
  change (if (head ⟨r, eof, errors⟩).kind = .int then _ else _ : Parser Node) ⟨r, eof, errors⟩ = _
  split <;> rfl

theorem expect_eq {want : TokenKind} {t : Token} {r : List Token} (h : t.kind = want) :
    expect want ⟨t :: r, eof, errors⟩ = (⟨⟩, ⟨r, eof, errors⟩) := by
  change (if t.kind ≠ want then report t.pos (.expected want t) >>= fun _ => advance else advance)
    ⟨t :: r, eof, errors⟩ = _
  rw [if_neg (not_not_intro h)]
  rfl

/-- A numeral is read as one literal, whatever follows it. The induction is on the way it is written; the
two bounds are those on the minus signs in a row and on the nesting of parentheses. -/
theorem unaryWithin_numeral {n depth : Nat} (hts : ts.map Token.unplaced = x.tokens d)
    (hn : ts.length ≤ n) (hdepth : ts.length ≤ depth + 1) :
    ∃ pos place, unaryWithin (primary (exprWithin depth)) n ⟨ts ++ rest, eof, errors⟩ =
      (.number pos (x.value d), ⟨rest, eof, errors ++ x.complaints d place⟩) := by
  induction x generalizing n depth ts rest with
  | digits =>
    obtain ⟨t, rfl, ht⟩ := List.map_eq_singleton_iff.1 hts
    have hkind : t.kind = .int := kind_of_unplaced ht
    have hlexeme : t.lexeme = d := lexeme_of_unplaced ht
    have hhead : head ⟨[t] ++ rest, eof, errors⟩ = t := rfl
    refine ⟨t.pos, t.pos, ?_⟩
    rw [unaryWithin_of_ne (by rw [hhead, hkind]; decide), primary, current_bind, hhead, hkind]
    change literal t.pos false t ⟨rest, eof, errors⟩ = _
    rw [literal_eq, hlexeme]
    rfl
  | minus x ih =>
    obtain ⟨t, r, rfl, ht, hr⟩ := List.map_eq_cons_iff.1 hts
    have hkind : t.kind = .minus := kind_of_unplaced ht
    rw [List.length_cons] at hn hdepth
    obtain ⟨n, rfl⟩ := Nat.exists_eq_succ_of_ne_zero (show n ≠ 0 by omega)
    rw [List.cons_append, unaryWithin_minus hkind]
    cases x with
    | digits =>
      obtain ⟨u, rfl, hu⟩ := List.map_eq_singleton_iff.1 hr
      have hlexeme : u.lexeme = d := lexeme_of_unplaced hu
      have hhead : head ⟨[u] ++ rest, eof, errors⟩ = u := rfl
      refine ⟨t.pos, u.pos, ?_⟩
      rw [hhead, if_pos (kind_of_unplaced hu), literal_eq, hlexeme]
      rfl
    | minus y | parens y =>
      obtain ⟨pos, place, hread⟩ : ∃ pos place, unaryWithin (primary (exprWithin depth)) n
          ⟨r ++ rest, eof, errors⟩ = _ := ih hr (by omega) (by omega)
      obtain ⟨u, r, rfl, hu, -⟩ := List.map_eq_cons_iff.1 hr
      have hne : (head ⟨u :: r ++ rest, eof, errors⟩).kind ≠ .int := by
        have hfirst : u.kind = _ := kind_of_unplaced hu
        change u.kind ≠ .int
        rw [hfirst]
        decide
      refine ⟨t.pos, place, ?_⟩
      rw [if_neg hne, hread]
      rfl
  | parens x ih =>
    obtain ⟨t, r, rfl, ht, hr⟩ := List.map_eq_cons_iff.1 hts
    obtain ⟨inner, last, rfl, hinner, hlast⟩ := List.map_eq_append_iff.1 hr
    obtain ⟨u, rfl, hu⟩ := List.map_eq_singleton_iff.1 hlast
    have hkind : t.kind = .lParen := kind_of_unplaced ht
    have hclose : u.kind = .rParen := kind_of_unplaced hu
    simp only [List.length_cons, List.length_append, List.length_nil] at hn hdepth
    obtain ⟨depth, rfl⟩ := Nat.exists_eq_succ_of_ne_zero (show depth ≠ 0 by omega)
    obtain ⟨pos, place, hread⟩ : ∃ pos place, operandWithin depth ⟨inner ++ u :: rest, eof, errors⟩ =
        (.number pos (x.value d), ⟨u :: rest, eof, errors ++ x.complaints d place⟩) :=
      ih hinner (by simp; omega) (by omega)
    have hnext : (head ⟨u :: rest, eof, errors ++ x.complaints d place⟩).kind = .rParen := hclose
    have hexpr := exprWithin_eq hread (by rw [hnext]; decide)
    have hhead : head ⟨t :: (inner ++ [u]) ++ rest, eof, errors⟩ = t := rfl
    refine ⟨pos, place, ?_⟩
    rw [unaryWithin_of_ne (by rw [hhead, hkind]; decide), primary, current_bind, hhead, hkind]
    change (exprWithin (depth + 1) >>= fun e => expect .rParen >>= fun _ => pure e : Parser Node)
      ⟨inner ++ [u] ++ rest, eof, errors⟩ = _
    rw [List.append_assoc, List.singleton_append, bind_eq hexpr, bind_eq (expect_eq hclose)]
    rfl

/-- A numeral is read as one literal: as an operand, whatever follows it, and as an expression, if no
operator follows. -/
theorem numeral_reads (x : Numeral) {d : Bytes} (hne : d ≠ [])
    (hd : ∀ b ∈ d, Bytes.isDigit b = true) {ts : List Token}
    (hts : ts.map Token.unplaced = x.tokens d) (rest : List Token) (eof : Position)
    (errors : List ParseError) :
    (∀ depth, ts.length ≤ depth + 1 →
      x.ReadAs d rest ⟨ts ++ rest, eof, errors⟩ (operandWithin depth ⟨ts ++ rest, eof, errors⟩)) ∧
    ((∀ i ≤ 3, levelOperator? i (head ⟨rest, eof, errors⟩).kind = none) →
      x.ReadAs d rest ⟨ts ++ rest, eof, errors⟩ (expr ⟨ts ++ rest, eof, errors⟩)) := by
  have hoperand : ∀ depth, ts.length ≤ depth + 1 → ∃ pos place,
      operandWithin depth ⟨ts ++ rest, eof, errors⟩ =
        (.number pos (x.value d), ⟨rest, eof, errors ++ x.complaints d place⟩) :=
    fun depth hdepth => unaryWithin_numeral hts (by simp; omega) hdepth
  refine ⟨fun depth hdepth => ?_, fun hends => ?_⟩
  · obtain ⟨pos, place, hread⟩ := hoperand depth hdepth
    rw [hread]
    exact Numeral.readAs_value hne hd pos place
  · obtain ⟨pos, place, hread⟩ := hoperand (ts ++ rest).length (by simp; omega)
    have hexpr : expr ⟨ts ++ rest, eof, errors⟩ = _ := exprWithin_eq hread hends
    rw [hexpr]
    exact Numeral.readAs_value hne hd pos place

/-- Twice negated, the least integer is read without a report, and as itself. -/
theorem numeral_reads_least_negated :
    (Token.scan "- -9223372036854775808".toList).tokens.map Token.unplaced =
        (Numeral.minus (.minus .digits)).tokens (Bytes.ofString "9223372036854775808") ∧
      expr ⟨(Token.scan "- -9223372036854775808".toList).tokens ++ [], ⟨1, 23⟩, []⟩ =
        (.number ⟨1, 1⟩ Int64.minValue, ⟨[], ⟨1, 23⟩, []⟩) ∧
      (Numeral.minus (.minus .digits)).ReadAs (Bytes.ofString "9223372036854775808") []
        ⟨(Token.scan "- -9223372036854775808".toList).tokens ++ [], ⟨1, 23⟩, []⟩
        (expr ⟨(Token.scan "- -9223372036854775808".toList).tokens ++ [], ⟨1, 23⟩, []⟩) := by
  have htokens : (Token.scan "- -9223372036854775808".toList).tokens.map Token.unplaced =
      (Numeral.minus (.minus .digits)).tokens (Bytes.ofString "9223372036854775808") := by
    decide +kernel
  refine ⟨htokens, rfl, ?_⟩
  exact (numeral_reads _ (by decide +kernel) (by decide +kernel) htokens [] ⟨1, 23⟩ []).2
    (by decide +kernel)

end Parser

end UnitScript
