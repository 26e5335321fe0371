import UnitScript.Lowering.Compile
import UnitScript.Proofs.Computation

/-!
# The forms of compiled code

What a successful compilation of a node says about its parts and about the code: one lemma for each
kind of node. Later proofs use these and do not open the compiler's functions.
-/

namespace UnitScript

/-- The operand that stands for a number or a name without any code. -/
def Node.operand? : Node → Option Operand
  | .number _ value => some (.imm value)
  | .ident _ name => some (.cell name)
  | _ => none

namespace Node

/-- Nodes that have a value: these are compiled as expressions. -/
def isValue : Node → Bool
  | binary .. | property .. | index .. | call .. | array .. | ident .. | string .. | number .. => true
  | _ => false

/-- What goes down from a path to the call at its end holds of the arguments there. -/
theorem forall_mem_pathArgs {P Q : Node → Prop}
    (hproperty : ∀ {pos object member}, P (property pos object member) → P member)
    (hcall : ∀ {pos callee args}, P (call pos callee args) → ∀ a ∈ args, Q a) {n : Node} (h : P n) :
    ∀ a ∈ n.pathArgs, Q a := by
  fun_induction pathArgs n with
  | case1 pos object member ih => exact ih (hproperty h)
  | case2 pos callee args => exact hcall h
  | case3 => exact List.forall_mem_nil _

/-- Induction along the code of expressions: it is put together from that of the operands, of the index
and of the elements or arguments, which for a path are those of the call at its end. -/
@[elab_as_elim]
theorem induction_value {motive : Node → Prop} (number : ∀ pos value, motive (number pos value))
    (string : ∀ pos value, motive (string pos value)) (ident : ∀ pos name, motive (ident pos name))
    (binary : ∀ pos op left right type, motive left → motive right →
      motive (binary pos op left right type))
    (index : ∀ pos name i, motive i → motive (index pos name i))
    (array : ∀ pos elements, (∀ m ∈ elements, motive m) → motive (array pos elements))
    (call : ∀ pos callee args, (∀ m ∈ args, motive m) → motive (call pos callee args))
    (property : ∀ pos object member, (∀ m ∈ member.pathArgs, motive m) →
      motive (property pos object member))
    (other : ∀ n, n.isValue = false → motive n) (n : Node) : motive n := by
  induction hn : sizeOf n using Nat.strongRecOn generalizing n with
  | ind k ih =>
    subst hn
    have hlist : ∀ ns : List Node, sizeOf ns < sizeOf n → ∀ m ∈ ns, motive m := fun ns hns m hm =>
      ih _ (Nat.lt_trans (List.sizeOf_lt_of_mem hm) hns) m rfl
    cases n with
    | number pos value => exact number pos value
    | string pos value => exact string pos value
    | ident pos name => exact ident pos name
    | binary pos op left right type =>
      exact binary pos op left right type (ih _ (by rw [Node.binary.sizeOf_spec]; omega) left rfl)
        (ih _ (by rw [Node.binary.sizeOf_spec]; omega) right rfl)
    | index pos name i =>
      exact index pos name i (ih _ (by rw [Node.index.sizeOf_spec]; omega) i rfl)
    | array pos elements =>
      exact array pos elements (hlist elements (by rw [Node.array.sizeOf_spec]; omega))
    | call pos callee args =>
      exact call pos callee args (hlist args (by rw [Node.call.sizeOf_spec]; omega))
    | property pos object member =>
      have hargs : ∀ m ∈ member.pathArgs, sizeOf m < sizeOf member := by
        refine forall_mem_pathArgs (P := fun n => sizeOf n ≤ sizeOf member)
          (Q := fun n => sizeOf n < sizeOf member) ?_ ?_ (Nat.le_refl _)
        · intro pos object inner hinner
          rw [Node.property.sizeOf_spec] at hinner
          omega
        · intro pos callee args hcall m hm
          have hmem := List.sizeOf_lt_of_mem hm
          rw [Node.call.sizeOf_spec] at hcall
          omega
      exact property pos object member fun m hm =>
        ih _ (Nat.lt_trans (hargs m hm) (by rw [Node.property.sizeOf_spec]; omega)) m rfl
    | _ => exact other _ rfl

end Node

namespace Lowering

variable {ctx : Context} {live : Live} {st st' : State} {code : Code} {place : Operand}
  {pos namePos : Position} {name : Name} {n init callee : Node} {args elements rest body : List Node}
  {op : Operator} {type result : Option TypeExpr} {kind : Kind} {params : List Param}
  {slots : List Slot} {α : Type} {act : Lower α}

theorem simpleOperand?_eq_ok {o : Option Operand}
    (h : simpleOperand? n st = .ok (o, st')) : o = n.operand? ∧ st' = st := by
  cases n <;> simp only [simpleOperand?] at h <;>
    first
    | exact absurd h throw_ne_ok
    | (obtain ⟨rfl, rfl⟩ := pure_eq_ok.1 h
       exact ⟨rfl, rfl⟩)

theorem requireScalar_eq_ok {r : Code × Operand}
    (h : requireScalar ctx n r st = .ok (code, st')) : r = (code, ctx.primary) ∧ st' = st := by
  unfold requireScalar at h
  split at h
  · next hp =>
    obtain ⟨rfl, rfl⟩ := pure_eq_ok.1 h
    exact ⟨Prod.ext rfl hp, rfl⟩
  · exact absurd h throw_ne_ok

/-- The four forms of the code for a binary operation. -/
inductive BinaryCode (ctx : Context) (live : Live) (op : Operator) (left right : Node)
    (st st' : State) : Code → Prop where
  | direct {a b} : left.operand? = some a → right.operand? = some b → st' = st →
      BinaryCode ctx live op left right st st' [combine op a b ctx.primary]
  | onRight {a code} : left.operand? = some a → right.operand? = none →
      expr ctx live right st = .ok ((code, ctx.primary), st') →
      BinaryCode ctx live op left right st st' (code ++ [combine op a ctx.primary ctx.primary])
  | onLeft {b code} : left.operand? = none → right.operand? = some b →
      expr ctx live left st = .ok ((code, ctx.primary), st') →
      BinaryCode ctx live op left right st st' (code ++ [combine op ctx.primary b ctx.primary])
  | onBoth {leftCode rightCode mid} : left.operand? = none → right.operand? = none →
      expr ctx live left st = .ok ((leftCode, ctx.primary), mid) →
      expr ctx live.withSecondary right mid = .ok ((rightCode, ctx.primary), st') →
      BinaryCode ctx live op left right st st'
        (leftCode ++ ctx.cellDeclaration .secondary live.secondary ++
          [.mov ctx.primary (.cell (ctx.cellName .secondary live.secondary))] ++ rightCode ++
          [combine op (.cell (ctx.cellName .secondary live.secondary)) ctx.primary ctx.primary])

theorem expr_binary_eq_ok {left right : Node}
    (h : expr ctx live (.binary pos op left right type) st = .ok ((code, place), st')) :
    (op.isArithmetic || op.isComparison) = true ∧ place = ctx.primary ∧
      BinaryCode ctx live op left right st st' code := by
  rw [expr] at h
  have hop : (op.isArithmetic || op.isComparison) = true := by
    cases hop : op.isArithmetic || op.isComparison with
    | true => rfl
    | false =>
      rw [if_pos (by rw [hop]; rfl)] at h
      obtain ⟨_, _, ht, _⟩ := bind_eq_ok.1 h
      exact absurd ht throw_ne_ok
  rw [if_neg (by rw [hop]; decide)] at h
  obtain ⟨a, _, ha, h₁⟩ := bind_eq_ok.1 h
  obtain ⟨hleft, rfl⟩ := simpleOperand?_eq_ok ha
  obtain ⟨b, _, hb, h₂⟩ := bind_eq_ok.1 h₁
  obtain ⟨hright, rfl⟩ := simpleOperand?_eq_ok hb
  clear h h₁ ha hb
  refine ⟨hop, ?_⟩
  cases a with
  | some a =>
    cases b with
    | some b =>
      obtain ⟨hcode, rfl⟩ := pure_eq_ok.1 h₂
      cases hcode
      exact ⟨rfl, .direct hleft.symm hright.symm rfl⟩
    | none =>
      obtain ⟨r, u, hr, h₃⟩ := bind_eq_ok.1 h₂
      obtain ⟨c, v, hc, h₄⟩ := bind_eq_ok.1 h₃
      obtain ⟨rfl, rfl⟩ := requireScalar_eq_ok hc
      obtain ⟨hcode, rfl⟩ := pure_eq_ok.1 h₄
      cases hcode
      exact ⟨rfl, .onRight hleft.symm hright.symm hr⟩
  | none =>
    cases b with
    | some b =>
      obtain ⟨r, u, hr, h₃⟩ := bind_eq_ok.1 h₂
      obtain ⟨c, v, hc, h₄⟩ := bind_eq_ok.1 h₃
      obtain ⟨rfl, rfl⟩ := requireScalar_eq_ok hc
      obtain ⟨hcode, rfl⟩ := pure_eq_ok.1 h₄
      cases hcode
      exact ⟨rfl, .onLeft hleft.symm hright.symm hr⟩
    | none =>
      obtain ⟨r, u, hr, h₃⟩ := bind_eq_ok.1 h₂
      obtain ⟨c, v, hc, h₄⟩ := bind_eq_ok.1 h₃
      obtain ⟨rfl, rfl⟩ := requireScalar_eq_ok hc
      obtain ⟨r', u', hr', h₅⟩ := bind_eq_ok.1 h₄
      obtain ⟨c', v', hc', h₆⟩ := bind_eq_ok.1 h₅
      obtain ⟨rfl, rfl⟩ := requireScalar_eq_ok hc'
      obtain ⟨hcode, rfl⟩ := pure_eq_ok.1 h₆
      cases hcode
      exact ⟨rfl, .onBoth hleft.symm hright.symm hr hr'⟩

theorem expr_index_eq_ok {index : Node}
    (h : expr ctx live (.index pos name index) st = .ok ((code, place), st')) :
    place = ctx.primary ∧ ∃ indexCode,
      expr ctx live index st = .ok ((indexCode, ctx.primary), st') ∧
      code = indexCode ++ [.arith .add (.cell name) ctx.primary ctx.primary,
        .deref ctx.primary ctx.primary] := by
  obtain ⟨r, u, hr, h₁⟩ := bind_eq_ok.1 h
  obtain ⟨c, v, hc, h₂⟩ := bind_eq_ok.1 h₁
  obtain ⟨rfl, rfl⟩ := requireScalar_eq_ok hc
  obtain ⟨hcode, rfl⟩ := pure_eq_ok.1 h₂
  cases hcode
  exact ⟨rfl, c, hr, rfl⟩

theorem expr_array_eq_ok
    (h : expr ctx live (.array pos elements) st = .ok ((code, place), st')) :
    place = ctx.primary ∧ ∃ stores,
      storeAll ctx live.withAggregate (.cell (ctx.cellName .aggregate live.aggregate)) 0 elements
          st =
        .ok (stores, st') ∧
      code = ctx.cellDeclaration .aggregate live.aggregate ++
        [.alloc .i64 (Int64.ofNat elements.length)
          (.cell (ctx.cellName .aggregate live.aggregate))] ++
        stores ++ [.mov (.cell (ctx.cellName .aggregate live.aggregate)) ctx.primary] := by
  obtain ⟨stores, u, hs, h₁⟩ := bind_eq_ok.1 h
  obtain ⟨hcode, rfl⟩ := pure_eq_ok.1 h₁
  cases hcode
  exact ⟨rfl, stores, hs, rfl⟩

theorem kindOf?_eq_ok {k : Option Kind} (h : kindOf? name st = .ok (k, st')) : st' = st := by
  obtain ⟨s, w, hget, hpure⟩ := bind_eq_ok.1 h
  obtain ⟨rfl, rfl⟩ := get_eq_ok.1 hget
  exact (pure_eq_ok.1 hpure).2.symm

theorem placeOf_eq_ok (h : placeOf ctx name st = .ok (place, st')) :
    (place = ctx.primary ∨ place = ctx.structSlot) ∧ st' = st := by
  obtain ⟨k, v, hk, h₁⟩ := bind_eq_ok.1 h
  obtain rfl := kindOf?_eq_ok hk
  cases k with
  | none =>
    obtain ⟨rfl, rfl⟩ := pure_eq_ok.1 h₁
    exact ⟨.inl rfl, rfl⟩
  | some kind =>
    obtain ⟨rfl, rfl⟩ := pure_eq_ok.1 h₁
    refine ⟨?_, rfl⟩
    unfold Context.place
    split
    · exact .inr rfl
    · exact .inl rfl

theorem expr_ident_eq_ok (h : expr ctx live (.ident pos name) st = .ok ((code, place), st')) :
    (place = ctx.primary ∨ place = ctx.structSlot) ∧ code = [.mov (.cell name) place] ∧
      st' = st := by
  obtain ⟨p, u, hp, h₁⟩ := bind_eq_ok.1 h
  obtain ⟨hcode, rfl⟩ := pure_eq_ok.1 h₁
  cases hcode
  obtain ⟨hplace, rfl⟩ := placeOf_eq_ok hp
  exact ⟨hplace, rfl, rfl⟩

theorem expr_of_not_isValue (h : n.isValue = false) (ctx : Context) (live : Live) :
    expr ctx live n = throw (.ofNode .unsupportedConstruct n (n.shape ++ " in expression position")) := by
  cases n with
  | number | string | ident | binary | index | array | call | property => cases h
  | _ =>
    rw [expr]
    all_goals
      intros
      contradiction

theorem isValue_of_expr (h : expr ctx live n st = .ok ((code, place), st')) : n.isValue = true := by
  cases hn : n.isValue with
  | true => rfl
  | false =>
    rw [expr_of_not_isValue hn] at h
    exact absurd h throw_ne_ok

def nextString (ctx : Context) (st : State) : Name :=
  ctx.unitName ++ ".str" ++ Bytes.ofNat st.strings

def withString (ctx : Context) (st : State) (value : Bytes) : State :=
  { st with
    strings := st.strings + 1
    data := st.data ++ [({ name := nextString ctx st, value := value } : Datum)] }

theorem addString_eq_ok {value : Bytes} (h : addString ctx value st = .ok (name, st')) :
    name = nextString ctx st ∧ st' = withString ctx st value := by
  unfold addString at h
  obtain ⟨s, u, hget, h₁⟩ := bind_eq_ok.1 h
  obtain ⟨rfl, rfl⟩ := get_eq_ok.1 hget
  obtain ⟨_, v, hset, h₂⟩ := bind_eq_ok.1 h₁
  obtain rfl := set_eq_ok.1 hset
  obtain ⟨rfl, rfl⟩ := pure_eq_ok.1 h₂
  exact ⟨rfl, rfl⟩

theorem expr_string_eq_ok {value : Bytes}
    (h : expr ctx live (.string pos value) st = .ok ((code, place), st')) :
    place = ctx.structSlot ∧ code = [.mov (.data (nextString ctx st)) ctx.structSlot] ∧
      st' = withString ctx st value := by
  obtain ⟨name, u, hs, h₁⟩ := bind_eq_ok.1 h
  obtain ⟨rfl, rfl⟩ := addString_eq_ok hs
  obtain ⟨hcode, rfl⟩ := pure_eq_ok.1 h₁
  cases hcode
  exact ⟨rfl, rfl, rfl⟩

theorem expr_number_eq_ok {value : Int64}
    (h : expr ctx live (.number pos value) st = .ok ((code, place), st')) :
    place = ctx.primary ∧ code = [.mov (.imm value) ctx.primary] ∧ st' = st := by
  obtain ⟨hcode, rfl⟩ := pure_eq_ok.1 h
  cases hcode
  exact ⟨rfl, rfl, rfl⟩

/-- The code that brings the value of a node within reach of an operand: none for a number, a name
or a string, which stand for themselves, and that of the expression otherwise. -/
inductive Reach (ctx : Context) (live : Live) (n : Node) (st st' : State) :
    Code → Operand → Prop where
  | operand {o : Operand} : n.operand? = some o → st' = st → Reach ctx live n st st' [] o
  | string {pos : Position} {value : Bytes} : n = .string pos value →
      st' = withString ctx st value → Reach ctx live n st st' [] (.data (nextString ctx st))
  | computed {c : Code} {o : Operand} : expr ctx live n st = .ok ((c, o), st') →
      Reach ctx live n st st' c o

theorem direct?_eq_ok (live : Live) {o : Option Operand}
    (h : direct? ctx n st = .ok (o, st')) :
    match o with
    | some src => Reach ctx live n st st' [] src
    | none => st' = st := by
  cases n with
  | number | ident =>
    obtain ⟨rfl, rfl⟩ := pure_eq_ok.1 h
    exact .operand rfl rfl
  | string pos value =>
    simp only [direct?] at h
    obtain ⟨name, u, hs, h₁⟩ := bind_eq_ok.1 h
    obtain ⟨rfl, rfl⟩ := addString_eq_ok hs
    obtain ⟨rfl, rfl⟩ := pure_eq_ok.1 h₁
    exact .string rfl rfl
  | array | binary | index | property | call | cond | loop | ret | pass | func | importUnit | param
  | type | program | missing =>
    obtain ⟨rfl, rfl⟩ := pure_eq_ok.1 h
    rfl

/-- Hands the values of nodes over one after the other, the one at index `k` by the instruction
`f k`. -/
def handAll (ctx : Context) (live : Live) (f : Nat → Operand → Instruction) (k : Nat) :
    List Node → Lower Code
  | [] => return []
  | n :: rest => do
    let first ←
      match ← direct? ctx n with
      | some src => pure [f k src]
      | none => do
        let (code, place) ← expr ctx live n
        pure (code ++ [f k place])
    return first ++ (← handAll ctx live f (k + 1) rest)

theorem pushAll_eq (ctx : Context) (live : Live) (args : List Node) (k : Nat) :
    pushAll ctx live args = handAll ctx live (fun _ => .push) k args := by
  induction args generalizing k with
  | nil => rfl
  | cons arg rest ih =>
    rw [pushAll, ih (k + 1)]
    rfl

theorem storeAll_eq (ctx : Context) (live : Live) (ptr : Operand) (k : Nat) (elements : List Node) :
    storeAll ctx live ptr k elements =
      handAll ctx live (fun i src => .pmov src ptr (.imm (Int64.ofNat i))) k elements := by
  induction elements generalizing k with
  | nil => rfl
  | cons element rest ih =>
    rw [storeAll, ih]
    rfl

theorem handAll_cons_eq_ok {f : Nat → Operand → Instruction} {k : Nat}
    (h : handAll ctx live f k (n :: rest) st = .ok (code, st')) :
    ∃ first src mid more, Reach ctx live n st mid first src ∧
      handAll ctx live f (k + 1) rest mid = .ok (more, st') ∧ code = first ++ [f k src] ++ more := by
  obtain ⟨o, u, ho, h₁⟩ := bind_eq_ok.1 h
  have hd := direct?_eq_ok live ho
  cases o with
  | some src =>
    obtain ⟨c, v, hc, h₂⟩ := bind_eq_ok.1 h₁
    obtain ⟨rfl, rfl⟩ := pure_eq_ok.1 hc
    obtain ⟨more, w, hm, h₃⟩ := bind_eq_ok.1 h₂
    obtain ⟨rfl, rfl⟩ := pure_eq_ok.1 h₃
    exact ⟨[], src, _, more, hd, hm, rfl⟩
  | none =>
    obtain rfl : u = st := hd
    obtain ⟨⟨c, src⟩, v, hc, h₂⟩ := bind_eq_ok.1 h₁
    obtain ⟨first, w, hfirst, h₃⟩ := bind_eq_ok.1 h₂
    obtain ⟨rfl, rfl⟩ := pure_eq_ok.1 hfirst
    obtain ⟨more, x, hm, h₄⟩ := bind_eq_ok.1 h₃
    obtain ⟨rfl, rfl⟩ := pure_eq_ok.1 h₄
    exact ⟨c, src, _, more, .computed hc, hm, rfl⟩

theorem storeAll_cons_eq_ok {ptr : Operand} {i : Nat} {element : Node}
    (h : storeAll ctx live ptr i (element :: rest) st = .ok (code, st')) :
    ∃ first src mid more, Reach ctx live element st mid first src ∧
      storeAll ctx live ptr (i + 1) rest mid = .ok (more, st') ∧
      code = first ++ [.pmov src ptr (.imm (Int64.ofNat i))] ++ more := by
  simp only [storeAll_eq] at h ⊢
  exact handAll_cons_eq_ok h

theorem pushAll_cons_eq_ok {arg : Node}
    (h : pushAll ctx live (arg :: rest) st = .ok (code, st')) :
    ∃ first src mid more, Reach ctx live arg st mid first src ∧
      pushAll ctx live rest mid = .ok (more, st') ∧ code = first ++ [.push src] ++ more := by
  rw [pushAll_eq _ _ _ 0] at h
  rw [pushAll_eq _ _ _ 1]
  exact handAll_cons_eq_ok h

/-- The values of nodes are handed over one after the other, each by an instruction of its own. -/
inductive Hands (ctx : Context) (live : Live) (f : Nat → Operand → Instruction) :
    Nat → List Node → State → State → Code → Prop where
  | nil {k st} : Hands ctx live f k [] st st []
  | cons {k n rest st mid st' c src more} : Reach ctx live n st mid c src →
      Hands ctx live f (k + 1) rest mid st' more →
      Hands ctx live f k (n :: rest) st st' (c ++ [f k src] ++ more)

theorem hands_of_handAll {f : Nat → Operand → Instruction} {k : Nat}
    (h : handAll ctx live f k args st = .ok (code, st')) : Hands ctx live f k args st st' code := by
  induction args generalizing st code k with
  | nil =>
    obtain ⟨rfl, rfl⟩ := pure_eq_ok.1 h
    exact .nil
  | cons arg rest ih =>
    obtain ⟨first, src, mid, more, hr, hm, rfl⟩ := handAll_cons_eq_ok h
    exact .cons hr (ih hm)

theorem hands_of_pushAll (h : pushAll ctx live args st = .ok (code, st'))
    (k : Nat) : Hands ctx live (fun _ => .push) k args st st' code := by
  rw [pushAll_eq _ _ _ k] at h
  exact hands_of_handAll h

theorem hands_of_storeAll {ptr : Operand} {k : Nat}
    (h : storeAll ctx live ptr k elements st = .ok (code, st')) :
    Hands ctx live (fun i src => .pmov src ptr (.imm (Int64.ofNat i))) k elements st st' code := by
  rw [storeAll_eq] at h
  exact hands_of_handAll h

def State.callKind (st : State) (name : Name) : Kind := (st.symbols.lookup? name).getD .number

/-- The call of a name behind the pushes of its arguments, and the cell that the result is left in. -/
def callOf (ctx : Context) (st : State) (name : Name) : Code × Operand :=
  let kind := st.callKind name
  let target : Operand := if kind.isCallback then .cell name else .func name
  (.call target :: (popResult ctx kind.returned).1, (popResult ctx kind.returned).2)

theorem callAndPop_eq (ctx : Context) (st : State) (name : Name) :
    callAndPop ctx name st = .ok (callOf ctx st name, st) := rfl

theorem expr_call_form
    (h : expr ctx live (.call pos callee args) st = .ok ((code, place), st')) :
    ∃ name pushes, callee.pathName? = some (name, false) ∧
      pushAll ctx live args st = .ok (pushes, st') ∧ code = pushes ++ (callOf ctx st' name).1 ∧
      place = (callOf ctx st' name).2 := by
  rw [expr] at h
  match hp : callee.pathName? with
  | some (name, false) =>
    simp only [hp] at h
    obtain ⟨pushes, u, hpush, h₁⟩ := bind_eq_ok.1 h
    obtain ⟨r, v, hc, h₂⟩ := bind_eq_ok.1 h₁
    rw [callAndPop_eq] at hc
    cases hc
    obtain ⟨hcode, rfl⟩ := pure_eq_ok.1 h₂
    cases hcode
    exact ⟨name, pushes, rfl, hpush, rfl, rfl⟩
  | some (name, true) | none =>
    simp only [hp] at h
    exact absurd h throw_ne_ok

theorem pushPathArgs_eq (ctx : Context) (live : Live) (n : Node) :
    pushPathArgs ctx live n = pushAll ctx live n.pathArgs := by
  fun_induction Node.pathArgs n with
  | case1 _ _ member ih => exact ih
  | case2 => rfl
  | case3 n hproperty hcall => cases n <;> simp_all [pushPathArgs, pushAll]

/-- The two forms of the code for a path: a call of its name, or a read of the cell with its name. -/
inductive PathForm (ctx : Context) (live : Live) (path member : Node) (st st' : State) :
    Code → Operand → Prop where
  | call {name : Name} {pushes} : path.pathName? = some (name, true) →
      pushAll ctx live member.pathArgs st = .ok (pushes, st') →
      PathForm ctx live path member st st' (pushes ++ (callOf ctx st' name).1) (callOf ctx st' name).2
  | cell {name : Name} {place} : path.pathName? = some (name, false) →
      place = ctx.primary ∨ place = ctx.structSlot → st' = st →
      PathForm ctx live path member st st' [.mov (.cell name) place] place

theorem expr_property_form {object member : Node}
    (h : expr ctx live (.property pos object member) st = .ok ((code, place), st')) :
    PathForm ctx live (.property pos object member) member st st' code place := by
  rw [expr] at h
  match hp : (Node.property pos object member).pathName? with
  | none =>
    simp only [hp] at h
    exact absurd h throw_ne_ok
  | some (name, true) =>
    simp only [hp, pushPathArgs_eq] at h
    obtain ⟨pushes, u, hpush, h₁⟩ := bind_eq_ok.1 h
    obtain ⟨r, v, hc, h₂⟩ := bind_eq_ok.1 h₁
    rw [callAndPop_eq] at hc
    cases hc
    obtain ⟨hcode, rfl⟩ := pure_eq_ok.1 h₂
    cases hcode
    exact .call hp hpush
  | some (name, false) =>
    simp only [hp] at h
    obtain ⟨p, u, hread, h₁⟩ := bind_eq_ok.1 h
    obtain ⟨hplace, rfl⟩ := placeOf_eq_ok hread
    obtain ⟨hcode, rfl⟩ := pure_eq_ok.1 h₁
    cases hcode
    exact .cell hp hplace rfl

/-- The code of a call behind the pushes of its arguments. -/
inductive CallCode (ctx : Context) : Code → Operand → Prop where
  | pops (target : Operand) {place : Operand} : place = ctx.primary ∨ place = ctx.structSlot →
      CallCode ctx [.call target, .pop place] place
  | leaves (target : Operand) : CallCode ctx [.call target, .nop] ctx.primary

theorem callCode_popResult (ctx : Context) (target : Operand) (k : Kind) :
    CallCode ctx (.call target :: (popResult ctx k).1) (popResult ctx k).2 := by
  unfold popResult
  split
  · exact .pops target (.inr rfl)
  · exact .pops target (.inr rfl)
  · exact .leaves target
  · exact .leaves target
  · exact .pops target (.inl rfl)

theorem callCode_callOf (ctx : Context) (st : State) (name : Name) :
    CallCode ctx (callOf ctx st name).1 (callOf ctx st name).2 :=
  callCode_popResult ctx _ _

theorem expr_call_eq_ok
    (h : expr ctx live (.call pos callee args) st = .ok ((code, place), st')) :
    ∃ pushes calls, pushAll ctx live args st = .ok (pushes, st') ∧ CallCode ctx calls place ∧
      code = pushes ++ calls := by
  obtain ⟨name, pushes, -, hpush, rfl, rfl⟩ := expr_call_form h
  exact ⟨pushes, _, hpush, callCode_callOf ctx st' name, rfl⟩

/-- The two forms of the code for a path: a call, or a read of the cell with the path's name. -/
inductive PathCode (ctx : Context) (live : Live) (member : Node) (st st' : State) :
    Code → Operand → Prop where
  | call {pushes calls place} : pushAll ctx live member.pathArgs st = .ok (pushes, st') →
      CallCode ctx calls place → PathCode ctx live member st st' (pushes ++ calls) place
  | cell (name : Name) {place} : place = ctx.primary ∨ place = ctx.structSlot → st' = st →
      PathCode ctx live member st st' [.mov (.cell name) place] place

theorem expr_property_eq_ok {object member : Node}
    (h : expr ctx live (.property pos object member) st = .ok ((code, place), st')) :
    PathCode ctx live member st st' code place := by
  cases expr_property_form h with
  | call hname hpush => exact .call hpush (callCode_callOf ctx st' _)
  | cell hname hplace hst => exact .cell _ hplace hst

theorem value_eq_ok (h : value ctx n st = .ok ((code, place), st')) :
    Reach ctx .none n st st' code place := by
  unfold value at h
  obtain ⟨o, u, ho, h₁⟩ := bind_eq_ok.1 h
  have hd := direct?_eq_ok .none ho
  cases o with
  | some src =>
    obtain ⟨hcode, rfl⟩ := pure_eq_ok.1 h₁
    cases hcode
    exact hd
  | none =>
    obtain rfl : u = st := hd
    exact .computed h₁

/-! ## Statements -/

def SameStrings (st st' : State) : Prop := st'.strings = st.strings ∧ st'.data = st.data

theorem store_eq_ok (h : store ctx n name st = .ok (code, st')) :
    ∃ c src, Reach ctx .none n st st' c src ∧ code = c ++ [.mov src (.cell name)] := by
  unfold store at h
  obtain ⟨⟨c, src⟩, u, hv, h₁⟩ := bind_eq_ok.1 h
  obtain ⟨rfl, rfl⟩ := pure_eq_ok.1 h₁
  exact ⟨c, src, value_eq_ok hv, rfl⟩

theorem declaredKind_eq_ok (h : declaredKind type init st = .ok (kind, st')) : st' = st := by
  simp only [declaredKind] at h
  split at h
  · exact (pure_eq_ok.1 h).2.symm
  · obtain ⟨s, u, hget, h₁⟩ := bind_eq_ok.1 h
    obtain ⟨rfl, rfl⟩ := get_eq_ok.1 hget
    cases hi : u.symbols.infer init with
    | ok k =>
      simp only [hi] at h₁
      exact (pure_eq_ok.1 h₁).2.symm
    | error e =>
      simp only [hi] at h₁
      exact absurd h₁ throw_ne_ok

theorem declare_symbols {x : Unit} (h : declare pos name kind st = .ok (x, st')) :
    ∃ symbols, st.symbols.declare name kind = .ok symbols ∧
      st' = { st with symbols := symbols } := by
  unfold declare at h
  obtain ⟨s, u, hget, h₁⟩ := bind_eq_ok.1 h
  obtain ⟨rfl, rfl⟩ := get_eq_ok.1 hget
  cases hd : u.symbols.declare name kind with
  | ok symbols =>
    simp only [hd] at h₁
    obtain rfl := set_eq_ok.1 h₁
    exact ⟨symbols, rfl, rfl⟩
  | error e =>
    simp only [hd] at h₁
    exact absurd h₁ throw_ne_ok

theorem declare_eq_ok {x : Unit}
    (h : declare pos name kind st = .ok (x, st')) : SameStrings st st' := by
  obtain ⟨symbols, -, rfl⟩ := declare_symbols h
  exact ⟨rfl, rfl⟩

theorem guard_eq_ok {p : Prop} [Decidable p] {e : CompileError} {a : α}
    (h : (if p then do throw e; act else act) st = .ok (a, st')) : ¬p ∧ act st = .ok (a, st') := by
  split at h
  · obtain ⟨_, _, ht, _⟩ := bind_eq_ok.1 h
    exact absurd ht throw_ne_ok
  · next hp => exact ⟨hp, h⟩

theorem exists_ident_of_declareCell {target : Node}
    (h : declareCell ctx pos target init type st = .ok (code, st')) :
    ∃ namePos name, target = .ident namePos name := by
  cases target with
  | ident namePos name => exact ⟨namePos, name, rfl⟩
  | _ => exact absurd h throw_ne_ok

theorem exists_ident_of_assign {target source : Node}
    (h : assign ctx target source st = .ok (code, st')) :
    ∃ namePos name, target = .ident namePos name := by
  cases target with
  | ident namePos name => exact ⟨namePos, name, rfl⟩
  | _ => exact absurd h throw_ne_ok

/-- The value of a variable is computed when the variable's kind has been recorded. -/
theorem declareCell_states
    (h : declareCell ctx pos (.ident namePos name) init type st = .ok (code, st')) :
    ctx.scratch.isReserved name = false ∧ ∃ kind storage mid c src,
      declare namePos name kind st = .ok ((), mid) ∧ Reach ctx .none init mid st' c src ∧
      code = .var storage name :: (c ++ [.mov src (.cell name)]) := by
  unfold declareCell at h
  obtain ⟨hres, h₁⟩ := guard_eq_ok h
  obtain ⟨kind, u, hk, h₂⟩ := bind_eq_ok.1 h₁
  obtain rfl := declaredKind_eq_ok hk
  obtain ⟨-, h₃⟩ := guard_eq_ok h₂
  obtain ⟨_, mid, hd, h₄⟩ := bind_eq_ok.1 h₃
  obtain ⟨body, w, hs, h₅⟩ := bind_eq_ok.1 h₄
  obtain ⟨c, src, hreach, rfl⟩ := store_eq_ok hs
  obtain ⟨rfl, rfl⟩ := pure_eq_ok.1 h₅
  exact ⟨by simpa using hres, kind, _, mid, c, src, hd, hreach, rfl⟩

theorem assign_states {source : Node}
    (h : assign ctx (.ident namePos name) source st = .ok (code, st')) :
    ctx.scratch.isReserved name = false ∧ st.symbols.lookup? name ≠ none ∧
      ∃ c src, Reach ctx .none source st st' c src ∧ code = c ++ [.mov src (.cell name)] := by
  unfold assign at h
  obtain ⟨hres, h₁⟩ := guard_eq_ok h
  obtain ⟨k, u, hk, h₂⟩ := bind_eq_ok.1 h₁
  cases hk
  obtain ⟨hknown, h₃⟩ := guard_eq_ok h₂
  exact ⟨by simpa using hres, by simpa using hknown, store_eq_ok h₃⟩

def State.entered (st : State) : State := { st with symbols := st.symbols.enter }

def State.left (st : State) : State := { st with symbols := st.symbols.leave }

theorem inBlock_states {a : α} (h : inBlock act st = .ok (a, st')) :
    ∃ last, act st.entered = .ok (a, last) ∧ st' = last.left := by
  unfold inBlock at h
  obtain ⟨_, u, hm, h₁⟩ := bind_eq_ok.1 h
  obtain rfl := modify_eq_ok.1 hm
  obtain ⟨b, v, hact, h₂⟩ := bind_eq_ok.1 h₁
  obtain ⟨_, w, hm', h₃⟩ := bind_eq_ok.1 h₂
  obtain rfl := modify_eq_ok.1 hm'
  obtain ⟨rfl, rfl⟩ := pure_eq_ok.1 h₃
  exact ⟨v, hact, rfl⟩

theorem inBlock_eq_ok {a : α} (h : inBlock act st = .ok (a, st')) :
    ∃ u v, SameStrings st u ∧ act u = .ok (a, v) ∧ SameStrings v st' := by
  obtain ⟨last, hact, rfl⟩ := inBlock_states h
  exact ⟨st.entered, last, ⟨rfl, rfl⟩, hact, rfl, rfl⟩

theorem stmt_binary_eq {left right : Node} (hdecl : op ≠ .declare) (hassign : op ≠ .assign) :
    stmt ctx (.binary pos op left right type) =
      Prod.fst <$> expr ctx .none (.binary pos op left right type) := by
  cases op <;> first | rfl | exact absurd rfl hdecl | exact absurd rfl hassign

theorem stmt_binary_eq_ok {left right : Node}
    (h : stmt ctx (.binary pos op left right type) st = .ok (code, st')) :
    (op = .declare ∧ declareCell ctx pos left right type st = .ok (code, st')) ∨
      (op = .assign ∧ assign ctx left right st = .ok (code, st')) ∨
      ∃ place, expr ctx .none (.binary pos op left right type) st = .ok ((code, place), st') := by
  by_cases hdecl : op = .declare
  · subst hdecl
    exact .inl ⟨rfl, h⟩
  by_cases hassign : op = .assign
  · subst hassign
    exact .inr (.inl ⟨rfl, h⟩)
  rw [stmt_binary_eq hdecl hassign] at h
  obtain ⟨⟨c, place⟩, he, rfl⟩ := map_eq_ok.1 h
  exact .inr (.inr ⟨place, he⟩)

theorem stmt_cond_eq_ok {test : Node} {yes no : List Node}
    (h : stmt ctx (.cond pos test yes no) st = .ok (code, st')) :
    ∃ c place mid yesCode mid' noCode, expr ctx .none test st = .ok ((c, place), mid) ∧
      inBlock (stmts ctx yes) mid = .ok (yesCode, mid') ∧
      inBlock (stmts ctx no) mid' = .ok (noCode, st') ∧
      code = c ++ [condScope place yesCode noCode] := by
  obtain ⟨⟨c, place⟩, u, hc, h₁⟩ := bind_eq_ok.1 h
  obtain ⟨yesCode, v, hy, h₂⟩ := bind_eq_ok.1 h₁
  obtain ⟨noCode, w, hn, h₃⟩ := bind_eq_ok.1 h₂
  obtain ⟨rfl, rfl⟩ := pure_eq_ok.1 h₃
  exact ⟨c, place, u, yesCode, v, noCode, hc, hy, hn, rfl⟩

theorem stmt_loop_eq_ok {test : Node}
    (h : stmt ctx (.loop pos test body) st = .ok (code, st')) :
    ∃ c place mid bodyCode, expr ctx .none test st = .ok ((c, place), mid) ∧
      inBlock (stmts ctx body) mid = .ok (bodyCode, st') ∧ code = [loopScope c place bodyCode] := by
  obtain ⟨⟨c, place⟩, u, hc, h₁⟩ := bind_eq_ok.1 h
  obtain ⟨bodyCode, v, hb, h₂⟩ := bind_eq_ok.1 h₁
  obtain ⟨rfl, rfl⟩ := pure_eq_ok.1 h₂
  exact ⟨c, place, u, bodyCode, hc, hb, rfl⟩

theorem stmt_ret_eq (hn : n ≠ .missing) :
    stmt ctx (.ret pos n) = (do let (code, src) ← value ctx n; return code ++ [.ret [src]]) := by
  cases n <;> first | rfl | exact absurd rfl hn

theorem stmt_ret_eq_ok (hn : n ≠ .missing) (h : stmt ctx (.ret pos n) st = .ok (code, st')) :
    ∃ c src, Reach ctx .none n st st' c src ∧ code = c ++ [.ret [src]] := by
  rw [stmt_ret_eq hn] at h
  obtain ⟨⟨c, src⟩, u, hv, h₁⟩ := bind_eq_ok.1 h
  obtain ⟨rfl, rfl⟩ := pure_eq_ok.1 h₁
  exact ⟨c, src, value_eq_ok hv, rfl⟩

theorem mergeData_eq_ok {more : List Datum} {x : Unit}
    (h : mergeData pos more st = .ok (x, st')) :
    ∃ data, Datum.merge st.data more = (data, none) ∧ st' = { st with data := data } := by
  unfold mergeData at h
  obtain ⟨s, u, hget, h₁⟩ := bind_eq_ok.1 h
  obtain ⟨rfl, rfl⟩ := get_eq_ok.1 hget
  match hm : Datum.merge u.data more with
  | (data, none) =>
    simp only [hm] at h₁
    obtain rfl := set_eq_ok.1 h₁
    exact ⟨data, rfl, rfl⟩
  | (_, some name) =>
    simp only [hm] at h₁
    exact absurd h₁ throw_ne_ok

theorem splice_states (h : splice ctx pos name st = .ok (code, st')) :
    ∃ includer unit data, ctx.includer = some includer ∧ includer name = .ok unit ∧
      code = unit.code ∧ Datum.merge st.data unit.data = (data, none) ∧
      st' = { st with data := data } := by
  unfold splice at h
  cases hinc : ctx.includer with
  | none =>
    simp only [hinc] at h
    exact absurd h throw_ne_ok
  | some includer =>
    cases hunit : includer name with
    | error e =>
      simp only [hinc, hunit] at h
      exact absurd h throw_ne_ok
    | ok unit =>
      simp only [hinc, hunit] at h
      obtain ⟨_, u, hmerge, h₁⟩ := bind_eq_ok.1 h
      obtain ⟨data, hdata, rfl⟩ := mergeData_eq_ok hmerge
      obtain ⟨rfl, rfl⟩ := pure_eq_ok.1 h₁
      exact ⟨includer, unit, data, rfl, hunit, rfl, hdata, rfl⟩

theorem splice_eq_ok (h : splice ctx pos name st = .ok (code, st')) :
    ∃ includer unit, ctx.includer = some includer ∧ includer name = .ok unit ∧ code = unit.code ∧
      Datum.merge st.data unit.data = (st'.data, none) ∧ st'.strings = st.strings := by
  obtain ⟨includer, unit, data, hinc, hunit, hcode, hdata, rfl⟩ := splice_states h
  exact ⟨includer, unit, hinc, hunit, hcode, hdata, rfl⟩

theorem parameters_cons_eq_ok {p : Param}
    (h : parameters ctx (p :: params) st = .ok (slots, st')) :
    ctx.scratch.isReserved p.name = false ∧ ∃ mid more,
      declare p.pos p.name (.orNumber p.type) st = .ok ((), mid) ∧
      parameters ctx params mid = .ok (more, st') ∧ slots.length = more.length + 1 := by
  rw [parameters] at h
  obtain ⟨hres, h₁⟩ := guard_eq_ok h
  obtain ⟨-, h₂⟩ := guard_eq_ok h₁
  obtain ⟨_, mid, hd, h₃⟩ := bind_eq_ok.1 h₂
  obtain ⟨more, last, hm, h₄⟩ := bind_eq_ok.1 h₃
  obtain ⟨rfl, rfl⟩ := pure_eq_ok.1 h₄
  exact ⟨by simpa using hres, mid, more, hd, hm, rfl⟩

theorem parameters_eq_ok
    (h : parameters ctx params st = .ok (slots, st')) : slots.length = params.length := by
  induction params generalizing st slots st' with
  | nil =>
    obtain ⟨rfl, -⟩ := pure_eq_ok.1 h
    rfl
  | cons p rest ih =>
    obtain ⟨-, mid, more, -, hm, hlength⟩ := parameters_cons_eq_ok h
    rw [hlength, List.length_cons, ih hm]

theorem parameters_states (h : parameters ctx params st = .ok (slots, st')) :
    ∃ symbols, st' = { st with symbols := symbols } := by
  induction params generalizing st slots with
  | nil => exact ⟨st.symbols, (pure_eq_ok.1 h).2.symm⟩
  | cons p rest ih =>
    obtain ⟨-, mid, more, hd, hm, -⟩ := parameters_cons_eq_ok h
    obtain ⟨own, -, rfl⟩ := declare_symbols hd
    obtain ⟨symbols, hv⟩ := ih hm
    exact ⟨symbols, hv⟩

theorem parameters_strings
    (h : parameters ctx params st = .ok (slots, st')) : SameStrings st st' := by
  obtain ⟨_, rfl⟩ := parameters_states h
  exact ⟨rfl, rfl⟩

theorem withOwnData_states {p : α × List Datum} (h : withOwnData act st = .ok (p, st')) :
    ∃ last, act { st with data := [] } = .ok (p.1, last) ∧ p.2 = last.data ∧
      st' = { last with data := st.data } := by
  unfold withOwnData at h
  obtain ⟨s, u, hget, h₁⟩ := bind_eq_ok.1 h
  obtain ⟨rfl, rfl⟩ := get_eq_ok.1 hget
  obtain ⟨_, v, hm, h₂⟩ := bind_eq_ok.1 h₁
  obtain rfl := modify_eq_ok.1 hm
  obtain ⟨a, w, hact, h₃⟩ := bind_eq_ok.1 h₂
  obtain ⟨t, x, hget', h₄⟩ := bind_eq_ok.1 h₃
  obtain ⟨rfl, rfl⟩ := get_eq_ok.1 hget'
  obtain ⟨_, y, hm', h₅⟩ := bind_eq_ok.1 h₄
  obtain rfl := modify_eq_ok.1 hm'
  obtain ⟨rfl, rfl⟩ := pure_eq_ok.1 h₅
  exact ⟨x, hact, rfl, rfl⟩

theorem stmt_func_unreserved
    (h : stmt ctx (.func pos name params result body) st = .ok (code, st')) :
    ctx.scratch.isReserved name = false := by
  rw [stmt] at h
  unfold function at h
  simpa using (guard_eq_ok h).1

def Context.inner (ctx : Context) : Context := { ctx with depth := ctx.depth + 1 }

def State.inner (st : State) : State := { st with symbols := st.symbols.enter, data := [] }

/-- A function is compiled between the state in front of it and the one behind it: its parameters are
declared in a block of their own, its body is compiled, its data are added to those in front, its
name is declared in the block around it, and outside of other functions it is exported. -/
theorem stmt_func_states
    (h : stmt ctx (.func pos name params result body) st = .ok (code, st')) :
    ∃ slots first bodyCode last encoded,
      parameters ctx.inner params st.inner = .ok (slots, first) ∧
      stmts ctx.inner body first = .ok (bodyCode, last) ∧
      Encoding.code (ctx.scratch.declarations ++ bodyCode) = .ok encoded ∧
      code = [.function ⟨name, slots, .ofKind (Kind.orNumber result), encoded⟩] ∧
      Datum.merge st.data last.data = (st'.data, none) ∧
      last.symbols.leave.declare name (Kind.orNumber result) = .ok st'.symbols ∧
      st'.strings = last.strings ∧
      st'.exports = if ctx.depth = 0 then last.exports.insert name (Kind.orNumber result)
        else last.exports := by
  rw [stmt] at h
  unfold function at h
  obtain ⟨-, h₁⟩ := guard_eq_ok h
  obtain ⟨⟨⟨slots, whole⟩, data⟩, u, hown, h₂⟩ := bind_eq_ok.1 h₁
  obtain ⟨v, hblock, hdata, rfl⟩ := withOwnData_states hown
  obtain ⟨last, hbody, rfl⟩ := inBlock_states hblock
  obtain ⟨slots', first, hslots, h₃⟩ := bind_eq_ok.1 hbody
  obtain ⟨bodyCode, last', hstmts, h₄⟩ := bind_eq_ok.1 h₃
  obtain ⟨hpair, rfl⟩ := pure_eq_ok.1 h₄
  cases hpair
  obtain ⟨_, w, hmerge, h₅⟩ := bind_eq_ok.1 h₂
  obtain ⟨merged, hmerged, rfl⟩ := mergeData_eq_ok hmerge
  cases hdata
  cases he : Encoding.code (ctx.scratch.declarations ++ bodyCode) with
  | error e =>
    simp only [he] at h₅
    exact absurd h₅ throw_ne_ok
  | ok encoded =>
    simp only [he] at h₅
    obtain ⟨_, x, hdeclare, h₆⟩ := bind_eq_ok.1 h₅
    obtain ⟨symbols, hsymbols, rfl⟩ := declare_symbols hdeclare
    refine ⟨slots, first, bodyCode, last', encoded, hslots, hstmts, he, ?_⟩
    split at h₆
    · next hdepth =>
      obtain ⟨_, y, hm, h₇⟩ := bind_eq_ok.1 h₆
      obtain rfl := modify_eq_ok.1 hm
      obtain ⟨rfl, rfl⟩ := pure_eq_ok.1 h₇
      exact ⟨rfl, hmerged, hsymbols, rfl, (if_pos hdepth).symm⟩
    · next hdepth =>
      obtain ⟨rfl, rfl⟩ := pure_eq_ok.1 h₆
      exact ⟨rfl, hmerged, hsymbols, rfl, (if_neg hdepth).symm⟩

theorem stmts_cons_eq_ok (h : stmts ctx (n :: rest) st = .ok (code, st')) :
    ∃ c mid more, stmt ctx n st = .ok (c, mid) ∧ stmts ctx rest mid = .ok (more, st') ∧
      code = c ++ more := by
  rw [stmts] at h
  obtain ⟨c, u, hc, h₁⟩ := bind_eq_ok.1 h
  obtain ⟨more, v, hm, h₂⟩ := bind_eq_ok.1 h₁
  obtain ⟨rfl, rfl⟩ := pure_eq_ok.1 h₂
  exact ⟨c, u, more, hc, hm, rfl⟩

end Lowering

theorem CodeUnit.compile_eq_ok {o : CompileOptions} {body : List Node} {u : CodeUnit}
    (h : CodeUnit.compile o (.program body) = .ok u) :
    ∃ ctx : Lowering.Context, ctx.scratch = o.scratch.withDefaults ∧ ctx.includer = o.includer ∧
      ctx.depth = 0 ∧ o.scratch.validate = .ok () ∧ ∃ st, Lowering.stmts ctx body
        { symbols := .ofPrelude o.prelude, strings := 0, data := [], exports := .empty } =
          .ok (u.code, st) ∧ u.data = st.data ∧ u.exports = st.exports ∧ u.name = ctx.unitName := by
  simp only [CodeUnit.compile] at h
  cases hv : o.scratch.validate with
  | error e =>
    rw [hv] at h
    cases h
  | ok x =>
    rw [hv] at h
    simp only [] at h
    split at h
    · cases h
    · next code st hs =>
      cases h
      exact ⟨_, rfl, rfl, rfl, rfl, st, hs, rfl, rfl, rfl⟩

end UnitScript
