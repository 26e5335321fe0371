import UnitScript.Proofs.Lowering.Liveness
import UnitScript.Proofs.Lowering.Literals

/-!
# How many cells wait

An operation of which both sides are computed holds its left value in a secondary cell while the right
side is computed. So the code of an expression needs one more of these cells than the right side of such
an operation, and as many as any other part of it. It writes the secondary cells from the first free one
on, as many as it needs, and declares those among them that are spill cells.
-/

namespace UnitScript

namespace Node

mutual

/-- The number of secondary cells that an expression needs. -/
def need : Node → Nat
  | binary _ _ left right _ =>
    match left.operand?, right.operand? with
    | some _, some _ => 0
    | some _, none => right.need
    | none, some _ => left.need
    | none, none => max left.need (1 + right.need)
  | index _ _ i => i.need
  | array _ elements => needAll elements
  | call _ _ args => needAll args
  | property _ _ member => needPath member
  | _ => 0

def needAll : List Node → Nat
  | [] => 0
  | n :: rest => max n.need (needAll rest)

def needPath : Node → Nat
  | property _ _ member => needPath member
  | call _ _ args => needAll args
  | _ => 0

end

attribute [local simp] need needAll needPath

theorem needPath_eq (n : Node) : n.needPath = needAll n.pathArgs := by
  fun_induction pathArgs n with
  | case1 _ _ member ih => simpa using ih
  | case2 => rfl
  | case3 n hproperty hcall => cases n <;> simp_all

theorem need_of_operand? {n : Node} {o : Operand} (h : n.operand? = some o) : n.need = 0 := by
  cases n with
  | number | ident => rfl
  | _ => cases h

/-- The nodes that a node is computed from. -/
def operands : Node → List Node
  | binary _ _ left right _ => [left, right]
  | index _ _ i => [i]
  | array _ elements => elements
  | call _ _ args => args
  | property _ _ member => member.pathArgs
  | _ => []

/-- The node, or one that an operand is computed from. -/
inductive Within (d : Node) : Node → Prop where
  | self : Within d d
  | part {p n} : p ∈ n.operands → Within d p → Within d n

/-- An operation of which both sides are computed, and the right one. -/
def Doubly (n right : Node) : Prop :=
  ∃ pos op left type, n = binary pos op left right type ∧ left.operand? = none ∧ right.operand? = none

/-- Operations of which both sides are computed lie `k` deep within each other, each one in the right
side of the one before. -/
def Nests : Nat → Node → Prop
  | 0, _ => True
  | k + 1, n => ∃ d right, Within d n ∧ d.Doubly right ∧ right.Nests k

theorem nests_succ {k : Nat} {n : Node} :
    n.Nests (k + 1) ↔
      (∃ right, n.Doubly right ∧ right.Nests k) ∨ ∃ p ∈ n.operands, p.Nests (k + 1) := by
  constructor
  · rintro ⟨d, right, hd, hright⟩
    cases hd with
    | self => exact .inl ⟨right, hright⟩
    | part hp hd => exact .inr ⟨_, hp, d, right, hd, hright⟩
  · rintro (⟨right, hright⟩ | ⟨p, hp, d, right, hd, hright⟩)
    · exact ⟨n, right, .self, hright⟩
    · exact ⟨d, right, .part hp hd, hright⟩

theorem lt_needAll_iff {k : Nat} {ns : List Node} : k < needAll ns ↔ ∃ n ∈ ns, k < n.need := by
  induction ns with
  | nil => simp
  | cons n rest ih =>
    simp only [needAll, List.mem_cons, exists_eq_or_imp, ← ih]
    omega

/-- What is needed more often than `k` times is needed so by an operand, or there is one more for the right
side of an operation of which both sides are computed. -/
theorem lt_need {k : Nat} {n : Node} :
    k < n.need ↔
      (∃ right, n.Doubly right ∧ k < 1 + right.need) ∨ ∃ p ∈ n.operands, k < p.need := by
  cases n with
  | binary pos op left right type =>
    have hdoubly : (∃ r, (binary pos op left right type).Doubly r ∧ k < 1 + r.need) ↔
        (left.operand? = none ∧ right.operand? = none) ∧ k < 1 + right.need := by
      constructor
      · rintro ⟨_, ⟨_, _, _, _, ⟨⟩, hsides⟩, hk⟩
        exact ⟨hsides, hk⟩
      · exact fun h => ⟨right, ⟨pos, op, left, type, rfl, h.1⟩, h.2⟩
    rw [hdoubly, need]
    cases hl : left.operand? with
    | some a =>
      have hzero := need_of_operand? hl
      cases hr : right.operand? with
      | some b => simp [operands, hzero, need_of_operand? hr]
      | none => simp [operands, hzero]
    | none =>
      cases hr : right.operand? with
      | some b => simp [operands, need_of_operand? hr]
      | none =>
        simp only [operands, and_self, true_and, List.mem_pair, exists_eq_or_imp, exists_eq_left]
        omega
  | array pos elements | call pos callee args => simp [operands, Doubly, lt_needAll_iff]
  | property pos object member => simp [operands, Doubly, needPath_eq, lt_needAll_iff]
  | _ => simp [operands, Doubly]

theorem induction_operands {motive : Node → Prop} (h : ∀ n, (∀ p ∈ n.operands, motive p) → motive n)
    (n : Node) : motive n := by
  induction n using induction_value with
  | binary _ _ left right _ ihl ihr => exact h _ (by simpa [operands] using ⟨ihl, ihr⟩)
  | index _ _ i ih => exact h _ (by simpa [operands] using ih)
  | array _ elements ih | call _ _ elements ih | property _ _ _ ih => exact h _ ih
  | number | string | ident => exact h _ (List.forall_mem_nil _)
  | other n hn =>
    apply h
    cases n with
    | binary | property | index | call | array | ident | string | number => cases hn
    | _ => exact List.forall_mem_nil _

/-- The need of an expression is how deep operations of which both sides are computed lie within each
other. -/
theorem lt_need_iff {k : Nat} {n : Node} : k < n.need ↔ n.Nests (k + 1) := by
  induction n using induction_operands generalizing k with
  | h n ih =>
    have hright : ∀ {right}, n.Doubly right → (k < 1 + right.need ↔ right.Nests k) := by
      rintro right ⟨pos, op, left, type, rfl, -⟩
      cases k with
      | zero => exact iff_of_true (by omega) trivial
      | succ k =>
        rw [← ih right (by simp [operands])]
        omega
    rw [lt_need, nests_succ]
    refine or_congr (exists_congr fun right => and_congr_right hright) ?_
    exact exists_congr fun p => and_congr_right fun hp => ih p hp

end Node

namespace Lowering

open Instruction

/-- The secondary cells that code writes are the first `w` that are not in use, and it declares those of
them that are spill cells. -/
structure Needs (ctx : Context) (live : Live) (w : Nat) (c : Code) : Prop where
  stores : ∀ k, (∃ i ∈ c, i.stores? = some (ctx.cellName .secondary k)) ↔
    live.secondary ≤ k ∧ k < live.secondary + w
  declares : ∀ k, (∃ i ∈ c, i.declares? = some (ctx.cellName .secondary k)) ↔
    k ≠ 0 ∧ live.secondary ≤ k ∧ k < live.secondary + w

variable {ctx : Context} {live : Live} {st st' : State} {c d code : Code} {place : Operand}
  {v w : Nat}

theorem exists_mem_append {p : Instruction → Prop} :
    (∃ i ∈ c ++ d, p i) ↔ (∃ i ∈ c, p i) ∨ ∃ i ∈ d, p i := by
  simp only [List.mem_append, or_and_right, exists_or]

theorem Needs.append (hc : Needs ctx live v c) (hd : Needs ctx live w d) :
    Needs ctx live (max v w) (c ++ d) := by
  constructor <;> intro k <;> rw [exists_mem_append]
  · rw [hc.stores, hd.stores]
    omega
  · rw [hc.declares, hd.declares]
    omega

theorem Needs.append_none (hc : Needs ctx live w c) (hd : Needs ctx live 0 d) :
    Needs ctx live w (c ++ d) := by
  rw [← Nat.max_zero w]
  exact hc.append hd

/-- Code that keeps to the cells that are not in use, however many secondary cells are. -/
theorem needs_none (hsep : ctx.scratch.Separate) {a : Nat} (h : ∀ k, Computing ctx ⟨k, a⟩ c) :
    Needs ctx live 0 c := by
  have hnot : ∀ k i, i ∈ c → ¬(i.declares? = some (ctx.cellName .secondary k) ∨
      i.stores? = some (ctx.cellName .secondary k)) := fun k i hi hx =>
    Context.not_writes_secondary hsep (Nat.lt_succ_self k) ((h (k + 1)).writes i hi _ hx)
  constructor <;> intro k
  · exact iff_of_false (fun ⟨i, hi, hx⟩ => hnot k i hi (.inr hx)) (by omega)
  · exact iff_of_false (fun ⟨i, hi, hx⟩ => hnot k i hi (.inl hx)) (by omega)

/-- A value is put into the first cell that is not in use, and waits there. -/
theorem Needs.held (hsep : ctx.scratch.Separate) (h : Needs ctx live.withSecondary w c) :
    Needs ctx live (1 + w) (ctx.cellDeclaration .secondary live.secondary ++
      [.mov ctx.primary (.cell (ctx.cellName .secondary live.secondary))] ++ c) := by
  have hname : ∀ k, ctx.cellName .secondary live.secondary = ctx.cellName .secondary k ↔
      live.secondary = k := fun k =>
    ⟨fun hk => (Context.cellName_injective hsep hk).2, fun hk => by rw [hk]⟩
  have hdeclaration : ∀ i, i ∈ ctx.cellDeclaration .secondary live.secondary ↔
      live.secondary ≠ 0 ∧ i = .var Role.secondary.storage (ctx.cellName .secondary live.secondary) := by
    intro i
    unfold Context.cellDeclaration
    split <;> simp [*]
  have hnext : live.withSecondary.secondary = live.secondary + 1 := rfl
  constructor <;> intro k <;> rw [exists_mem_append, exists_mem_append]
  · rw [h.stores, hnext]
    simp [hdeclaration, Instruction.var, Instruction.mov, stores?, hname]
    omega
  · rw [h.declares, hnext]
    simp [hdeclaration, Instruction.var, Instruction.mov, declares?, hname]
    omega

theorem Hands.needs {f : Nat → Operand → Instruction} {i : Nat} {ns : List Node}
    (h : Hands ctx live f i ns st st' code) (hf : ∀ i src, Needs ctx live 0 [f i src])
    (hns : ∀ n ∈ ns, ∀ {st st' c o}, expr ctx live n st = .ok ((c, o), st') →
      Needs ctx live n.need c) : Needs ctx live (Node.needAll ns) code := by
  have hnil : Needs ctx live 0 [] := ⟨by simp, by simp⟩
  induction h with
  | nil => exact hnil
  | @cons _ n rest _ _ _ c _ _ hr _ ih =>
    rw [List.forall_mem_cons] at hns
    have hfirst : Needs ctx live n.need c := by
      cases hr with
      | operand ho =>
        rw [Node.need_of_operand? ho]
        exact hnil
      | string hn =>
        rw [hn]
        exact hnil
      | computed he => exact hns.1 he
    exact (hfirst.append_none (hf _ _)).append (ih hns.2)

theorem expr_needs (hsep : ctx.scratch.Separate) {n : Node}
    (h : expr ctx live n st = .ok ((code, place), st')) : Needs ctx live n.need code := by
  have hplain : ∀ {live c}, (∀ live, Computing ctx live c) → Needs ctx live 0 c :=
    fun hc => needs_none (a := 0) hsep fun _ => hc _
  have hpushes : ∀ {live args st st' c}, pushAll ctx live args st = .ok (c, st') →
      (∀ n ∈ args, ∀ {st st' c o}, expr ctx live n st = .ok ((c, o), st') →
        Needs ctx live n.need c) → Needs ctx live (Node.needAll args) c :=
    fun hp => (hands_of_pushAll hp 0).needs fun _ src => hplain fun _ => computing_push src
  induction n using Node.induction_value generalizing live st st' code place with
  | number =>
    obtain ⟨rfl, rfl, -⟩ := expr_number_eq_ok h
    exact hplain fun _ => computing_mov _ (.inl rfl)
  | string =>
    obtain ⟨rfl, rfl, -⟩ := expr_string_eq_ok h
    exact hplain fun _ => computing_mov _ (.inr rfl)
  | ident =>
    obtain ⟨hp, rfl, -⟩ := expr_ident_eq_ok h
    exact hplain fun _ => computing_mov _ hp
  | binary _ op left right _ ihl ihr =>
    obtain ⟨hop, rfl, hform⟩ := expr_binary_eq_ok h
    have hcombine : ∀ a b, Needs ctx live 0 [combine op a b ctx.primary] :=
      fun a b => hplain fun _ => computing_combine hop a b
    rw [Node.need]
    cases hform with
    | direct hl hr =>
      rw [hl, hr]
      exact hcombine _ _
    | onRight hl hr hrc =>
      rw [hl, hr]
      exact (ihr hrc).append_none (hcombine _ _)
    | onLeft hl hr hlc =>
      rw [hl, hr]
      exact (ihl hlc).append_none (hcombine _ _)
    | onBoth hl hr hlc hrc =>
      rw [hl, hr]
      refine Needs.append_none ?_ (hcombine _ _)
      simpa only [List.append_assoc] using (ihl hlc).append ((ihr hrc).held hsep)
  | index _ name _ ih =>
    obtain ⟨rfl, c, hc, rfl⟩ := expr_index_eq_ok h
    exact (ih hc).append_none (hplain fun _ => computing_element name)
  | array _ elements ih =>
    obtain ⟨rfl, stores, hs, rfl⟩ := expr_array_eq_ok h
    have halloc : Needs ctx live 0 (ctx.cellDeclaration .aggregate live.aggregate ++ [.alloc .i64
        (Int64.ofNat elements.length) (.cell (ctx.cellName .aggregate live.aggregate))]) :=
      needs_none (a := live.aggregate) hsep fun _ => computing_alloc _
    have hstores := (hands_of_storeAll hs).needs (fun _ _ => hplain fun _ => computing_pmov _ _ _)
      fun n hn _ _ _ _ he => ih n hn he
    have hcode := halloc.append ⟨hstores.stores, hstores.declares⟩
    rw [Nat.zero_max] at hcode
    exact hcode.append_none (hplain fun _ => computing_mov _ (.inl rfl))
  | call _ _ args ih =>
    obtain ⟨pushes, calls, hp, hc, rfl⟩ := expr_call_eq_ok h
    exact (hpushes hp fun n hn _ _ _ _ he => ih n hn he).append_none (hplain fun _ => hc.computing)
  | property pos object member ih =>
    rw [Node.need, Node.needPath_eq]
    cases expr_property_form h with
    | call hname hp =>
      exact (hpushes hp fun n hn _ _ _ _ he => ih n hn he).append_none
        (hplain fun _ => (callCode_callOf ctx st' _).computing)
    | cell hname hplace =>
      obtain ⟨⟨names, called⟩, hpath, hp⟩ := Option.map_eq_some_iff.1 hname
      cases hp
      have hargs := Node.pathArgs_of_path? hpath
      rw [Node.pathArgs] at hargs
      rw [hargs]
      exact hplain fun _ => computing_mov _ hplace
  | other n hn =>
    rw [isValue_of_expr h] at hn
    cases hn

/-- With no cell in use, the code of an expression declares the secondary spill cells with the numbers
from 1 up to its need, and writes the base cell if it needs any. So it declares none of them exactly if
no operation of which both sides are computed lies in the right side of another. -/
theorem spills_exact {s : Scratch} (hs : s.validate = .ok ()) {ctx : Context}
    (hctx : ctx.scratch = s.withDefaults) {n : Node} {st st' : State} {code : Code} {place : Operand}
    (h : expr ctx .none n st = .ok ((code, place), st')) :
    (∀ i ∈ code, i.op.isLocal = true ∨ i.op = .call) ∧
    (∀ k, (∃ i ∈ code, i.declares? = some (ctx.cellName .secondary k)) ↔ 1 ≤ k ∧ k + 1 ≤ n.need) ∧
    ((∃ i ∈ code, i.stores? = some ctx.scratch.secondary) ↔ 1 ≤ n.need) ∧
    ((∃ k, ∃ i ∈ code, i.declares? = some (ctx.cellName .secondary k)) ↔
      ∃ d right, Node.Within d n ∧ d.Doubly right ∧ ∃ e r, Node.Within e right ∧ e.Doubly r) := by
  have hsep : ctx.scratch.Separate := by
    rw [hctx]
    exact Scratch.separate_of_validate hs
  have hneeds := expr_needs hsep h
  have hdeclares : ∀ k, (∃ i ∈ code, i.declares? = some (ctx.cellName .secondary k)) ↔
      1 ≤ k ∧ k + 1 ≤ n.need := by
    intro k
    rw [hneeds.declares]
    simp only [Live.none]
    omega
  have hnested : n.Nests 2 ↔
      ∃ d right, Node.Within d n ∧ d.Doubly right ∧ ∃ e r, Node.Within e right ∧ e.Doubly r := by
    simp [Node.Nests]
  refine ⟨(expr_computing n h).2.plain, hdeclares, ?_, ?_⟩
  · have hbase : (∃ i ∈ code, i.stores? = some ctx.scratch.secondary) ↔ _ := hneeds.stores 0
    rw [hbase]
    simp only [Live.none]
    omega
  · rw [← hnested, ← Node.lt_need_iff]
    simp only [hdeclares]
    exact ⟨fun ⟨k, hk⟩ => by omega, fun hk => ⟨1, by omega⟩⟩

/-- `f([1]) + g() * h()` has one operation in the right side of another, and needs two cells. -/
theorem waitingSum_spills : waitingSum.need = 2 ∧ ∃ code place st',
    expr plainContext .none waitingSum freshState = .ok ((code, place), st') ∧
      (∀ k, (∃ i ∈ code, i.declares? = some (plainContext.cellName .secondary k)) ↔
        1 ≤ k ∧ k + 1 ≤ waitingSum.need) ∧
      ∃ d right, Node.Within d waitingSum ∧ d.Doubly right ∧
        ∃ e r, Node.Within e right ∧ e.Doubly r := by
  have hctx : plainContext.scratch = Scratch.withDefaults {} := rfl
  obtain ⟨-, hdeclares, -, hnested⟩ := spills_exact (by decide +kernel) hctx
    (show expr plainContext .none waitingSum freshState = .ok ((_, _), _) from rfl)
  refine ⟨rfl, _, _, _, rfl, hdeclares, hnested.1 ⟨1, (hdeclares 1).2 ?_⟩⟩
  decide +kernel

end Lowering

end UnitScript
