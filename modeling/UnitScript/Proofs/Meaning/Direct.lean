import Mathlib.Algebra.Group.Int.Defs
import Mathlib.Algebra.Group.Nat.Defs
import UnitScript.Machine.Value
import UnitScript.NameMap
import UnitScript.Proofs.Syntax.Names

/-!
# Direct evaluation of call-free programs

The meaning of a program is given on its syntax tree, without code and without scratch cells. There
is one flat table of cells; numbers are integers of 64 bits that wrap around, and division truncates
towards zero; every value other than the number zero counts as true; an array is a block of the
heap, and an array's value is a pointer to its first cell. Expressions read cells and allocate
blocks. Statements change cells. Only loops need a bound on the length of the evaluation.

`CallFree` describes the programs this is about: they have neither functions nor calls, property
paths or imports.
-/

namespace UnitScript.Meaning

/-! ## Operators -/

def wrapped (n : Int) : Value := .int (Int64.ofInt n)

/-- Sums of numbers, and pointers moved by a number on either side. -/
def plus : Value → Value → Option Value
  | .int x, .int y => some (wrapped (x.toInt + y.toInt))
  | .ptr block x, .int y => some (.ptr block (Int64.ofInt (x.toInt + y.toInt)))
  | .int y, .ptr block x => some (.ptr block (Int64.ofInt (x.toInt + y.toInt)))
  | .nowhere x, .int y => some (.nowhere (Int64.ofInt (x.toInt + y.toInt)))
  | .int y, .nowhere x => some (.nowhere (Int64.ofInt (x.toInt + y.toInt)))
  | _, _ => none

def minus : Value → Value → Option Value
  | .int x, .int y => some (wrapped (x.toInt - y.toInt))
  | .ptr block x, .int y => some (.ptr block (Int64.ofInt (x.toInt - y.toInt)))
  | .nowhere x, .int y => some (.nowhere (Int64.ofInt (x.toInt - y.toInt)))
  | _, _ => none

def times : Value → Value → Option Value
  | .int x, .int y => some (wrapped (x.toInt * y.toInt))
  | _, _ => none

def quotient : Value → Value → Option Value
  | .int x, .int y => if y.toInt = 0 then none else some (wrapped (x.toInt.tdiv y.toInt))
  | _, _ => none

def truth (b : Bool) : Value := .int (if b then 1 else 0)

def ordered (r : Int → Int → Bool) : Value → Value → Option Value
  | .int x, .int y => some (truth (r x.toInt y.toInt))
  | _, _ => none

def operation (op : Operator) (a b : Value) : Option Value :=
  match op with
  | .add => plus a b
  | .sub => minus a b
  | .mul => times a b
  | .div => quotient a b
  | .eq => some (truth (a.same b))
  | .ne => some (truth !(a.same b))
  | .lt => ordered (· < ·) a b
  | .le => ordered (· ≤ ·) a b
  | .gt => ordered (· > ·) a b
  | .ge => ordered (· ≥ ·) a b
  | .assign | .declare | .other _ => none

/-! ## Expressions -/

/-- The content of the cell that a value points at; there is none outside of its block. -/
def fetch? (h : Heap) : Value → Option Value
  | .ptr block offset =>
    if offset.toInt < 0 then none else h[block]?.bind fun cells => cells[offset.toInt.toNat]?
  | _ => none

def write? (h : Heap) (block place : Nat) (v : Value) : Option Heap :=
  if place < h.blockSize block then some (h.set block place v) else none

/-- The cells of a block are numbered by 64-bit integers, which bounds their number. -/
def maxCells : Nat := 2 ^ 63

mutual

/-- The value of an expression, with the heap after it. -/
def expr (cells : NameMap Value) : Node → Heap → Option (Value × Heap)
  | .number _ v, h => some (.int v, h)
  | .string _ s, h => some (.string s, h)
  | .ident _ name, h => do return (← cells.get? name, h)
  | .binary _ op left right _, h => do
    let (a, h) ← expr cells left h
    let (b, h) ← expr cells right h
    return (← operation op a b, h)
  | .index _ name index, h => do
    let (n, h) ← expr cells index h
    let p ← plus (← cells.get? name) n
    return (← fetch? h p, h)
  | .array _ elements, h =>
    if elements.length < maxCells then do
      let (h', p) := h.alloc elements.length
      return (p, ← fill cells h.size 0 elements h')
    else none
  | _, _ => none

/-- Fills a block with the values of expressions, from the cell `i` on. -/
def fill (cells : NameMap Value) (block i : Nat) : List Node → Heap → Option Heap
  | [], h => some h
  | element :: rest, h => do
    let (v, h) ← expr cells element h
    fill cells block (i + 1) rest (← write? h block i v)

end

/-! ## Statements -/

structure Store where
  cells : NameMap Value
  heap : Heap

inductive Outcome where
  | outOfFuel
  | failed
  | returned (v : Value) (s : Store)
  | normal (s : Store)

/-- Goes on with the value of an expression. -/
def Store.with (s : Store) (n : Node) (next : Value → Store → Outcome) : Outcome :=
  match expr s.cells n s.heap with
  | none => .failed
  | some (v, h) => next v { s with heap := h }

def Outcome.andThen (o : Outcome) (next : Store → Outcome) : Outcome :=
  match o with
  | .normal s => next s
  | o => o

def Store.declare (s : Store) (name : Name) (v : Value) : Store :=
  { s with cells := s.cells.insert name v }

/-- Only a cell that has been declared can be assigned to. -/
def Store.assign (s : Store) (name : Name) (v : Value) : Outcome :=
  if s.cells.contains name then .normal { s with cells := s.cells.insert name v } else .failed

/-- At most `n` rounds of a loop. -/
def rounds (test : Node) (body : Store → Outcome) : (n : Nat) → Store → Outcome
  | 0, _ => .outOfFuel
  | n + 1, s => s.with test fun v s =>
      if v = .int 0 then .normal s else (body s).andThen (rounds test body n)

mutual

def stmt (fuel : Nat) : Node → Store → Outcome
  | .binary pos op left right type, s =>
    match op, left with
    | .declare, .ident _ name => s.with right fun v s => .normal (s.declare name v)
    | .assign, .ident _ name => s.with right fun v s => s.assign name v
    | op, left => s.with (.binary pos op left right type) fun _ s => .normal s
  | .cond _ test yes no, s => s.with test fun v s =>
      if v = .int 0 then block fuel no s else block fuel yes s
  | .loop _ test body, s => rounds test (fun s => block fuel body s) fuel s
  | .ret _ .missing, s => .returned .null s
  | .ret _ value, s => s.with value .returned
  | .pass _, s => .normal s
  | n, s => s.with n fun _ s => .normal s

def block (fuel : Nat) : List Node → Store → Outcome
  | [], s => .normal s
  | n :: rest, s => (stmt fuel n s).andThen (block fuel rest)

end

/-- Without a return the value of a program is null. -/
def Outcome.completed : Outcome → Outcome
  | .normal s => .returned .null s
  | o => o

def program (fuel : Nat) (body : List Node) : Outcome := (block fuel body ⟨.empty, #[]⟩).completed

/-! ## Call-free programs -/

/-- Expressions over the given names. -/
inductive Formula (names : Name → Prop) : Node → Prop where
  | number (pos v) : Formula names (.number pos v)
  | string (pos s) : Formula names (.string pos s)
  | ident (pos) {name} : names name → Formula names (.ident pos name)
  | binary (pos type) {op left right} : op.isArithmetic || op.isComparison → Formula names left →
      Formula names right → Formula names (.binary pos op left right type)
  | index (pos) {name index} : names name → Formula names index →
      Formula names (.index pos name index)
  | array (pos) {elements} : (∀ e ∈ elements, Formula names e) → Formula names (.array pos elements)

theorem Formula.ne_missing {names : Name → Prop} {n : Node} (h : Formula names n) :
    n ≠ .missing := by
  rintro rfl
  cases h

theorem Formula.of_names {P Q : Name → Prop} {n : Node} (h : Formula P n)
    (hq : ∀ x ∈ n.names, P x → Q x) : Formula Q n := by
  induction h with
  | number pos v => exact .number pos v
  | string pos s => exact .string pos s
  | ident pos hx => exact .ident pos (hq _ (List.mem_singleton.2 rfl) hx)
  | binary pos type hop _ _ ihl ihr =>
    refine .binary pos type hop (ihl fun x hx => hq x ?_) (ihr fun x hx => hq x ?_)
    · exact List.mem_append_left _ hx
    · exact List.mem_append_right _ hx
  | index pos hx _ ih =>
    exact .index pos (hq _ List.mem_cons_self hx) (ih fun x hx => hq x (List.mem_cons_of_mem _ hx))
  | array pos _ ih =>
    exact .array pos fun e he => ih e he fun x hx => hq x (Node.mem_namesAll.2 ⟨e, he, hx⟩)

/-- Statements over the given names, without functions and without calls. An initializer does not
mention the name that it is for. -/
inductive CallFree (names : Name → Prop) : Node → Prop where
  | declare (pos namePos type) {name init} : names name →
      Formula (fun x => names x ∧ x ≠ name) init →
      CallFree names (.binary pos .declare (.ident namePos name) init type)
  | assign (pos namePos type) {name source} : names name → Formula names source →
      CallFree names (.binary pos .assign (.ident namePos name) source type)
  | cond (pos) {test yes no} : Formula names test → (∀ n ∈ yes, CallFree names n) →
      (∀ n ∈ no, CallFree names n) → CallFree names (.cond pos test yes no)
  | loop (pos) {test body} : Formula names test → (∀ n ∈ body, CallFree names n) →
      CallFree names (.loop pos test body)
  | ret (pos) {value} : Formula names value → CallFree names (.ret pos value)
  | bareRet (pos) : CallFree names (.ret pos .missing)
  | pass (pos) : CallFree names (.pass pos)
  | expression {n} : Formula names n → CallFree names n

theorem CallFree.of_names {P Q : Name → Prop} {n : Node} (h : CallFree P n)
    (hq : ∀ x ∈ n.names, P x → Q x) : CallFree Q n := by
  induction h with
  | declare pos namePos type hx hf =>
    refine .declare pos namePos type (hq _ List.mem_cons_self hx) (hf.of_names fun x hx hp => ?_)
    exact ⟨hq x (List.mem_append_right _ hx) hp.1, hp.2⟩
  | assign pos namePos type hx hf =>
    exact .assign pos namePos type (hq _ List.mem_cons_self hx)
      (hf.of_names fun x hx => hq x (List.mem_append_right _ hx))
  | cond pos ht hyes hno ihyes ihno =>
    refine .cond pos (ht.of_names fun x hx => hq x ?_) (fun n hn => ihyes n hn fun x hx => hq x ?_)
      (fun n hn => ihno n hn fun x hx => hq x ?_)
    · exact List.mem_append_left _ (List.mem_append_left _ hx)
    · exact List.mem_append_left _ (List.mem_append_right _ (Node.mem_namesAll.2 ⟨n, hn, hx⟩))
    · exact List.mem_append_right _ (Node.mem_namesAll.2 ⟨n, hn, hx⟩)
  | loop pos ht hb ihb =>
    refine .loop pos (ht.of_names fun x hx => hq x (List.mem_append_left _ hx))
      (fun n hn => ihb n hn fun x hx => hq x ?_)
    exact List.mem_append_right _ (Node.mem_namesAll.2 ⟨n, hn, hx⟩)
  | ret pos hf => exact .ret pos (hf.of_names hq)
  | bareRet pos => exact .bareRet pos
  | pass pos => exact .pass pos
  | expression hf => exact .expression (hf.of_names hq)

/-! ## What an evaluation depends on and what it keeps -/

section Laws

variable {names : Name → Prop} {cells : NameMap Value} {name : Name} {v : Value} {n : Node}
  {h h' : Heap} {elements : List Node} {block : Nat}

theorem expr_ident (pos : Position) (name : Name) (h : Heap) :
    expr cells (.ident pos name) h = (cells.get? name).map (·, h) := by
  rw [Option.map_eq_bind]
  rfl

theorem expr_binary (pos : Position) (op : Operator) (left right : Node) (type : Option TypeExpr)
    (h : Heap) :
    expr cells (.binary pos op left right type) h =
      (expr cells left h).bind fun a => (expr cells right a.2).bind fun b =>
        (operation op a.1 b.1).map (·, b.2) := by
  refine Option.bind_congr fun a _ => Option.bind_congr fun b _ => ?_
  rw [Option.map_eq_bind]
  rfl

theorem expr_index (pos : Position) (name : Name) (index : Node) (h : Heap) :
    expr cells (.index pos name index) h =
      (expr cells index h).bind fun i =>
        (((cells.get? name).bind fun base => plus base i.1).bind (fetch? i.2)).map (·, i.2) := by
  refine Option.bind_congr fun i _ => ?_
  cases cells.get? name with
  | none => rfl
  | some base =>
    cases hp : plus base i.1 with
    | none => simp [hp]
    | some p => cases hf : fetch? i.2 p <;> simp [hp, hf]

theorem expr_array (pos : Position) (elements : List Node) (h : Heap) :
    expr cells (.array pos elements) h =
      if elements.length < maxCells then
        (fill cells h.size 0 elements (h.alloc elements.length).1).map (.ptr h.size 0, ·)
      else none := by
  rw [Option.map_eq_bind]
  rfl

theorem fill_cons (block i : Nat) (e : Node) (rest : List Node) (h : Heap) :
    fill cells block i (e :: rest) h =
      (expr cells e h).bind fun r =>
        (write? r.2 block i r.1).bind (fill cells block (i + 1) rest) := rfl

theorem fill_congr {cells' : NameMap Value}
    (he : ∀ e ∈ elements, ∀ h, expr cells e h = expr cells' e h) (block i : Nat) (h : Heap) :
    fill cells block i elements h = fill cells' block i elements h := by
  induction elements generalizing i h with
  | nil => rfl
  | cons e rest ih =>
    have hrest : fill cells block (i + 1) rest = fill cells' block (i + 1) rest :=
      funext (ih (fun e' he' => he e' (List.mem_cons_of_mem _ he')) (i + 1))
    rw [fill_cons, fill_cons, he e List.mem_cons_self, hrest]

/-- An expression in the place of a statement is evaluated for its failure and for what it
allocates. -/
theorem stmt_formula (hn : Formula names n) (fuel : Nat) (s : Store) :
    stmt fuel n s = s.with n fun _ s => .normal s := by
  cases hn with
  | @binary pos type op left right hop hl hr =>
    cases op with
    | declare | assign => cases hop
    | add | sub | mul | div | eq | ne | lt | le | gt | ge | other => rfl
  | number | string | ident | index | array => rfl

theorem stmt_ret (hn : n ≠ .missing) (pos : Position) (fuel : Nat) (s : Store) :
    stmt fuel (.ret pos n) s = s.with n .returned := by
  cases n <;> first | rfl | exact absurd rfl hn

theorem expr_insert (hn : Formula (fun x => names x ∧ x ≠ name) n) (h : Heap) :
    expr (cells.insert name v) n h = expr cells n h := by
  induction hn generalizing h with
  | number | string => rfl
  | ident pos hx => rw [expr_ident, expr_ident, NameMap.get?_insert, if_neg (Ne.symm hx.2)]
  | binary pos type hop hl hr ihl ihr => rw [expr_binary, expr_binary, ihl]; simp only [ihr]
  | index pos hx hi ih =>
    rw [expr_index, expr_index, ih, NameMap.get?_insert, if_neg (Ne.symm hx.2)]
  | array pos he ih =>
    rw [expr_array, expr_array, fill_congr (fun e he h => ih e he h)]

/-- The blocks of a heap are all there in another, with their sizes. -/
def HeapKept (h h' : Heap) : Prop :=
  h.size ≤ h'.size ∧ ∀ b, b < h.size → h'.blockSize b = h.blockSize b

theorem HeapKept.refl (h : Heap) : HeapKept h h := ⟨Nat.le_refl _, fun _ _ => rfl⟩

theorem HeapKept.trans {h₁ : Heap} (hl : HeapKept h h₁) (hr : HeapKept h₁ h') : HeapKept h h' := by
  refine ⟨Nat.le_trans hl.1 hr.1, fun b hb => ?_⟩
  rw [hr.2 b (Nat.lt_of_lt_of_le hb hl.1), hl.2 b hb]

theorem heapKept_alloc (h : Heap) (n : Nat) : HeapKept h (h.alloc n).1 := by
  refine ⟨by simp [Heap.alloc], fun b hb => ?_⟩
  have hne : b ≠ h.size := by omega
  simp [Heap.alloc, Heap.blockSize, Array.getElem?_push, hne]

theorem heapKept_set (h : Heap) (block place : Nat) (v : Value) :
    HeapKept h (h.set block place v) := by
  refine ⟨by simp [Heap.set], fun b _ => ?_⟩
  simp only [Heap.blockSize, Heap.set, Array.getElem?_modify]
  by_cases hb : block = b
  · subst hb
    cases h[block]? <;> simp
  · simp [hb]

theorem lt_of_write {place : Nat} (hw : write? h block place v = some h') :
    place < h.blockSize block := by
  unfold write? at hw
  split at hw
  · assumption
  · cases hw

theorem heapKept_write {place : Nat} (hw : write? h block place v = some h') : HeapKept h h' := by
  unfold write? at hw
  split at hw
  · cases hw
    exact heapKept_set h block place v
  · cases hw

theorem heapKept_fill
    (he : ∀ e ∈ elements, ∀ {h v h'}, expr cells e h = some (v, h') → HeapKept h h')
    {i : Nat} (hf : fill cells block i elements h = some h') : HeapKept h h' := by
  induction elements generalizing i h with
  | nil =>
    cases hf
    exact .refl _
  | cons e rest ih =>
    obtain ⟨⟨w, h₁⟩, hv, hf⟩ := Option.bind_eq_some_iff.1 hf
    obtain ⟨h₂, hw, hf⟩ := Option.bind_eq_some_iff.1 hf
    have hkept := (he e List.mem_cons_self hv).trans (heapKept_write hw)
    exact hkept.trans (ih (fun e' he' => he e' (List.mem_cons_of_mem _ he')) hf)

theorem heapKept_expr (hn : Formula names n) (he : expr cells n h = some (v, h')) :
    HeapKept h h' := by
  induction hn generalizing h v h' with
  | number | string =>
    cases he
    exact .refl _
  | ident pos hx =>
    obtain ⟨w, -, he⟩ := Option.bind_eq_some_iff.1 he
    cases he
    exact .refl _
  | binary pos type hop hl hr ihl ihr =>
    obtain ⟨⟨a, h₁⟩, ha, he⟩ := Option.bind_eq_some_iff.1 he
    obtain ⟨⟨b, h₂⟩, hb, he⟩ := Option.bind_eq_some_iff.1 he
    obtain ⟨w, -, he⟩ := Option.bind_eq_some_iff.1 he
    cases he
    exact (ihl ha).trans (ihr hb)
  | index pos hx hi ih =>
    obtain ⟨⟨a, h₁⟩, ha, he⟩ := Option.bind_eq_some_iff.1 he
    obtain ⟨w, -, he⟩ := Option.bind_eq_some_iff.1 he
    obtain ⟨p, -, he⟩ := Option.bind_eq_some_iff.1 he
    obtain ⟨c, -, he⟩ := Option.bind_eq_some_iff.1 he
    cases he
    exact ih ha
  | array pos hes ih =>
    rw [expr_array] at he
    split at he
    · obtain ⟨h₁, hf, he⟩ := Option.map_eq_some_iff.1 he
      cases he
      exact (heapKept_alloc _ _).trans (heapKept_fill (fun e he => ih e he) hf)
    · cases he

theorem fill_eq_none (hes : ∀ e ∈ elements, Formula names e) {i : Nat}
    (hb : block < h.size) (hsmall : h.blockSize block < i + elements.length)
    (hi : i ≤ h.blockSize block) : fill cells block i elements h = none := by
  induction elements generalizing i h with
  | nil => simp at hsmall; omega
  | cons e rest ih =>
    rw [fill_cons]
    cases hv : expr cells e h with
    | none => rfl
    | some p =>
      obtain ⟨w, h₁⟩ := p
      have hkept := heapKept_expr (hes e List.mem_cons_self) hv
      have hsize := hkept.2 block hb
      cases hw : write? h₁ block i w with
      | none => simp [hw]
      | some h₂ =>
        have hin := lt_of_write hw
        have hkept₂ := heapKept_write hw
        have hsize₂ := hkept₂.2 block (Nat.lt_of_lt_of_le hb hkept.1)
        rw [List.length_cons] at hsmall
        simp only [Option.bind_some, hw]
        refine ih (fun e' he' => hes e' (List.mem_cons_of_mem _ he')) ?_ ?_ ?_
        · exact Nat.lt_of_lt_of_le hb (Nat.le_trans hkept.1 hkept₂.1)
        · omega
        · omega

theorem blockSize_alloc (h : Heap) (n : Nat) : (h.alloc n).1.blockSize h.size = n := by
  simp [Heap.alloc, Heap.blockSize]

theorem toNatClampNeg_lt (n : Int64) : n.toNatClampNeg < maxCells := by
  have hlt : n.toInt < 2 ^ 63 := Int64.toInt_lt n
  change n.toInt.toNat < 2 ^ 63
  omega

theorem ofNat_cell {k : Nat} (hk : k < maxCells) :
    ¬Int64.ofNat k < 0 ∧ (Int64.ofNat k).toNatClampNeg = k := by
  have hnat : (Int64.ofNat k).toInt = k := Int64.toInt_ofNat_of_lt hk
  constructor
  · rw [Int64.lt_iff_toInt_lt, hnat]
    exact Int.not_lt.2 (Int.natCast_nonneg k)
  · change (Int64.ofNat k).toInt.toNat = k
    rw [hnat, Int.toNat_natCast]

/-- An array whose length is not a number of cells fails in one of two ways: its length reads as a
negative number, or as a smaller number that leaves no room for the elements. -/
theorem expr_array_alloc (pos : Position) (hes : ∀ e ∈ elements, Formula names e) (h : Heap) :
    expr cells (.array pos elements) h =
      (if Int64.ofNat elements.length < 0 then none
        else some (h.alloc (Int64.ofNat elements.length).toNatClampNeg).1).bind fun h' =>
          (fill cells h.size 0 elements h').map (.ptr h.size 0, ·) := by
  rw [expr_array]
  by_cases hlen : elements.length < maxCells
  · obtain ⟨hneg, hcount⟩ := ofNat_cell hlen
    rw [if_pos hlen, if_neg hneg, hcount]
    rfl
  · rw [if_neg hlen]
    split
    · rfl
    · have hcount := toNatClampNeg_lt (Int64.ofNat elements.length)
      have hsize := blockSize_alloc h (Int64.ofNat elements.length).toNatClampNeg
      have hnone : fill cells h.size 0 elements
          (h.alloc (Int64.ofNat elements.length).toNatClampNeg).1 = none := by
        refine fill_eq_none hes (by simp [Heap.alloc]) ?_ (Nat.zero_le _)
        rw [hsize]
        omega
      rw [Option.bind_some, hnone]
      rfl

end Laws

end UnitScript.Meaning
