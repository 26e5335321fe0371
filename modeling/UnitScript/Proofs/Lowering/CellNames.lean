import UnitScript.Proofs.Code.Renaming
import UnitScript.Proofs.Lowering.Arrangement

/-!
# The names of scratch cells

The names of a choice of scratch cells are exchanged for those of another by the role and the number
of each cell. A program whose names are none of these does not get at the cells by a path either,
and the numbers of the cells that its code uses can be read off the syntax tree.
-/

namespace UnitScript

def Bytes.number (s : Bytes) : Nat := Nat.ofDigitChars 10 (s.map fun b => Char.ofNat b.toNat) 0

theorem Bytes.number_ofNat (n : Nat) : Bytes.number (Bytes.ofNat n) = n := by
  rw [number, map_ofNat]
  exact Nat.ofDigitChars_toDigits (by decide) (by decide)

namespace Scratch

variable {s t : Scratch} {r : Role} {n : Nat} {x : Name}

/-- The slot of a role, or a spill cell of it. -/
def cell (s : Scratch) (r : Role) (n : Nat) : Name :=
  if n = 0 then s.name r else s.name r ++ "." ++ Bytes.ofNat n

/-- The number of the cell of the role that has the name. -/
def number? (s : Scratch) (r : Role) (x : Name) : Option Nat :=
  [0, Bytes.number (x.drop ((s.name r).length + 1))].find? fun n => x = s.cell r n

/-- The cells of `s` get the names of the corresponding cells of `t`, and other names stay. -/
def exchange (s t : Scratch) (x : Name) : Name :=
  (Role.all.findSome? fun r => (s.number? r x).map (t.cell r)).getD x

theorem cell_succ (s : Scratch) (r : Role) (n : Nat) :
    s.cell r (n + 1) = s.name r ++ 46 :: Bytes.ofNat (n + 1) :=
  Lowering.Context.cellName_succ ⟨[], s, none, 0⟩ r n

theorem cell_injective (hs : s.Separate) {q : Role} {k : Nat} (h : s.cell q k = s.cell r n) :
    q = r ∧ k = n := by
  let ctx : Lowering.Context := ⟨[], s, none, 0⟩
  have hname : ctx.cellName q k = ctx.cellName r n := h
  exact Lowering.Context.cellName_injective hs hname

theorem eq_cell_of_number? (h : s.number? r x = some n) : x = s.cell r n := by
  simpa using List.find?_some h

theorem number?_cell (s : Scratch) (r : Role) (n : Nat) :
    ∃ k, s.number? r (s.cell r n) = some k := by
  rw [← Option.isSome_iff_exists, number?, List.find?_isSome]
  cases n with
  | zero => exact ⟨0, by simp, by simp⟩
  | succ n =>
    refine ⟨_, List.mem_cons_of_mem _ List.mem_cons_self, ?_⟩
    have hdrop : (s.cell r (n + 1)).drop ((s.name r).length + 1) = Bytes.ofNat (n + 1) := by
      rw [cell_succ, List.drop_append]
      simp
    rw [hdrop, Bytes.number_ofNat]
    simp

theorem exchange_cell (hs : s.Separate) (t : Scratch) (r : Role) (n : Nat) :
    s.exchange t (s.cell r n) = t.cell r n := by
  unfold exchange
  cases hfound : Role.all.findSome? fun q => (s.number? q (s.cell r n)).map (t.cell q) with
  | none =>
    have hnone := List.findSome?_eq_none_iff.1 hfound r (by cases r <;> decide)
    obtain ⟨k, hk⟩ := number?_cell s r n
    rw [hk] at hnone
    cases hnone
  | some y =>
    obtain ⟨q, -, hy⟩ := List.exists_of_findSome?_eq_some hfound
    obtain ⟨k, hk, rfl⟩ := Option.map_eq_some_iff.1 hy
    obtain ⟨rfl, rfl⟩ := cell_injective hs (eq_cell_of_number? hk)
    rfl

theorem exchange_of_not_temporary (h : ¬s.Temporary x) (t : Scratch) : s.exchange t x = x := by
  unfold exchange
  rw [List.findSome?_eq_none_iff.2]
  · rfl
  · intro r _
    rw [Option.map_eq_none_iff]
    cases hk : s.number? r x with
    | none => rfl
    | some n => exact absurd ⟨r, n, eq_cell_of_number? hk⟩ h

theorem not_reserved_of_not_temporary (h : ¬s.Temporary x) (hs : s.withDefaults = s) :
    s.isReserved x = false := by
  cases hres : s.isReserved x with
  | false => rfl
  | true =>
    obtain ⟨r, hr⟩ := isReserved_iff.1 hres
    rw [hs] at hr
    exact absurd ⟨r, 0, hr.symm⟩ h

/-- A name with a dot is that of a cell only if the part in front of the first dot is a slot. -/
theorem not_temporary_append_dot (hs : s.Separate) (h : ¬s.Temporary x) (rest : Bytes) :
    ¬s.Temporary (x ++ 46 :: rest) := by
  rintro ⟨r, n, heq⟩
  change x ++ 46 :: rest = s.cell r n at heq
  cases n with
  | zero =>
    refine hs.dotless r ?_
    change x ++ 46 :: rest = s.name r at heq
    rw [← heq]
    simp
  | succ n =>
    rw [cell_succ] at heq
    -- neither the base name nor the number has a dot, so the dots on both sides are the same
    rcases List.append_eq_append_iff.1 heq with ⟨z, hname, hrest⟩ | ⟨z, rfl, hrest⟩
    · cases z with
      | nil =>
        rw [List.append_nil] at hname
        exact h ⟨r, 0, hname.symm⟩
      | cons b z =>
        obtain ⟨rfl, -⟩ := List.cons.inj hrest
        refine hs.dotless r ?_
        rw [hname]
        simp
    · cases z with
      | nil => exact h ⟨r, 0, List.append_nil _⟩
      | cons b z =>
        obtain ⟨-, hnumber⟩ := List.cons.inj hrest
        refine Bytes.dot_notMem_ofNat (n + 1) ?_
        rw [hnumber]
        simp

theorem not_temporary_join (hs : s.Separate) {names : List Name} (hne : names ≠ [])
    (h : ∀ x ∈ names, ¬s.Temporary x) : ¬s.Temporary (Bytes.join "." names) := by
  match names with
  | [] => exact absurd rfl hne
  | [x] => exact h x List.mem_cons_self
  | x :: y :: rest =>
    have hx := not_temporary_append_dot hs (h x List.mem_cons_self) (Bytes.join "." (y :: rest))
    rw [Bytes.join, List.append_assoc]
    exact hx

end Scratch

namespace Node

theorem not_temporary_of_pathName? {s : Scratch} (hs : s.Separate) {n : Node} {name : Name}
    {called : Bool} (hn : ∀ x ∈ n.names, ¬s.Temporary x)
    (h : n.pathName? = some (name, called)) : ¬s.Temporary name := by
  obtain ⟨p, hp, hname⟩ := Option.map_eq_some_iff.1 h
  obtain ⟨hne, hnames⟩ := path?_eq_some hp
  rw [← (Prod.mk.inj hname).1]
  exact Scratch.not_temporary_join hs hne fun x hx => hn x (hnames x hx)

mutual

/-- The cells of the nesting roles that the code of the tree uses if `live` of them are in use. -/
def heldCells (live : Lowering.Live) : Node → List (Role × Nat)
  | binary _ _ left right _ =>
    match left.operand?, right.operand? with
    | some _, some _ => []
    | some _, none => heldCells live right
    | none, some _ => heldCells live left
    | none, none =>
      heldCells live left ++ (.secondary, live.secondary) :: heldCells live.withSecondary right
  | index _ _ i => heldCells live i
  | array _ elements => (.aggregate, live.aggregate) :: heldCellsAll live.withAggregate elements
  | call _ _ args => heldCellsAll live args
  | property _ _ member => heldCells live member
  | cond _ test yes no => heldCells live test ++ heldCellsAll live yes ++ heldCellsAll live no
  | loop _ test body => heldCells live test ++ heldCellsAll live body
  | ret _ value => heldCells live value
  | func _ _ _ _ body => heldCellsAll live body
  | program body => heldCellsAll live body
  | number .. | string .. | ident .. | pass _ | importUnit .. | param _ | type _ | missing => []

def heldCellsAll (live : Lowering.Live) : List Node → List (Role × Nat)
  | [] => []
  | n :: rest => heldCells live n ++ heldCellsAll live rest

end

theorem forall_mem_heldCellsAll {P : Role × Nat → Prop} {live : Lowering.Live} {ns : List Node} :
    (∀ p ∈ heldCellsAll live ns, P p) ↔ ∀ n ∈ ns, ∀ p ∈ n.heldCells live, P p := by
  induction ns with
  | nil => simp [heldCellsAll]
  | cons n rest ih => simp only [heldCellsAll, List.forall_mem_append, List.forall_mem_cons, ih]

theorem forall_mem_namesAll {P : Name → Prop} {ns : List Node} :
    (∀ x ∈ namesAll ns, P x) ↔ ∀ n ∈ ns, ∀ x ∈ n.names, P x := by
  simp only [mem_namesAll]
  grind

end Node

/-! ## Operands -/

/-- The two names of a cell can be written. -/
def Scratch.Fit (s t : Scratch) (r : Role) (n : Nat) : Prop :=
  (s.cell r n).length ≤ 0xFFFF ∧ (t.cell r n).length ≤ 0xFFFF

instance (s t : Scratch) (r : Role) (n : Nat) : Decidable (s.Fit t r n) :=
  inferInstanceAs (Decidable (_ ∧ _))

/-- The operand of one choice of scratch cells that stands for an operand of the other. -/
inductive Operand.StandsFor (s t : Scratch) : Operand → Operand → Prop where
  | other {o} : (∀ x, o = .cell x → ¬s.Temporary x) → StandsFor s t o o
  | scratch {r n} : s.Fit t r n → StandsFor s t (.cell (s.cell r n)) (.cell (t.cell r n))

namespace Operand.StandsFor

variable {s t : Scratch} {o o' : Operand}

theorem eq_rename (h : StandsFor s t o o') (hs : s.Separate) : o' = o.rename (s.exchange t) := by
  cases h with
  | scratch => rw [Operand.rename, Scratch.exchange_cell hs]
  | other hx =>
    cases o with
    | cell x => rw [Operand.rename, Scratch.exchange_of_not_temporary (hx x rfl)]
    | imm | data | func | unknown => rfl

theorem sameFate (h : StandsFor s t o o') :
    SameFate (Encoding.operand o) (Encoding.operand o') := by
  cases h with
  | other => exact .refl _
  | scratch hfit =>
    have hname : ∀ x : Name, x.length ≤ 0xFFFF → ∃ w, Encoding.name x = .ok w := fun x hx =>
      ⟨_, if_neg (Nat.not_lt.2 hx)⟩
    obtain ⟨w, hw⟩ := hname _ hfit.1
    obtain ⟨w', hw'⟩ := hname _ hfit.2
    simp only [Encoding.operand, hw, hw']
    exact .ok _ _

end Operand.StandsFor

end UnitScript
