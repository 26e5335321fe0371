import UnitScript.Proofs.Lowering.Operations
import UnitScript.Proofs.Lowering.Tidiness

/-!
# Where the value of an expression is

The kind of an expression is found without compiling it, from its shape and the recorded kinds.
Compilation chooses the cell that the value is left in by a case analysis of its own. The two agree:
strings and structs are in the struct cell and all else in the primary cell, and the code ends with
the instruction that writes the cell. The results of some calls are not written at all, as there are
none: a call of kind null or callback pushes nothing that could be taken from the stack.
-/

namespace UnitScript

namespace Node

/-- Whether the value of a node is the result of a call. -/
def isCall (n : Node) : Bool :=
  match n with
  | call .. => true
  | property .. => n.path?.any (·.2)
  | _ => false

theorem isCall_property_of_pathName? {pos : Position} {object member : Node} {name : Name}
    {called : Bool} (h : (property pos object member).pathName? = some (name, called)) :
    (property pos object member).isCall = called := by
  obtain ⟨path, hpath, hname⟩ := Option.map_eq_some_iff.1 h
  cases hname
  simp only [isCall, hpath, Option.any_some]

end Node

namespace Lowering

open Instruction

variable {ctx : Context} {live : Live} {st st' : State} {code : Code} {place : Operand} {k : Kind}
  {n : Node} {name : Name}

/-! ## The cells for the kinds -/

theorem isStructLike_iff : k.isStructLike = true ↔ k.tag = .string ∨ k.tag = .struct := by
  rw [Kind.isStructLike, Bool.or_eq_true, decide_eq_true_iff, decide_eq_true_iff]

theorem Context.primary_ne_structSlot (h : ctx.scratch.Separate) : ctx.primary ≠ ctx.structSlot := by
  intro heq
  have hname : ctx.scratch.name .primary = ctx.scratch.name .struct := Operand.cell.inj heq
  exact Role.noConfusion (h.distinct _ _ hname)

/-- The two cells for results differ, so the cell tells the kinds apart. -/
theorem Context.place_eq_structSlot_iff (h : ctx.scratch.Separate) :
    ctx.place k = ctx.structSlot ↔ k.tag = .string ∨ k.tag = .struct := by
  rw [← isStructLike_iff, Context.place]
  simp [Context.primary_ne_structSlot h]

theorem Context.place_eq_primary_iff (h : ctx.scratch.Separate) :
    ctx.place k = ctx.primary ↔ ¬(k.tag = .string ∨ k.tag = .struct) := by
  rw [← isStructLike_iff, Context.place]
  simp [(Context.primary_ne_structSlot h).symm]

/-! ## What the code delivers -/

def EndsWriting (code : Code) (place : Operand) : Prop :=
  ∃ front i x, code = front ++ [i] ∧ i.stores? = some x ∧ place = .cell x

/-- A call of kind null or callback leaves no result to be taken. -/
def LeavesNothing (n : Node) (k : Kind) : Prop :=
  n.isCall = true ∧ (k.tag = .null ∨ k.tag = .callback)

instance (n : Node) (k : Kind) : Decidable (LeavesNothing n k) := inferInstanceAs (Decidable (_ ∧ _))

/-- The value of a node of kind `k` is delivered to the cell for that kind. -/
structure Delivers (ctx : Context) (n : Node) (k : Kind) (code : Code) (place : Operand) : Prop where
  place_eq : place = ctx.place k
  last : if LeavesNothing n k then ∃ front target, code = front ++ [.call target, .nop]
    else EndsWriting code place

theorem delivers_of_last (front : Code) {i : Instruction} {x : Name}
    (hcall : n.isCall = false) (hplace : ctx.place k = .cell x) (hs : i.stores? = some x) :
    Delivers ctx n k (front ++ [i]) (.cell x) := by
  refine ⟨hplace.symm, ?_⟩
  rw [if_neg (by simp [LeavesNothing, hcall])]
  exact ⟨front, i, x, rfl, hs, rfl⟩

theorem exists_cell_place (ctx : Context) (k : Kind) : ∃ x, ctx.place k = .cell x := by
  unfold Context.place
  split
  · exact ⟨_, rfl⟩
  · exact ⟨_, rfl⟩

theorem delivers_mov (ctx : Context) (k : Kind) (src : Operand) (hcall : n.isCall = false) :
    Delivers ctx n k [.mov src (ctx.place k)] (ctx.place k) := by
  obtain ⟨x, hx⟩ := exists_cell_place ctx k
  rw [hx]
  exact delivers_of_last [] hcall hx rfl

theorem delivers_primary (front : Code) {i : Instruction} (hcall : n.isCall = false)
    (hs : i.stores? = some ctx.scratch.primary) :
    Delivers ctx n .number (front ++ [i]) ctx.primary :=
  delivers_of_last front hcall rfl hs

theorem delivers_popResult (pushes : Code) (target : Operand) (k : Kind)
    (hcall : n.isCall = true) :
    Delivers ctx n k (pushes ++ .call target :: (popResult ctx k).1) (popResult ctx k).2 := by
  obtain ⟨tag, result⟩ := k
  have hends : ∀ x, EndsWriting (pushes ++ [.call target, .pop (.cell x)]) (.cell x) := by
    intro x
    exact ⟨pushes ++ [.call target], .pop (.cell x), x, by simp, rfl, rfl⟩
  cases tag with
  | null | callback =>
    refine ⟨rfl, ?_⟩
    rw [if_pos ⟨hcall, by simp⟩]
    exact ⟨pushes, target, rfl⟩
  | undefined | number | string | struct | other _ =>
    refine ⟨rfl, ?_⟩
    rw [if_neg (by simp [LeavesNothing])]
    exact hends _

theorem delivers_binary {pos : Position} {op : Operator} {left right : Node}
    {type : Option TypeExpr} (hop : (op.isArithmetic || op.isComparison) = true)
    (h : BinaryCode ctx live op left right st st' code) :
    Delivers ctx (.binary pos op left right type) .number code ctx.primary := by
  cases h with
  | direct => exact delivers_primary [] rfl (stores?_combine hop _ _ _)
  | onRight | onLeft | onBoth => exact delivers_primary _ rfl (stores?_combine hop _ _ _)

/-! ## The two case analyses agree -/

theorem lookup_eq_ok {s : Symbols} (h : s.lookup name = .ok k) : s.lookup? name = some k := by
  unfold Symbols.lookup at h
  split at h
  · next kind hkind =>
    cases h
    exact hkind
  · cases h

theorem State.callKind_of_lookup (h : st.symbols.lookup name = .ok k) : st.callKind name = k := by
  unfold State.callKind
  rw [lookup_eq_ok h]
  rfl

theorem placeOf_eq (ctx : Context) (st : State) (name : Name) :
    placeOf ctx name st = .ok (ctx.place (st.callKind name), st) := by
  refine bind_eq_ok.2 ⟨st.symbols.lookup? name, st, rfl, ?_⟩
  unfold State.callKind
  cases st.symbols.lookup? name with
  | none => rfl
  | some kind => rfl

theorem delivers_read (hcall : n.isCall = false) (hk : st.symbols.lookup name = .ok k)
    (h : (do
      let place ← placeOf ctx name
      return ([Instruction.mov (.cell name) place], place)) st = .ok ((code, place), st')) :
    Delivers ctx n k code place := by
  obtain ⟨p, mid, hp, h₁⟩ := bind_eq_ok.1 h
  rw [placeOf_eq, State.callKind_of_lookup hk] at hp
  cases hp
  obtain ⟨hcode, -⟩ := pure_eq_ok.1 h₁
  cases hcode
  exact delivers_mov ctx k _ hcall

theorem delivers_call {pushes : Code}
    (hcall : n.isCall = true) (hk : (st.symbols.lookup name).map Kind.returned = .ok k)
    (hextends : Extends st st') :
    Delivers ctx n k (pushes ++ (callOf ctx st' name).1) (callOf ctx st' name).2 := by
  cases hlookup : st.symbols.lookup name with
  | error e =>
    rw [hlookup] at hk
    cases hk
  | ok kind =>
    rw [hlookup] at hk
    cases hk
    rw [← hextends.symbols] at hlookup
    rw [callOf, State.callKind_of_lookup hlookup]
    exact delivers_popResult pushes _ kind.returned hcall

theorem expr_delivers (hk : st.symbols.infer n = .ok k)
    (h : expr ctx live n st = .ok ((code, place), st')) : Delivers ctx n k code place := by
  have hextends := expr_extends n h
  cases n with
  | number =>
    cases hk
    obtain ⟨rfl, rfl, -⟩ := expr_number_eq_ok h
    exact delivers_mov ctx .number _ rfl
  | string =>
    cases hk
    obtain ⟨rfl, rfl, -⟩ := expr_string_eq_ok h
    exact delivers_mov ctx .string _ rfl
  | ident pos name =>
    rw [expr] at h
    exact delivers_read rfl hk h
  | array pos elements =>
    cases hk
    obtain ⟨rfl, stores, -, rfl⟩ := expr_array_eq_ok h
    exact delivers_primary _ rfl rfl
  | index pos name i =>
    cases hk
    obtain ⟨rfl, c, -, rfl⟩ := expr_index_eq_ok h
    rw [← List.singleton_append, ← List.append_assoc]
    exact delivers_primary _ rfl rfl
  | binary pos op left right type =>
    obtain ⟨hop, rfl, hform⟩ := expr_binary_eq_ok h
    simp only [Symbols.infer, hop, if_true] at hk
    cases hk
    exact delivers_binary hop hform
  | call pos callee args =>
    obtain ⟨name, pushes, hname, -, rfl, rfl⟩ := expr_call_form h
    -- A callee that is a path has a name for compilation, but no kind is found for its call.
    cases callee with
    | ident _ x =>
      cases hname
      exact delivers_call rfl hk hextends
    | _ => cases hk
  | property pos object member =>
    cases hp : (Node.property pos object member).pathName? with
    | none =>
      simp only [Symbols.infer, hp] at hk
      cases hk
    | some p =>
      obtain ⟨name, called⟩ := p
      have hcall := Node.isCall_property_of_pathName? hp
      cases called with
      | true =>
        simp only [Symbols.infer, hp] at hk
        cases expr_property_form h with
        | call hname hpush =>
          cases hp.symm.trans hname
          exact delivers_call hcall hk hextends
        | cell hname => cases hp.symm.trans hname
      | false =>
        simp only [Symbols.infer, hp] at hk
        simp only [expr, hp] at h
        exact delivers_read hcall hk h
  | cond | loop | ret | pass | func | importUnit | param | type | program | missing => cases hk

/-- In whatever state an expression is compiled, the kind that is found for it in that state tells
the cell of its value: the struct cell just for strings and structs, and the primary cell just for
the others. The last of its instructions overwrites that cell, except behind a call of kind null or
callback. -/
theorem expr_place_iff_infer {s : Scratch} {n : Node} (hs : s.validate = .ok ())
    (hctx : ctx.scratch = s.withDefaults) (hk : st.symbols.infer n = .ok k)
    (h : expr ctx live n st = .ok ((code, place), st')) :
    (place = ctx.structSlot ↔ k.tag = .string ∨ k.tag = .struct) ∧
      (place = ctx.primary ↔ ¬(k.tag = .string ∨ k.tag = .struct)) ∧
      if n.isCall = true ∧ (k.tag = .null ∨ k.tag = .callback) then
        ∃ front target, code = front ++ [.call target, .nop]
      else ∃ front i x, code = front ++ [i] ∧ i.stores? = some x ∧ place = .cell x := by
  have hseparate : ctx.scratch.Separate := by
    rw [hctx]
    exact Scratch.separate_of_validate hs
  obtain ⟨rfl, hlast⟩ := expr_delivers hk h
  exact ⟨Context.place_eq_structSlot_iff hseparate, Context.place_eq_primary_iff hseparate, hlast⟩

namespace PathCall

def scratch : Scratch := { primary := "acc" }

def context : Context := ⟨"main", scratch.withDefaults, none, 0⟩

/-- A callback at the end of a path that returns strings. -/
def start : State := ⟨.ofPrelude (.ofList [("io.name", ⟨.callback, .string⟩)]), 0, [], .empty⟩

/-- The call `io.name(2 * 3)`. -/
def call : Node :=
  .property ⟨1, 3⟩ (.ident ⟨1, 1⟩ "io")
    (.call ⟨1, 8⟩ (.ident ⟨1, 4⟩ "name")
      [.binary ⟨1, 11⟩ .mul (.number ⟨1, 9⟩ 2) (.number ⟨1, 13⟩ 3) none])

/-- A string comes from the call, and is in the struct cell once it is taken from the stack. -/
theorem value_in_structSlot :
    scratch.validate = .ok () ∧ start.symbols.infer call = .ok .string ∧
      ∃ code place st', expr context .none call start = .ok ((code, place), st') ∧
        place = context.structSlot ∧
        ∃ front i, code = front ++ [i] ∧ i.stores? = some (Bytes.ofString "tempstruct") := by
  have hs : scratch.validate = .ok () := rfl
  have hk : start.symbols.infer call = .ok .string := rfl
  have hctx : context.scratch = scratch.withDefaults := rfl
  obtain ⟨code, place, st', h⟩ :
      ∃ code place st', expr context .none call start = .ok ((code, place), st') := ⟨_, _, _, rfl⟩
  obtain ⟨hstruct, -, hlast⟩ := expr_place_iff_infer hs hctx hk h
  obtain rfl := hstruct.2 (.inl rfl)
  rw [if_neg (by decide)] at hlast
  obtain ⟨front, i, x, hcode, hi, hx⟩ := hlast
  cases hx
  exact ⟨hs, hk, code, _, st', h, rfl, front, i, hcode, hi⟩

end PathCall

end Lowering

end UnitScript
