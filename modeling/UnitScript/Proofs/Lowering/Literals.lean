import Mathlib.Data.List.Forall2
import UnitScript.Proofs.Lowering.Strings

/-!
# The string literals of a program and the operands for them

Code renders a list of texts when its data operands stand for these texts one after the other, in
scopes and in the bodies of functions as well; code that comes from an imported unit does not count.
Compilation names the string literals of a program by their numbers, in the order of the source, so
that code renders the literals whatever the names stand for.
-/

namespace UnitScript

namespace Node

mutual

/-- The string literals of a node, from left to right. -/
def literals : Node → List Bytes
  | string _ value => [value]
  | array _ elements => literalsOfAll elements
  | binary _ _ left right _ => literals left ++ literals right
  | index _ _ position => literals position
  | property _ object member => literals object ++ literals member
  | call _ callee args => literals callee ++ literalsOfAll args
  | cond _ test yes no => literals test ++ (literalsOfAll yes ++ literalsOfAll no)
  | loop _ test body => literals test ++ literalsOfAll body
  | ret _ value => literals value
  | func _ _ _ _ body => literalsOfAll body
  | program body => literalsOfAll body
  | number .. | ident .. | pass _ | importUnit .. | param _ | type _ | missing => []

def literalsOfAll : List Node → List Bytes
  | [] => []
  | n :: rest => literals n ++ literalsOfAll rest

end

theorem literals_of_operand? {n : Node} {o : Operand} (h : n.operand? = some o) :
    n.literals = [] := by
  cases n with
  | number | ident => rw [literals]
  | _ => cases h

theorem literals_of_path? {n : Node} {p : List Name × Bool} (h : n.path? = some p) :
    n.literals = literalsOfAll n.pathArgs := by
  fun_induction Node.path? n generalizing p with
  | case1 pos objectPos object member ih =>
    obtain ⟨q, hq, -⟩ := Option.map_eq_some_iff.1 h
    simpa [literals, pathArgs] using ih hq
  | case2 | case3 => simp [literals, literalsOfAll, pathArgs]
  | case4 => cases h

theorem pathArgs_of_path? {n : Node} {names : List Name} (h : n.path? = some (names, false)) :
    n.pathArgs = [] := by
  fun_induction Node.path? n generalizing names with
  | case1 pos objectPos object member ih =>
    obtain ⟨⟨rest, called⟩, hq, hp⟩ := Option.map_eq_some_iff.1 h
    cases hp
    exact ih hq
  | case2 => rfl
  | case3 => cases h
  | case4 => cases h

theorem literals_of_pathName? {n : Node} {p : Name × Bool} (h : n.pathName? = some p) :
    n.literals = literalsOfAll n.pathArgs := by
  obtain ⟨q, hq, -⟩ := Option.map_eq_some_iff.1 h
  exact literals_of_path? hq

theorem literals_of_uncalled {n : Node} {name : Name} (h : n.pathName? = some (name, false)) :
    n.literals = [] := by
  obtain ⟨⟨names, called⟩, hq, hp⟩ := Option.map_eq_some_iff.1 h
  cases hp
  rw [literals_of_path? hq, pathArgs_of_path? hq, literalsOfAll]

end Node

/-! ## Code that renders texts -/

def Operand.dataName? : Operand → Option Name
  | .data name => some name
  | _ => none

@[simp] theorem Operand.dataName?_imm (value : Int64) : (imm value).dataName? = none := rfl

@[simp] theorem Operand.dataName?_cell (name : Name) : (cell name).dataName? = none := rfl

def Instruction.dataNames (i : Instruction) : List Name := i.args.filterMap Operand.dataName?

/-- The data operands of code stand for the texts, in their order: those of its instructions, of the
scopes among them and of the bodies of functions, which are kept in encoded form. The code of a unit
that counts as imported may stand anywhere. -/
inductive Renders (stands : Name → Bytes → Prop) (imported : CodeUnit → Prop) :
    List Bytes → List Instruction → Prop where
  | nil : Renders stands imported [] []
  | own {i texts more code} : i.op ≠ .scope → i.op ≠ .func → List.Forall₂ stands i.dataNames texts →
      Renders stands imported more code → Renders stands imported (texts ++ more) (i :: code)
  | scope {inner texts more code} : Renders stands imported texts inner →
      Renders stands imported more code →
      Renders stands imported (texts ++ more) (.scope inner :: code)
  | function {record body texts more code} : Encoding.code body = .ok record.body →
      Renders stands imported texts body → Renders stands imported more code →
      Renders stands imported (texts ++ more) (.function record :: code)
  | splice {v more code} : imported v → Renders stands imported more code →
      Renders stands imported more (v.code ++ code)

theorem Renders.append {stands : Name → Bytes → Prop} {imported : CodeUnit → Prop}
    {texts more : List Bytes} {c d : List Instruction} (hc : Renders stands imported texts c)
    (hd : Renders stands imported more d) : Renders stands imported (texts ++ more) (c ++ d) := by
  induction hc with
  | nil => exact hd
  | own hscope hfunc hargs _ ih =>
    rw [List.append_assoc]
    exact .own hscope hfunc hargs ih
  | scope hinner _ _ ih =>
    rw [List.append_assoc]
    exact .scope hinner ih
  | function hbody hinner _ _ ih =>
    rw [List.append_assoc]
    exact .function hbody hinner ih
  | splice hv _ ih =>
    rw [List.append_assoc]
    exact .splice hv ih

namespace Lowering

open Instruction

variable {ctx : Context} {live : Live} {st st' : State} {c d code : Code} {place src : Operand}
  {i : Instruction} {k : Nat} {names more : List Name} {texts rest : List Bytes}

/-- The unit is what an import of one of the names gives. -/
def Context.Imports (ctx : Context) (names : List Name) (v : CodeUnit) : Prop :=
  ∃ includer name, ctx.includer = some includer ∧ name ∈ names ∧ includer name = .ok v

theorem Context.Imports.mono {v : CodeUnit} (h : ctx.Imports names v)
    (hsub : ∀ name ∈ names, name ∈ more) : ctx.Imports more v := by
  obtain ⟨includer, name, hinc, hname, hv⟩ := h
  exact ⟨includer, name, hinc, hsub name hname, hv⟩

/-- Code for literals that are numbered from `k` on, with imports of the names: whatever the numbered
names stand for, it renders that. -/
def Spells (ctx : Context) (k : Nat) (names : List Name) (texts : List Bytes) (c : Code) : Prop :=
  ∀ ⦃stands : Name → Bytes → Prop⦄ ⦃imported : CodeUnit → Prop⦄,
    (∀ j text, texts[j]? = some text → stands (stringName ctx (k + j)) text) →
    (∀ v, ctx.Imports names v → imported v) → Renders stands imported texts c

theorem Spells.append (hc : Spells ctx k names texts c)
    (hd : Spells ctx (k + texts.length) more rest d) :
    Spells ctx k (names ++ more) (texts ++ rest) (c ++ d) := by
  intro stands imported hstands himported
  apply Renders.append
  · apply hc
    · intro j text hj
      apply hstands
      rw [List.getElem?_append_left (List.getElem?_eq_some_iff.1 hj).1]
      exact hj
    · exact fun v hv => himported v (hv.mono fun name hname => List.mem_append_left _ hname)
  · apply hd
    · intro j text hj
      rw [Nat.add_assoc]
      apply hstands
      rw [List.getElem?_append_right (Nat.le_add_right _ _), Nat.add_sub_cancel_left]
      exact hj
    · exact fun v hv => himported v (hv.mono fun name hname => List.mem_append_right _ hname)

def Textless (c : Code) : Prop := ∀ i ∈ c, i.op ≠ .scope ∧ i.op ≠ .func ∧ i.dataNames = []

theorem textless_nil : Textless [] := by simp [Textless]

theorem textless_single (hop : i.op ≠ .scope ∧ i.op ≠ .func)
    (hargs : ∀ o ∈ i.args, o.dataName? = none) : Textless [i] := by
  intro j hj
  obtain rfl := List.mem_singleton.1 hj
  exact ⟨hop.1, hop.2, List.filterMap_eq_nil_iff.2 hargs⟩

theorem Textless.append (hc : Textless c) (hd : Textless d) : Textless (c ++ d) :=
  List.forall_mem_append.2 ⟨hc, hd⟩

theorem Textless.spells (h : Textless c) : Spells ctx k [] [] c := by
  intro stands imported _ _
  induction c with
  | nil => exact .nil
  | cons i c ih =>
    rw [Textless, List.forall_mem_cons] at h
    obtain ⟨⟨hscope, hfunc, hnames⟩, hc⟩ := h
    have hargs : List.Forall₂ stands i.dataNames [] := by
      rw [hnames]
      exact .nil
    exact Renders.own hscope hfunc hargs (ih hc)

theorem spells_data {text : Bytes} (hscope : i.op ≠ .scope) (hfunc : i.op ≠ .func)
    (hnames : i.dataNames = [stringName ctx k]) : Spells ctx k [] [text] [i] := by
  intro stands imported hstands _
  have hargs : List.Forall₂ stands i.dataNames [text] := by
    rw [hnames]
    exact .cons (hstands 0 text rfl) .nil
  exact Renders.own hscope hfunc hargs .nil

theorem Spells.scope (h : Spells ctx k names texts c) : Spells ctx k names texts [.scope c] := by
  intro stands imported hstands himported
  have hinner := h hstands himported
  simpa using Renders.scope hinner .nil

theorem Spells.function {record : FunctionRecord} (h : Spells ctx k names texts c)
    (hbody : Encoding.code c = .ok record.body) :
    Spells ctx k names texts [.function record] := by
  intro stands imported hstands himported
  have hinner := h hstands himported
  simpa using Renders.function hbody hinner .nil

theorem spells_splice {v : CodeUnit} (h : ctx.Imports names v) :
    Spells ctx k names [] v.code := by
  intro stands imported _ himported
  simpa using Renders.splice (himported v h) .nil

end Lowering

end UnitScript
