import UnitScript.Machine.State
import UnitScript.Proofs.Lowering.Operations
import UnitScript.Proofs.Lowering.Scratch
import UnitScript.Proofs.Meaning.Direct
import UnitScript.Proofs.NameMap

/-!
# String constants of a unit

Compiling a call-free program only ever adds string constants at the end of the data, and names them
by their numbers. So the names are distinct, and on the machine each name stands for its own string.
-/

namespace UnitScript.Lowering

open Meaning

def stringName (ctx : Context) (i : Nat) : Name := ctx.unitName ++ ".str" ++ Bytes.ofNat i

theorem stringName_injective {ctx : Context} {i j : Nat}
    (h : stringName ctx i = stringName ctx j) : i = j :=
  Bytes.ofNat_injective (List.append_cancel_left h)

def Numbered (ctx : Context) (st : State) : Prop :=
  st.data.map (·.name) = (List.range st.strings).map (stringName ctx)

structure Grows (ctx : Context) (st st' : State) : Prop where
  data : st.data <+: st'.data
  numbered : Numbered ctx st → Numbered ctx st'

variable {ctx : Context} {live : Live} {names : Name → Prop} {n : Node} {st st₁ st' : State}
  {code : Code} {place : Operand}

theorem Grows.refl (ctx : Context) (st : State) : Grows ctx st st := ⟨List.prefix_rfl, fun h => h⟩

theorem Grows.trans (h : Grows ctx st st₁) (g : Grows ctx st₁ st') : Grows ctx st st' :=
  ⟨h.data.trans g.data, fun hn => g.numbered (h.numbered hn)⟩

theorem SameStrings.grows (h : SameStrings st st') : Grows ctx st st' := by
  refine ⟨by simp [h.2], fun hn => ?_⟩
  unfold Numbered
  rw [h.1, h.2]
  exact hn

theorem grows_withString (ctx : Context) (st : State) (value : Bytes) :
    Grows ctx st (withString ctx st value) := by
  refine ⟨List.prefix_append _ _, fun hn => ?_⟩
  change (st.data ++ [_]).map _ = (List.range (st.strings + 1)).map _
  rw [List.range_succ, List.map_append, List.map_append, hn]
  rfl

theorem grows_steady (ctx : Context) : Steady ctx (Grows ctx) :=
  ⟨.refl ctx, .trans, grows_withString ctx⟩

theorem Reach.grows {src : Operand} (h : Reach ctx live n st st' code src) : Grows ctx st st' :=
  (grows_steady ctx).reach h

theorem expr_grows (h : expr ctx live n st = .ok ((code, place), st')) : Grows ctx st st' :=
  (grows_steady ctx).expr h

theorem stmt_formula_eq_ok (hn : Formula names n) (h : stmt ctx n st = .ok (code, st')) :
    ∃ place, expr ctx .none n st = .ok ((code, place), st') := by
  have heq : stmt ctx n = Prod.fst <$> expr ctx .none n := by
    cases hn with
    | @binary pos type op left right hop hl hr =>
      cases op <;> first | rfl | cases hop
    | number | string | ident | index | array => rfl
  rw [heq] at h
  obtain ⟨⟨c, place⟩, he, rfl⟩ := map_eq_ok.1 h
  exact ⟨place, he⟩

theorem Lowers.grows {ns : List Node} (h : Lowers ctx ns st st' code)
    (hfuncs : Node.outerFunctionsOfAll ns = []) (himports : Node.importsOfAll ns = []) :
    Grows ctx st st' := by
  induction h with
  | nil | leave | pass => exact .refl _ _
  | cons _ _ ih ih' =>
    simp only [Node.outerFunctionsOfAll, Node.importsOfAll, List.append_eq_nil_iff] at hfuncs himports
    exact (ih (by simpa [Node.outerFunctionsOfAll] using hfuncs.1)
      (by simpa [Node.importsOfAll] using himports.1)).trans (ih' hfuncs.2 himports.2)
  | value _ he => exact expr_grows he
  | declare _ hd hr =>
    obtain ⟨symbols, -, rfl⟩ := declare_symbols hd
    exact ⟨hr.grows.data, hr.grows.numbered⟩
  | assign _ _ hr | ret _ hr => exact hr.grows
  | cond hc _ _ ih ih' =>
    simp only [Node.outerFunctionsOfAll, Node.outerFunctions, Node.importsOfAll, Node.imports,
      List.append_nil, List.append_eq_nil_iff] at hfuncs himports
    have hyes := ih hfuncs.1 himports.1
    have hno := ih' hfuncs.2 himports.2
    exact (expr_grows hc).trans (.trans ⟨hyes.data, hyes.numbered⟩ ⟨hno.data, hno.numbered⟩)
  | loop hc _ ih =>
    simp only [Node.outerFunctionsOfAll, Node.outerFunctions, Node.importsOfAll, Node.imports,
      List.append_nil] at hfuncs himports
    have hbody := ih hfuncs himports
    exact (expr_grows hc).trans ⟨hbody.data, hbody.numbered⟩
  | func => simp [Node.outerFunctionsOfAll, Node.outerFunctions] at hfuncs
  | splice => simp [Node.importsOfAll, Node.imports] at himports

theorem alone_of_forall {ns : List Node} (h : ∀ n ∈ ns, n.outerFunctions = [] ∧ n.imports = []) :
    Node.outerFunctionsOfAll ns = [] ∧ Node.importsOfAll ns = [] := by
  induction ns with
  | nil => exact ⟨rfl, rfl⟩
  | cons n rest ih =>
    rw [List.forall_mem_cons] at h
    simp [Node.outerFunctionsOfAll, Node.importsOfAll, h.1, ih h.2]

theorem CallFree.alone (h : CallFree names n) : n.outerFunctions = [] ∧ n.imports = [] := by
  induction h with
  | declare | assign | ret | bareRet | pass => exact ⟨rfl, rfl⟩
  | cond _ _ _ _ ihyes ihno =>
    simp [Node.outerFunctions, Node.imports, alone_of_forall ihyes, alone_of_forall ihno]
  | loop _ _ _ ih => simp [Node.outerFunctions, Node.imports, alone_of_forall ih]
  | expression hf => cases hf <;> exact ⟨rfl, rfl⟩

theorem callFree_alone {ns : List Node} (h : ∀ n ∈ ns, CallFree names n) :
    Node.outerFunctionsOfAll ns = [] ∧ Node.importsOfAll ns = [] :=
  alone_of_forall fun n hn => CallFree.alone (h n hn)

theorem stmts_grows {body : List Node} (hn : ∀ n ∈ body, CallFree names n)
    (h : stmts ctx body st = .ok (code, st')) : Grows ctx st st' :=
  (lowers_of_stmts body h).grows (callFree_alone hn).1 (callFree_alone hn).2

theorem inBlock_grows {body : List Node} (hn : ∀ n ∈ body, CallFree names n)
    (h : inBlock (stmts ctx body) st = .ok (code, st')) : Grows ctx st st' := by
  obtain ⟨u, v, hu, hs, hv⟩ := inBlock_eq_ok h
  exact hu.grows.trans ((stmts_grows hn hs).trans hv.grows)

def Covers (strings : NameMap Bytes) (st : State) : Prop :=
  ∀ d ∈ st.data, strings.get? d.name = some d.value

theorem Covers.before {strings : NameMap Bytes} (h : Covers strings st') (hg : Grows ctx st st') :
    Covers strings st :=
  fun d hd => h d (hg.data.subset hd)

theorem Numbered.covers (h : Numbered ctx st) :
    Covers (NameMap.ofList (st.data.map fun d => (d.name, d.value))) st := by
  intro d hd
  have hnodup : ((st.data.map fun d => (d.name, d.value)).map (·.1)).Nodup := by
    rw [List.map_map]
    change (st.data.map (·.name)).Nodup
    rw [h]
    exact List.pairwise_map.2 (List.nodup_range.imp fun hne heq => hne (stringName_injective heq))
  rw [NameMap.get?_ofList hnodup]
  exact NameMap.findEntry_of_mem hnodup (List.mem_map_of_mem hd)

end UnitScript.Lowering
