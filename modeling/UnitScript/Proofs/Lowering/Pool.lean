import UnitScript.Proofs.Code.Renaming
import UnitScript.Proofs.Lowering.Assembly
import UnitScript.Proofs.Machine.Data

/-!
# The string pool

A program without imports is compiled with one constant for each of its string literals. A function
collects the constants of its body in data of its own, and these go to the stream around it when the body
ends; since the numbers go on meanwhile, the constants stand in the order of the source in the end. The
data operands of the code are the names of the constants in that order, where those of a function's body
are counted at its record.
-/

namespace UnitScript

namespace Instruction

/-- The names of the data operands of code, in order: those of its instructions, of the scopes among
them, and of functions. The body of a function is the code that its record has the written form of. -/
inductive DataOperands : List Instruction → List Name → Prop where
  | nil : DataOperands [] []
  | plain {i c names} : i.op ≠ .scope → i.op ≠ .func → DataOperands c names →
      DataOperands (i :: c) (i.dataNames ++ names)
  | scope {d c inner names} : DataOperands d inner → DataOperands c names →
      DataOperands (.scope d :: c) (inner ++ names)
  | function {record b c inner names} : IsBody b record.body → DataOperands b inner →
      DataOperands c names → DataOperands (.function record :: c) (inner ++ names)

variable {c d : List Instruction} {names more : List Name}

theorem DataOperands.append (hc : DataOperands c names) (hd : DataOperands d more) :
    DataOperands (c ++ d) (names ++ more) := by
  induction hc with
  | nil => exact hd
  | plain hscope hfunc _ ih =>
    rw [List.append_assoc]
    exact .plain hscope hfunc ih
  | scope hinner _ _ ih =>
    rw [List.append_assoc]
    exact .scope hinner ih
  | function hbody hinner _ _ ih =>
    rw [List.append_assoc]
    exact .function hbody hinner ih

theorem DataOperands.inScope (h : DataOperands c names) : DataOperands [.scope c] names := by
  simpa using DataOperands.scope h .nil

theorem DataOperands.inFunction {record : FunctionRecord} (h : DataOperands c names)
    (hbody : IsBody c record.body) : DataOperands [.function record] names := by
  simpa using DataOperands.function hbody h .nil

end Instruction

namespace Datum

theorem merge_eq_append {data more : List Datum} (hnew : ∀ d ∈ more, ∀ e ∈ data, e.name ≠ d.name)
    (hdistinct : (more.map (·.name)).Nodup) : merge data more = (data ++ more, none) := by
  induction more generalizing data with
  | nil => rw [merge, List.append_nil]
  | cons d rest ih =>
    rw [List.forall_mem_cons] at hnew
    rw [List.map_cons, List.nodup_cons] at hdistinct
    have hfind : find? data d.name = none := by
      unfold find?
      rw [Option.map_eq_none_iff, List.find?_eq_none]
      simpa using hnew.1
    have hrest : ∀ x ∈ rest, ∀ e ∈ data ++ [d], e.name ≠ x.name := by
      intro x hx e he heq
      rcases List.mem_append.1 he with he | he
      · exact hnew.2 x hx e he heq
      · rw [List.mem_singleton.1 he] at heq
        exact hdistinct.1 (heq ▸ List.mem_map_of_mem hx)
    simp only [merge, hfind]
    rw [ih hrest hdistinct.2, List.append_assoc]
    rfl

end Datum

namespace Lowering

open Instruction

variable {ctx : Context} {st mid st' : State} {c d : Code} {k : Nat} {texts rest : List Bytes}

/-! ## The constants of literals -/

def Context.pool (ctx : Context) (k : Nat) (texts : List Bytes) : List Datum :=
  texts.mapIdx fun j text => ⟨stringName ctx (k + j), text⟩

theorem pool_append (ctx : Context) (k : Nat) (texts rest : List Bytes) :
    ctx.pool k (texts ++ rest) = ctx.pool k texts ++ ctx.pool (k + texts.length) rest := by
  have hnumber : ∀ j, k + (j + texts.length) = k + texts.length + j := fun j => by omega
  unfold Context.pool
  rw [List.mapIdx_append]
  simp only [hnumber]

theorem map_name_pool (ctx : Context) (k : Nat) (texts : List Bytes) :
    (ctx.pool k texts).map (·.name) =
      (List.range texts.length).map fun j => stringName ctx (k + j) := by
  apply List.ext_getElem
  · simp [Context.pool]
  · intro j _ _
    simp [Context.pool]

theorem exists_of_mem_pool {e : Datum} (h : e ∈ ctx.pool k texts) :
    ∃ j, k ≤ j ∧ j < k + texts.length ∧ e.name = stringName ctx j := by
  have hname : e.name ∈ (ctx.pool k texts).map (·.name) := List.mem_map_of_mem h
  rw [map_name_pool] at hname
  obtain ⟨j, hj, hname⟩ := List.mem_map.1 hname
  have hlt := List.mem_range.1 hj
  exact ⟨k + j, by omega, by omega, hname.symm⟩

theorem nodup_names_pool (ctx : Context) (k : Nat) (texts : List Bytes) :
    ((ctx.pool k texts).map (·.name)).Nodup := by
  rw [map_name_pool]
  refine List.pairwise_map.2 (List.nodup_range.imp fun hne heq => hne ?_)
  have := stringName_injective heq
  omega

/-- The numbers from the present one on name no constant yet. -/
def Context.Fresh (ctx : Context) (st : State) : Prop :=
  ∀ e ∈ st.data, ∀ j, st.strings ≤ j → e.name ≠ stringName ctx j

/-- From `st` to `st'` a constant was added for each text, and the code has their names as its data
operands. -/
structure Pools (ctx : Context) (texts : List Bytes) (st st' : State) (c : Code) : Prop where
  strings : st'.strings = st.strings + texts.length
  data : ctx.Fresh st → st'.data = st.data ++ ctx.pool st.strings texts
  operands : DataOperands c ((ctx.pool st.strings texts).map (·.name))

theorem Pools.fresh (h : Pools ctx texts st mid c) (hst : ctx.Fresh st) : ctx.Fresh mid := by
  intro e he j hj
  rw [h.strings] at hj
  rw [h.data hst] at he
  rcases List.mem_append.1 he with he | he
  · exact hst e he j (by omega)
  · obtain ⟨i, -, hi, hname⟩ := exists_of_mem_pool he
    rw [hname]
    intro heq
    have := stringName_injective heq
    omega

theorem Pools.append (hc : Pools ctx texts st mid c) (hd : Pools ctx rest mid st' d) :
    Pools ctx (texts ++ rest) st st' (c ++ d) := by
  have hstrings := hc.strings
  refine ⟨?_, fun hst => ?_, ?_⟩
  · rw [hd.strings, hstrings, List.length_append, Nat.add_assoc]
  · rw [hd.data (hc.fresh hst), hc.data hst, hstrings, pool_append, List.append_assoc]
  · rw [pool_append, List.map_append, ← hstrings]
    exact hc.operands.append hd.operands

theorem Textless.pools (h : Textless c) : Pools ctx [] st st c := by
  refine ⟨rfl, fun _ => (List.append_nil _).symm, ?_⟩
  change DataOperands c []
  induction c with
  | nil => exact .nil
  | cons i c ih =>
    rw [Textless, List.forall_mem_cons] at h
    obtain ⟨⟨hscope, hfunc, hnames⟩, hc⟩ := h
    have hall := DataOperands.plain hscope hfunc (ih hc)
    rwa [hnames] at hall

theorem pools_literal {i : Instruction} (hscope : i.op ≠ .scope) (hfunc : i.op ≠ .func)
    (hnames : i.dataNames = [nextString ctx st]) (value : Bytes) :
    Pools ctx [value] st (withString ctx st value) [i] := by
  refine ⟨rfl, fun _ => rfl, ?_⟩
  have hall := DataOperands.plain hscope hfunc .nil
  rwa [hnames] at hall

/-- The constants of a body are new to the data around it, so that they are all added at the end. -/
theorem Pools.merge {first last : State} {record : FunctionRecord}
    (h : Pools ctx texts first last c) (hdata : first.data = [])
    (hfirst : first.strings = st.strings)
    (hmerge : Datum.merge st.data last.data = (st'.data, none))
    (hstrings : st'.strings = last.strings) (hbody : IsBody c record.body) :
    Pools ctx texts st st' [.function record] := by
  have hown : last.data = ctx.pool st.strings texts := by
    have hfresh : ctx.Fresh first := by
      intro e he
      rw [hdata] at he
      cases he
    rw [h.data hfresh, hdata, hfirst, List.nil_append]
  refine ⟨?_, fun hst => ?_, ?_⟩
  · rw [hstrings, h.strings, hfirst]
  · have hnew : ∀ d ∈ last.data, ∀ e ∈ st.data, e.name ≠ d.name := by
      intro d hd e he
      rw [hown] at hd
      obtain ⟨j, hj, -, hname⟩ := exists_of_mem_pool hd
      rw [hname]
      exact hst e he j hj
    have hdistinct : (last.data.map (·.name)).Nodup := by
      rw [hown]
      exact nodup_names_pool ctx st.strings texts
    rw [Datum.merge_eq_append hnew hdistinct] at hmerge
    rw [← (Prod.mk.inj hmerge).1, hown]
  · rw [← hfirst]
    exact h.operands.inFunction hbody

theorem Pools.of_same {u v : State} (h : Pools ctx texts u v c) (hu : SameStrings st u)
    (hv : SameStrings v st') : Pools ctx texts st st' c := by
  obtain ⟨hstrings, hdata⟩ := hu
  obtain ⟨hstrings', hdata'⟩ := hv
  refine ⟨?_, fun hst => ?_, ?_⟩
  · rw [hstrings', h.strings, hstrings]
  · have hfresh : ctx.Fresh u := by
      unfold Context.Fresh
      rw [hstrings, hdata]
      exact hst
    rw [hdata', h.data hfresh, hdata, hstrings]
  · rw [← hstrings]
    exact h.operands

/-- Without imports, code is put together along with the constants for its literals. -/
theorem pools_assembly :
    Assembly fun ctx names texts st st' c => names = [] → Pools ctx texts st st' c where
  textless h _ := h.pools
  literal hscope hfunc hnames _ := pools_literal hscope hfunc hnames _
  append hc hd hnames := by
    obtain ⟨hleft, hright⟩ := List.append_eq_nil_iff.1 hnames
    exact (hc hleft).append (hd hright)
  of_same h hu hv hnames := (h hnames).of_same hu hv
  scope h hnames := ⟨(h hnames).strings, (h hnames).data, (h hnames).operands.inScope⟩
  function {ctx _ texts _ _ first last c _} h hdata hfirst hmerge hstrings hbody hformed hnames := by
    subst hnames
    have hinner := h rfl
    have hown : Pools ctx texts first last c := ⟨hinner.strings, hinner.data, hinner.operands⟩
    have hnone : ctx.ImportsHave Formed [] := by
      intro _ _ _ hname
      cases hname
    exact hown.merge hdata hfirst hmerge hstrings (isBody_of_encode (hformed hnone) hbody)
  splice _ _ _ _ hnames := by cases hnames

end Lowering

open Instruction

/-- The string pool of a program without imports is exact. The data of the unit are the string literals
of the program in the order of the source, those in functions included, under the numbered names. The
data operands of the code are these names in the same order, each of them once, where the operands of a
function's body are counted at its record. -/
theorem CodeUnit.string_pool_exact {o : CompileOptions} {body : List Node} {u : CodeUnit}
    (himports : Node.importsOfAll body = []) (hu : compile o (.program body) = .ok u) :
    u.data = (Node.literalsOfAll body).mapIdx
      (fun k text => ⟨u.name ++ ".str" ++ Bytes.ofNat k, text⟩) ∧
    DataOperands u.code (u.data.map (·.name)) ∧ (u.data.map (·.name)).Nodup := by
  obtain ⟨ctx, -, -, -, -, st, hstmts, hdata, -, hname⟩ := compile_eq_ok hu
  have hpools := Lowering.pools_assembly.of_lowers (Lowering.lowers_of_stmts body hstmts) himports
  have hfresh : ctx.Fresh ⟨.ofPrelude o.prelude, 0, [], .empty⟩ := by
    intro e he
    cases he
  have hpool : u.data = ctx.pool 0 (Node.literalsOfAll body) := by
    rw [hdata, hpools.data hfresh]
    rfl
  refine ⟨?_, ?_, ?_⟩
  · rw [hpool, hname]
    simp only [Lowering.Context.pool, Lowering.stringName, Nat.zero_add]
  · rw [hpool]
    exact hpools.operands
  · rw [hpool]
    exact Lowering.nodup_names_pool ctx 0 _

/-! ## Literals in a function within a function -/

def pooledBody : List Node :=
  (Program.ofSource ("let a = \"x\"; func f(): string \x7b func g(): string \x7b return \"y\"; \x7d " ++
    "if 1 \x7b a = \"x\"; \x7d return g(); \x7d return [\"z\", f()];")).1

def pooledUnit : CodeUnit :=
  (CodeUnit.compile { name := "lib" } (.program pooledBody)).toOption.getD { name := [] }

/-- A literal that comes twice has two constants, and the inner function's comes before what follows
it in the outer one. -/
theorem pooled_string_pool :
    Node.importsOfAll pooledBody = [] ∧
    CodeUnit.compile { name := "lib" } (.program pooledBody) = .ok pooledUnit ∧
    pooledUnit.data =
      [⟨"lib.str0", "x"⟩, ⟨"lib.str1", "y"⟩, ⟨"lib.str2", "x"⟩, ⟨"lib.str3", "z"⟩] ∧
    DataOperands pooledUnit.code ["lib.str0", "lib.str1", "lib.str2", "lib.str3"] := by
  have hchecks : Node.importsOfAll pooledBody = [] ∧
      (CodeUnit.compile { name := "lib" } (.program pooledBody)).isOk = true ∧
      pooledUnit.data =
        [⟨"lib.str0", "x"⟩, ⟨"lib.str1", "y"⟩, ⟨"lib.str2", "x"⟩, ⟨"lib.str3", "z"⟩] := by
    decide +kernel
  obtain ⟨himports, hok, hdata⟩ := hchecks
  have hcompile : CodeUnit.compile { name := "lib" } (.program pooledBody) = .ok pooledUnit :=
    eq_ok_of_isOk hok _
  obtain ⟨-, hoperands, -⟩ := CodeUnit.string_pool_exact himports hcompile
  rw [hdata] at hoperands
  exact ⟨himports, hcompile, hdata, hoperands⟩

end UnitScript
