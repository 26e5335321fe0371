import UnitScript.Proofs.Lowering.Operations
import UnitScript.Proofs.Lowering.Tidiness
import UnitScript.Proofs.Machine.Runs
import UnitScript.Proofs.NameMap

/-!
# What a unit exports

The compiler notes the functions that are declared outside of function bodies, in branches and loops
as well. When a unit is run, the functions on the walk through its code are registered first. For a
program without imports the two are the same functions in the same order, so that of several
functions with one name the last counts on both sides.
-/

namespace UnitScript

namespace Node

mutual

theorem outerFunctions_kind : ∀ n : Node, ∀ e ∈ n.outerFunctions, ∃ result, e.2 = .orNumber result
  | func _ _ _ result _ => List.forall_mem_singleton.2 ⟨result, rfl⟩
  | cond _ _ yes no =>
    List.forall_mem_append.2 ⟨outerFunctionsOfAll_kind yes, outerFunctionsOfAll_kind no⟩
  | loop _ _ body => outerFunctionsOfAll_kind body
  | binary .. | number .. | string .. | ident .. | index .. | array .. | call .. | property ..
  | param _ | type _ | program _ | ret .. | importUnit .. | pass _ | missing => List.forall_mem_nil _

theorem outerFunctionsOfAll_kind : ∀ ns : List Node, ∀ e ∈ outerFunctionsOfAll ns,
    ∃ result, e.2 = .orNumber result
  | [] => List.forall_mem_nil _
  | n :: rest => List.forall_mem_append.2 ⟨outerFunctions_kind n, outerFunctionsOfAll_kind rest⟩

end

end Node

namespace Instruction

variable {c d : List Instruction}

def records (c : List Instruction) : List FunctionRecord :=
  (walkAll c).filterMap fun i => if i.op = .func then i.func else none

theorem records_append (c d : List Instruction) : records (c ++ d) = records c ++ records d := by
  rw [records, walkAll_append, List.filterMap_append]
  rfl

theorem records_scope (c : List Instruction) : records [.scope c] = records c := by
  simp [records, scope, walkAll, walk]

theorem records_eq_nil (h : Throughout (·.op ≠ .func) c) : records c = [] :=
  List.filterMap_eq_nil_iff.2 fun i hi => if_neg (h i hi)

theorem records_condScope (test : Operand) (c d : List Instruction) :
    records [Lowering.condScope test c d] = records c ++ records d := by
  rw [Lowering.condScope, records_scope, ← records_scope c, ← records_scope d]
  simp [records, scope, jeq, jmp, walkAll, walk]

theorem records_loopScope (test : Operand) (c d : List Instruction) :
    records [Lowering.loopScope c test d] = records c ++ records d := by
  rw [Lowering.loopScope, records_scope, ← records_scope c, ← records_scope d]
  simp [records, scope, jeq, jmp, walkAll, walk]

end Instruction

namespace Lowering

open Instruction

variable {ctx : Context} {live : Live} {st st' : State} {c code : Code}

theorem exports_steady (ctx : Context) : Steady ctx fun st st' => st'.exports = st.exports :=
  ⟨fun _ => rfl, fun h g => g.trans h, fun _ _ => rfl⟩

theorem Lowers.exports {ns : List Node} (h : Lowers ctx ns st st' code) :
    st'.exports = if ctx.depth = 0 then
      (Node.outerFunctionsOfAll ns).foldl (fun m e => m.insert e.1 e.2) st.exports
    else st.exports := by
  induction h with
  | nil => simp [Node.outerFunctionsOfAll]
  | cons _ _ ih ih' =>
    rw [ih', ih]
    split <;> simp [Node.outerFunctionsOfAll]
  | value hvalue he =>
    rw [(exports_steady _).expr he]
    simp [Node.outerFunctionsOfAll, Node.outerFunctions_of_isValue hvalue]
  | declare _ hd hr =>
    obtain ⟨symbols, -, rfl⟩ := declare_symbols hd
    simp [Node.outerFunctionsOfAll, Node.outerFunctions, (exports_steady _).reach hr]
  | assign _ _ hr | ret _ hr =>
    simp [Node.outerFunctionsOfAll, Node.outerFunctions, (exports_steady _).reach hr]
  | cond hc _ _ ih ih' =>
    simp only [State.entered, State.left] at ih ih' ⊢
    rw [ih', ih, (exports_steady _).expr hc]
    split <;> simp [Node.outerFunctionsOfAll, Node.outerFunctions]
  | loop hc _ ih =>
    simp only [State.entered, State.left] at ih ⊢
    rw [ih, (exports_steady _).expr hc]
    simp [Node.outerFunctionsOfAll, Node.outerFunctions]
  | func _ hslots _ _ _ _ _ hexports ih =>
    obtain ⟨symbols, rfl⟩ := parameters_states hslots
    simp only [Context.inner, State.inner, Nat.succ_ne_zero, if_false] at ih
    rw [hexports, ih]
    simp [Node.outerFunctionsOfAll, Node.outerFunctions]
  | splice h =>
    obtain ⟨includer, unit, data, -, -, -, -, rfl⟩ := splice_states h
    simp [Node.outerFunctionsOfAll, Node.outerFunctions]
  | leave | pass => simp [Node.outerFunctionsOfAll, Node.outerFunctions]

theorem Computing.records_eq_nil (h : Computing ctx live c) : records c = [] :=
  Instruction.records_eq_nil (h.throughout fun i hi => (not_scope_of_plain (h.plain i hi)).2)

theorem Lowers.functionRecords {ns : List Node} (h : Lowers ctx ns st st' code)
    (himports : Node.importsOfAll ns = []) :
    (Instruction.records code).map (fun r => (r.name, r.result)) =
      (Node.outerFunctionsOfAll ns).map fun e => (e.1, Storage.ofKind e.2) := by
  induction h with
  | nil => rfl
  | @cons _ n _ _ _ _ _ _ _ _ ih ih' =>
    simp only [Node.importsOfAll, List.append_eq_nil_iff] at himports ih
    rw [records_append, List.map_append, ih ⟨himports.1, trivial⟩, ih' himports.2]
    simp [Node.outerFunctionsOfAll]
  | value hvalue he =>
    rw [(expr_computing _ he).2.records_eq_nil]
    simp [Node.outerFunctionsOfAll, Node.outerFunctions_of_isValue hvalue]
  | @declare _ _ _ name _ _ _ storage _ _ _ c src _ _ hr =>
    rw [← List.singleton_append, records_append, records_append, hr.of_expr.records_eq_nil]
    rfl
  | assign _ _ hr | ret _ hr =>
    rw [records_append, hr.of_expr.records_eq_nil]
    rfl
  | cond hc _ _ ih ih' =>
    simp only [Node.importsOfAll, Node.imports, List.append_eq_nil_iff] at himports
    rw [records_append, (expr_computing _ hc).2.records_eq_nil, records_condScope, List.nil_append,
      List.map_append, ih himports.1.1, ih' himports.1.2]
    simp [Node.outerFunctionsOfAll, Node.outerFunctions]
  | loop hc _ ih =>
    simp only [Node.importsOfAll, Node.imports, List.append_eq_nil_iff] at himports
    rw [records_loopScope, (expr_computing _ hc).2.records_eq_nil, List.nil_append, ih himports.1]
    simp [Node.outerFunctionsOfAll, Node.outerFunctions]
  | func | leave | pass => rfl
  | splice => simp [Node.importsOfAll, Node.imports] at himports

end Lowering

namespace Machine

theorem registerAll_functions {is : List Instruction} {m m' : Machine}
    (h : registerAll is m = (.ok (), m')) : ∃ fs : List Function,
      fs.map (·.record) = is.filterMap (fun i => if i.op = .func then i.func else none) ∧
      (∀ f ∈ fs, Decoding.runCode f.record.body = .ok f.body) ∧
      m'.functions = (fs.map fun f => (f.record.name, f)).foldl (fun m e => m.insert e.1 e.2)
        m.functions := by
  induction is generalizing m with
  | nil =>
    cases h
    exact ⟨[], rfl, List.forall_mem_nil _, rfl⟩
  | cons i rest ih =>
    rw [registerAll] at h
    split at h
    · next hop =>
      rcases Exec.bind_cases (register i.func) (fun _ => registerAll rest) m with
        ⟨s, m₁, -, hbind⟩ | ⟨_, m₁, hr, hbind⟩
      · rw [hbind] at h
        cases h
      · rw [hbind] at h
        obtain ⟨fs, hrecords, hbodies, hfunctions⟩ := ih h
        obtain ⟨record, body, hfunc, hbody, rfl⟩ := register_eq_ok hr
        refine ⟨⟨record, body⟩ :: fs, ?_, List.forall_mem_cons.2 ⟨hbody, hbodies⟩, hfunctions⟩
        simp [hop, hfunc, hrecords]
    · next hop =>
      obtain ⟨fs, hrecords, hbodies, hfunctions⟩ := ih h
      exact ⟨fs, by simpa [hop] using hrecords, hbodies, hfunctions⟩

end Machine

namespace CodeUnit

open Instruction

variable {o : CompileOptions} {body : List Node} {u : CodeUnit}

theorem exports_of_compile (h : compile o (.program body) = .ok u) :
    u.exports = .ofList (Node.outerFunctionsOfAll body) := by
  obtain ⟨ctx, -, -, hdepth, -, st, hs, -, hexports, -⟩ := compile_eq_ok h
  rw [hexports, (Lowering.lowers_of_stmts body hs).exports, if_pos hdepth]
  rfl

theorem records_of_compile (himports : Node.importsOfAll body = [])
    (h : compile o (.program body) = .ok u) :
    (records u.code).map (fun r => (r.name, r.result)) =
      (Node.outerFunctionsOfAll body).map fun e => (e.1, Storage.ofKind e.2) := by
  obtain ⟨ctx, -, -, -, -, st, hs, -⟩ := compile_eq_ok h
  exact (Lowering.lowers_of_stmts body hs).functionRecords himports

/-- The exports of a program without imports are the functions that a run registers. Their names
are those of the records on the walk through the code, which are the functions outside of function
bodies. The kind of an export gives the result of the last record with its name, and this record is
the one in the machine when the execution starts. -/
theorem exports_registered (himports : Node.importsOfAll body = [])
    (h : compile o (.program body) = .ok u) :
    (records u.code).map (·.name) = (Node.outerFunctionsOfAll body).map (·.1) ∧
    (∀ f, u.exports.contains f = true ↔ f ∈ (records u.code).map (·.name)) ∧
    ∀ f kind, u.exports.get? f = some kind →
      ∃ r, ((records u.code).filter (·.name = f)).getLast? = some r ∧ r.result = .ofKind kind ∧
        ∀ m start, Machine.registerAll (walkAll u.code) m = (.ok (), start) →
          ∃ code, Decoding.runCode r.body = .ok code ∧ start.functions.get? f = some ⟨r, code⟩ := by
  have hexports := exports_of_compile h
  have hrecords := records_of_compile himports h
  have hnames : (records u.code).map (·.name) = (Node.outerFunctionsOfAll body).map (·.1) := by
    simpa [Function.comp_def] using congrArg (List.map (·.1)) hrecords
  refine ⟨hnames, fun f => ?_, fun f kind hkind => ?_⟩
  · rw [hnames, NameMap.contains, hexports, NameMap.ofList, NameMap.isSome_get?_foldl_insert]
    simp
  · rw [hexports, NameMap.ofList, NameMap.get?_foldl_insert_last, NameMap.get?_empty,
      Option.or_none] at hkind
    obtain ⟨e, he, rfl⟩ := Option.map_eq_some_iff.1 hkind
    have hlast := congrArg (fun es => (es.filter fun e => e.1 = f).getLast?) hrecords
    simp only [List.filter_map, List.getLast?_map, Function.comp_def, he, Option.map_some] at hlast
    obtain ⟨r, hr, heq⟩ := Option.map_eq_some_iff.1 hlast
    refine ⟨r, hr, congrArg Prod.snd heq, fun m start hstart => ?_⟩
    obtain ⟨fs, hfs, hbodies, hfunctions⟩ := Machine.registerAll_functions hstart
    rw [records, ← hfs, List.filter_map, List.getLast?_map] at hr
    obtain ⟨g, hg, rfl⟩ := Option.map_eq_some_iff.1 hr
    refine ⟨g.body, hbodies g (List.mem_of_mem_filter (List.mem_of_getLast? hg)), ?_⟩
    rw [hfunctions, NameMap.get?_foldl_insert_last, List.filter_map, List.getLast?_map]
    simp only [Function.comp_def] at hg ⊢
    rw [hg]
    rfl

/-- One name in both branches of a conditional and again in a loop, each time with another result,
and a function within another one. -/
def repeatedNames : List Node :=
  [.cond ⟨1, 1⟩ (.number ⟨1, 4⟩ 1)
    [.func ⟨2, 1⟩ (Bytes.ofString "f") [] (some (.callback ⟨2, 5⟩)) []]
    [.func ⟨3, 1⟩ (Bytes.ofString "f") [] none
      [.func ⟨4, 1⟩ (Bytes.ofString "g") [] none []]],
    .loop ⟨5, 1⟩ (.number ⟨5, 7⟩ 0)
      [.func ⟨6, 1⟩ (Bytes.ofString "f") [] (some (.named ⟨6, 5⟩ (Bytes.ofString "string"))) []]]

/-- The function in the loop is exported, and it is the one that is registered. -/
theorem exports_registered_repeated : Node.importsOfAll repeatedNames = [] ∧
    ∃ u, compile {} (.program repeatedNames) = .ok u ∧
      (records u.code).map (·.name) = [Bytes.ofString "f", Bytes.ofString "f", Bytes.ofString "f"] ∧
      u.exports.get? (Bytes.ofString "f") = some ⟨.string, .undefined⟩ ∧
      ∃ r, ((records u.code).filter (·.name = Bytes.ofString "f")).getLast? = some r ∧
        r.result = .ofKind ⟨.string, .undefined⟩ ∧
        ∀ m start, Machine.registerAll (walkAll u.code) m = (.ok (), start) →
          ∃ code, Decoding.runCode r.body = .ok code ∧
            start.functions.get? (Bytes.ofString "f") = some ⟨r, code⟩ := by
  obtain ⟨u, h⟩ : ∃ u, compile {} (.program repeatedNames) = .ok u :=
    ⟨_, eq_ok_of_isOk (by decide +kernel) ⟨[], [], .empty, []⟩⟩
  have hkind : u.exports.get? (Bytes.ofString "f") = some ⟨.string, .undefined⟩ := by
    rw [exports_of_compile h]
    rfl
  obtain ⟨hnames, -, hlast⟩ := exports_registered rfl h
  exact ⟨rfl, u, h, hnames, hkind, hlast _ _ hkind⟩

end CodeUnit

end UnitScript
