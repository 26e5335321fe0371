import Mathlib.Data.List.Nodup
import UnitScript.Proofs.Lowering.Depths
import UnitScript.Proofs.Machine.Balance
import UnitScript.Proofs.Syntax.Silence

/-!
# Calls balance the stack

A program that keeps to the calling convention is compiled to code whose pushes and pops match. Every
statement of a run that goes through leaves the stack as it found it, every call that comes back has
taken its arguments and left its result, and when the run is over the stack is empty.
-/

namespace UnitScript

open Instruction Machine

/-- Programs that keep to the calling convention: no name is declared twice, every call is one of a
builtin or of a function that is complete in front of it, with as many arguments as it takes, the
returns of a function give a value if it has a result and none otherwise, and no result is a
callback. -/
structure Node.Conventional (body : List Node) : Prop where
  distinct : (introducedAll body).Nodup
  calls : blockCallsKnown (Builtin.all.map Builtin.signature) body = true
  returns : allReturnsMatch none body = true
  direct : ∀ s ∈ functionsAll body, s.result.tag ≠ .callback

instance (body : List Node) : Decidable (Node.Conventional body) :=
  decidable_of_iff
    ((Node.introducedAll body).Nodup ∧
      Node.blockCallsKnown (Builtin.all.map Builtin.signature) body = true ∧
      Node.allReturnsMatch none body = true ∧
      ∀ s ∈ Node.functionsAll body, s.result.tag ≠ .callback)
    ⟨fun h => ⟨h.1, h.2.1, h.2.2.1, h.2.2.2⟩, fun h => ⟨h.distinct, h.calls, h.returns, h.direct⟩⟩

def Node.signatures (body : List Node) : List Signature :=
  Builtin.all.map Builtin.signature ++ functionsAll body

namespace Builtin

theorem dot_mem_name (b : Builtin) : 46 ∈ b.name := by
  cases b <;> decide

theorem mem_signatures {s : Signature} (h : s ∈ all.map signature) :
    ∃ b : Builtin, s = b.signature := by
  obtain ⟨b, -, rfl⟩ := List.mem_map.1 h
  exact ⟨b, rfl⟩

theorem eq_of_name {b c : Builtin} (h : b.name = c.name) : b = c := by
  have hnames : (all.map name).Nodup := by decide
  exact List.inj_on_of_nodup_map hnames (by cases b <;> decide) (by cases c <;> decide) h

end Builtin

namespace Node

variable {body : List Node}

theorem dotless_of_function (hbody : ∀ n ∈ body, n.Dotless) {s : Signature}
    (hs : s ∈ functionsAll body) : 46 ∉ s.name := by
  have hintroduced := (functionsAll_sublist body).subset (List.mem_map_of_mem hs)
  obtain ⟨n, hn, hname⟩ := mem_namesAll.1 (namesAll_of_introducedAll body hintroduced)
  exact hbody n hn _ hname

/-- Names of builtins have a dot and those of the program have none, so that no two signatures have one
name. -/
theorem Conventional.consistent (h : Conventional body) (hbody : ∀ n ∈ body, n.Dotless) :
    Signature.Consistent (signatures body) := by
  have hfunction : ∀ s ∈ functionsAll body, ∀ b : Builtin, b.name ≠ s.name := by
    intro s hs b hname
    apply dotless_of_function hbody hs
    rw [← hname]
    exact b.dot_mem_name
  have hnodup := h.distinct.sublist (functionsAll_sublist body)
  constructor
  · intro s hs t ht hname
    rcases List.mem_append.1 hs with hs | hs <;> rcases List.mem_append.1 ht with ht | ht
    · obtain ⟨b, rfl⟩ := Builtin.mem_signatures hs
      obtain ⟨c, rfl⟩ := Builtin.mem_signatures ht
      rw [Builtin.eq_of_name hname]
    · obtain ⟨b, rfl⟩ := Builtin.mem_signatures hs
      exact absurd hname (hfunction t ht b)
    · obtain ⟨b, rfl⟩ := Builtin.mem_signatures ht
      exact absurd hname.symm (hfunction s hs b)
    · exact List.inj_on_of_nodup_map hnodup hs ht hname
  · intro s hs b hb
    have hname : b.name = s.name := by simpa using List.find?_some hb
    rcases List.mem_append.1 hs with hs | hs
    · obtain ⟨c, rfl⟩ := Builtin.mem_signatures hs
      rw [Builtin.eq_of_name hname]
    · exact absurd hname (hfunction s hs b)

end Node

/-! ## Compilation of a program -/

def CompileOptions.context (o : CompileOptions) : Lowering.Context :=
  ⟨if o.name.isEmpty then CodeUnit.defaultName else o.name, o.scratch.withDefaults, o.includer, 0⟩

def CompileOptions.start (o : CompileOptions) : Lowering.State := ⟨.ofPrelude o.prelude, 0, [], .empty⟩

theorem CodeUnit.stmts_of_compile {o : CompileOptions} {body : List Node} {u : CodeUnit}
    (h : compile o (.program body) = .ok u) :
    ∃ st, Lowering.stmts o.context body o.start = .ok (u.code, st) := by
  simp only [compile] at h
  split at h
  · cases h
  · split at h
    · cases h
    · next code st hstmts =>
      cases h
      exact ⟨st, hstmts⟩

namespace Lowering

variable {ctx : Context} {st st' : State} {ns : List Node} {n : Node} {c code : Code}
  {sigs known : List Signature} {v : Option Nat}

/-- The statements of a program, in all its blocks and functions, each with its code: those that are
among `ns`, which are compiled from the state `st`, or in a block of one of them. -/
inductive Emits : Context → State → List Node → Node → Code → Prop where
  | here {ctx st st' n rest c} : stmt ctx n st = .ok (c, st') → Emits ctx st (n :: rest) n c
  | later {ctx st mid n rest first k c} : stmt ctx n st = .ok (first, mid) →
      Emits ctx mid rest k c → Emits ctx st (n :: rest) k c
  | yes {ctx st mid pos test yes no rest first place k c} :
      expr ctx .none test st = .ok ((first, place), mid) → Emits ctx mid.entered yes k c →
      Emits ctx st (.cond pos test yes no :: rest) k c
  | no {ctx st mid mid' pos test yes no rest first second place k c} :
      expr ctx .none test st = .ok ((first, place), mid) →
      inBlock (stmts ctx yes) mid = .ok (second, mid') → Emits ctx mid'.entered no k c →
      Emits ctx st (.cond pos test yes no :: rest) k c
  | loop {ctx st mid pos test body rest first place k c} :
      expr ctx .none test st = .ok ((first, place), mid) → Emits ctx mid.entered body k c →
      Emits ctx st (.loop pos test body :: rest) k c
  | func {ctx st mid pos name params result body rest slots k c} :
      parameters ctx.inner params st.inner = .ok (slots, mid) → Emits ctx.inner mid body k c →
      Emits ctx st (.func pos name params result body :: rest) k c

theorem Emits.neutral (h : Emits ctx st ns n c) (hns : Regular sigs known v ctx st ns)
    (hroom : Throughout Roomy code) (hstmts : stmts ctx ns st = .ok (code, st')) :
    ∃ w, Neutral sigs w c := by
  -- compilation is a function, so that the codes and states of the derivation are those in `hstmts`
  induction h generalizing known v code st' with
  | @here ctx st mid n rest c hc =>
    obtain ⟨c', mid', more, hc', -, rfl⟩ := stmts_cons_eq_ok hstmts
    rw [hc] at hc'
    cases hc'
    exact ⟨v, (lowers_of_stmt n hc).neutral hns.first (throughout_append.1 hroom).1⟩
  | later hc _ ih =>
    obtain ⟨c', mid', more, hc', hmore, rfl⟩ := stmts_cons_eq_ok hstmts
    rw [hc] at hc'
    cases hc'
    exact ih (hns.next (lowers_of_stmt _ hc)) (throughout_append.1 hroom).2 hmore
  | @yes ctx st mid pos test yes no rest first place k c hc _ ih =>
    obtain ⟨c', mid', more, hc', -, rfl⟩ := stmts_cons_eq_ok hstmts
    obtain ⟨t, place, mid, yc, mid', nc, ht, hy, -, rfl⟩ := stmt_cond_eq_ok hc'
    rw [hc] at ht
    cases ht
    obtain ⟨last, hyes, -⟩ := inBlock_states hy
    have hinner := (throughout_append.1 (throughout_append.1 hroom).1).2.children rfl
    exact ih (hns.first.cond_yes (expr_extends test hc)) (hinner.tail.first.children rfl) hyes
  | @no ctx st mid mid₁ pos test yes no rest first second place k c hc hy _ ih =>
    obtain ⟨c', mid', more, hc', -, rfl⟩ := stmts_cons_eq_ok hstmts
    obtain ⟨t, place, mid, yc, mid', nc, ht, hy', hn, rfl⟩ := stmt_cond_eq_ok hc'
    rw [hc] at ht
    cases ht
    rw [hy] at hy'
    cases hy'
    obtain ⟨mid, hyes, rfl⟩ := inBlock_states hy
    obtain ⟨last, hno, -⟩ := inBlock_states hn
    have hinner := (throughout_append.1 (throughout_append.1 hroom).1).2.children rfl
    exact ih (hns.first.cond_no (expr_extends test hc) (lowers_of_stmts yes hyes))
      (hinner.tail.tail.tail.children rfl) hno
  | @loop ctx st mid pos test body rest first place k c hc _ ih =>
    obtain ⟨c', mid', more, hc', -, rfl⟩ := stmts_cons_eq_ok hstmts
    obtain ⟨t, place, mid, bc, ht, hb, rfl⟩ := stmt_loop_eq_ok hc'
    rw [hc] at ht
    cases ht
    obtain ⟨last, hbody, -⟩ := inBlock_states hb
    have hinner := (throughout_append.1 hroom).1.children rfl
    exact ih (hns.first.loop_body (expr_extends test hc)) (hinner.tail.tail.first.children rfl) hbody
  | func hslots _ ih =>
    obtain ⟨c', mid', more, hc', -, rfl⟩ := stmts_cons_eq_ok hstmts
    obtain ⟨slots, first, bc, last, encoded, hslots', hb, hencode, rfl, -, -⟩ := stmt_func_states hc'
    rw [hslots] at hslots'
    cases hslots'
    have hlen : encoded.length ≤ 2 ^ 28 := hroom.head rfl _ rfl
    have hrooms := (throughout_append.1 (Decoding.roomy_of_encode hencode hlen)).2
    exact ih (hns.first.func_body hslots) hrooms hb

end Lowering

namespace CodeUnit

variable {o : CompileOptions} {source : Bytes} {u : CodeUnit} {limits : Limits} {m₀ start : Machine}

/-- Functions that are to leave a value do not run off their end when the unit is run on the machine. -/
def AlwaysReturns (u : CodeUnit) (limits : Limits) (m₀ : Machine) : Prop :=
  ∀ start, registerAll (walkAll u.code) m₀.restart = (.ok (), start) → AlwaysReturn limits u.code start

theorem CompiledAlone.regular (hu : u.CompiledAlone o source) (hprelude : o.prelude = Builtin.prelude)
    (hbody : Node.Conventional (Program.ofSource source).1) :
    Lowering.Regular (Node.signatures (Program.ofSource source).1)
      (Builtin.all.map Builtin.signature) none o.context o.start (Program.ofSource source).1 := by
  have hdotless := Program.dotless_ofSource source
  refine ⟨Scratch.withDefaults_withDefaults _, ⟨hu.alone, hdotless, hu.few, hbody.returns,
    hbody.distinct⟩, hbody.calls, ?_, ?_, ?_⟩
  · intro s hs hmem
    obtain ⟨b, rfl⟩ := Builtin.mem_signatures hs
    obtain ⟨n, hn, hname⟩ := Node.mem_namesAll.1 (Node.namesAll_of_introducedAll _ hmem)
    exact hdotless n hn _ hname b.dot_mem_name
  · intro s hs
    obtain ⟨b, rfl⟩ := Builtin.mem_signatures hs
    show (Symbols.ofPrelude o.prelude).lookup? b.name = some b.result
    rw [hprelude]
    cases b <;> rfl
  · intro s hs
    refine ⟨hs, ?_⟩
    rcases List.mem_append.1 hs with hs | hs
    · obtain ⟨b, rfl⟩ := Builtin.mem_signatures hs
      cases b <;> exact nofun
    · exact hbody.direct s hs

theorem CompiledAlone.neutral (hu : u.CompiledAlone o source) (hprelude : o.prelude = Builtin.prelude)
    (hbody : Node.Conventional (Program.ofSource source).1) :
    Lowering.Neutral (Node.signatures (Program.ofSource source).1) none
      (u.declareScratch o.scratch).code := by
  obtain ⟨st, hstmts⟩ := stmts_of_compile hu.compiled
  rw [u.code_declareScratch]
  exact (Lowering.neutral_declarations _).append
    ((Lowering.lowers_of_stmts _ hstmts).neutral (hu.regular hprelude hbody) hu.roomy)

end CodeUnit

/-- Let a unit be compiled from a source without imports that keeps to the calling convention, and let
the functions with a result not run off their end in a run of it. Then a statement that goes through
without a return leaves the stack as it was, wherever it stands in the program and in whatever frame it
is executed. A call that comes back has taken the arguments from the stack and left there the result,
if there is one. When the run ends without an error, the stack is empty. -/
theorem CodeUnit.calls_balanced {o : CompileOptions} {source : Bytes} {u : CodeUnit}
    (hu : u.CompiledAlone o source) (hprelude : o.prelude = Builtin.prelude)
    (hbody : Node.Conventional (Program.ofSource source).1) {m₀ : Machine}
    (hm₀ : Serves (u.declareScratch o.scratch) m₀) {limits : Limits}
    (hreturns : (u.declareScratch o.scratch).AlwaysReturns limits m₀) :
    (∀ {n : Node} {c all post : List Instruction} {m m' : Machine} {fuel : Nat},
      Lowering.Emits o.context o.start (Program.ofSource source).1 n c →
      (u.declareScratch o.scratch).RunsInto limits m₀ all (c ++ post) m →
      exec limits fuel c c m = (.ok false, m') → m'.stack = m.stack) ∧
    (∀ {i : Instruction} {all rest : List Instruction} {m m' : Machine} {arity leaves : Nat},
      (u.declareScratch o.scratch).RunsInto limits m₀ all (i :: rest) m → Calls m i arity leaves →
      Completes limits i m m' → arity ≤ m.stack.length ∧
        ∃ left, left.length = leaves ∧ m'.stack = left ++ m.stack.drop arity) ∧
    ∀ {fuel : Nat} {v : Value} {m' : Machine},
      runWithin fuel limits (u.declareScratch o.scratch) m₀ = (.value v, m') → m'.stack = [] := by
  have hregular := hu.regular hprelude hbody
  have hneutral := hu.neutral hprelude hbody
  have hsigs := hbody.consistent (Program.dotless_ofSource source)
  have hsupplies := hneutral.shifts.supplies
  refine ⟨?_, ?_, ?_⟩
  · intro n c all post m m' fuel hemits hm hexec
    obtain ⟨start, hstart, hvisits⟩ := hm
    obtain ⟨st, hstmts⟩ := stmts_of_compile hu.compiled
    obtain ⟨w, hcode⟩ := hemits.neutral hregular hu.roomy hstmts
    have hstocked := hm₀.stocked_start Balanced.supplies hsupplies hstart
    exact hvisits.stack_eq hsupplies hstocked hsigs (hreturns start hstart) hcode.noJump hcode.shifts
      hexec
  · intro i all rest m m' arity leaves hm hcalls hcompletes
    obtain ⟨start, hstart, hvisits⟩ := hm
    have hstocked := hm₀.stocked_start Balanced.supplies hsupplies hstart
    have hexchanges := hvisits.exchanges_call hsupplies hstocked hsigs (hreturns start hstart) hcalls
      hcompletes
    obtain ⟨below, htaken, left, hleft, hlength⟩ := hexchanges
    obtain ⟨rfl, hle⟩ := htaken.eq_drop
    exact ⟨hle, left, hlength, hleft⟩
  · intro fuel v m' hrun
    exact stack_of_runWithin hneutral.noJump hneutral.shifts hm₀ hsigs hreturns hrun

/-! ## Calls in arguments, and a return from a loop -/

def pickingSource : Bytes :=
  "func pick(a: number, b: number): number \x7b while a \x7b if b \x7b return a; \x7d a = 0; \x7d " ++
    "return b; \x7d func skip(): null \x7b return; \x7d " ++
    "skip(); return math.max(pick(2, pick(3, 4)), 3);"

def pickingOptions : CompileOptions := { prelude := Builtin.prelude }

def pickingUnit : CodeUnit :=
  (CodeUnit.compile pickingOptions (.program (Program.ofSource pickingSource).1)).toOption.getD
    { name := [] }

def pickingWhole : CodeUnit := pickingUnit.declareScratch {}

def pickingMachine : Machine := ofUnit pickingWhole none

theorem pickingUnit_compiled : pickingUnit.CompiledAlone pickingOptions pickingSource :=
  .of_checks (by decide +kernel)

theorem picking_conventional : Node.Conventional (Program.ofSource pickingSource).1 := by
  decide +kernel

theorem picking_serves : Serves pickingWhole pickingMachine := .new none

/-- A function without jumps and functions at any level, and with a return at the level of its body. -/
def Function.isPlain (f : Function) : Bool :=
  f.body.all (fun i => !i.op.isJump) && f.body.any (fun i => i.op = .ret) &&
    (walkAll f.body).all fun i => i.op ≠ .func

def pickingStart : Machine := (registerAll (walkAll pickingWhole.code) pickingMachine.restart).2

def Ending.value? : Ending → Option Value
  | .value v => some v
  | _ => none

theorem Ending.value?_eq_some {r : Ending} {v : Value} (h : r.value? = some v) : r = .value v := by
  cases r <;> cases h
  rfl

/-- What the functions are like, that they are registered, the machine at the inner call of `pick`, and
the value of the run. -/
theorem picking_evaluated :
    (∀ i ∈ walkAll pickingWhole.code, (i.func.all fun record =>
      (Decoding.runCode record.body).toOption.all fun body => Function.isPlain ⟨record, body⟩) =
        true) ∧
    (registerAll (walkAll pickingWhole.code) pickingMachine.restart).1.isOk = true ∧
    ((pickingWhole.code.drop 11).head?.bind fun i =>
      (carryOut {} 30 (pickingWhole.code.take 11) pickingStart).map fun m =>
        ((i.op, i.args), m.stack, (carryOut {} 30 [i] m).isSome,
          (m.functions.get? "pick").map fun f => (f.record.params.length, f.record.leaves))) =
      some ((.call, [.func "pick"]), [.int 4, .int 3, .int 2], true, some (2, 1)) ∧
    (runWithin 60 {} pickingWhole pickingMachine).1.value? = some (.int 3) := by
  decide +kernel

theorem picking_alwaysReturns : pickingWhole.AlwaysReturns {} pickingMachine := by
  have hbodies : ∀ f : Function, f.isPlain = true → Supplies (fun f => f.isPlain = true) f.body := by
    intro f hf i hi hop
    simp only [Function.isPlain, Bool.and_eq_true, List.all_eq_true] at hf
    simpa [hop] using hf.2 i hi
  have hcode : Supplies (fun f => f.isPlain = true) pickingWhole.code := by
    intro i hi _ record body hrecord hbody
    simpa [hrecord, hbody, Except.toOption] using picking_evaluated.1 i hi
  intro start hstart
  apply alwaysReturn_of hbodies hcode (picking_serves.stocked_start hbodies hcode hstart)
  intro f hf _
  simp only [Function.isPlain, Bool.and_eq_true, List.all_eq_true, List.any_eq_true,
    decide_eq_true_eq] at hf
  exact ⟨fun i hi => by simpa using hf.1.1 i hi, hf.1.2⟩

/-- The call of `pick` with the arguments 3 and 4 is come to while the first argument of the outer call
waits on the stack. -/
theorem picking_call : ∃ i all rest m m', pickingWhole.RunsInto {} pickingMachine all (i :: rest) m ∧
    Calls m i 2 1 ∧ Completes {} i m m' ∧ m.stack = [.int 4, .int 3, .int 2] := by
  obtain ⟨-, hregisters, hcall, -⟩ := picking_evaluated
  have hstart : registerAll (walkAll pickingWhole.code) pickingMachine.restart =
      (.ok (), pickingStart) :=
    registerAll_of_isOk hregisters
  obtain ⟨i, hi, hcall⟩ := Option.bind_eq_some_iff.1 hcall
  obtain ⟨rest, hdrop⟩ := List.head?_eq_some_iff.1 hi
  obtain ⟨m, hm, hseen⟩ := Option.map_eq_some_iff.1 hcall
  simp only [Prod.mk.injEq] at hseen
  obtain ⟨⟨hop, hargs⟩, hstack, hsome, hpick⟩ := hseen
  obtain ⟨f, hf, hrecord⟩ := Option.map_eq_some_iff.1 hpick
  obtain ⟨m', hm'⟩ := Option.isSome_iff_exists.1 hsome
  obtain ⟨m₁, hcompletes, -⟩ := passes_of_carryOut hm'
  have hvisits : Visits {} pickingWhole.code pickingStart pickingWhole.code
      (pickingWhole.code.take 11 ++ i :: rest) pickingStart := by
    rw [← hdrop, List.take_append_drop]
    exact .start
  have hcalls : Calls m i f.record.params.length f.record.leaves := .function hop hargs rfl hf
  obtain ⟨hparams, hleaves⟩ := Prod.mk.inj hrecord
  rw [hparams, hleaves] at hcalls
  exact ⟨i, _, rest, m, m₁, ⟨pickingStart, hstart, hvisits.passes (passes_of_carryOut hm)⟩, hcalls,
    hcompletes, hstack⟩

/-- The inner call leaves its result on top of the argument that waits, and when the run is over nothing
is left. In between, every statement leaves the stack as it is. -/
theorem picking_calls_balanced :
    (∃ i m m', Completes {} i m m' ∧ m.stack = [.int 4, .int 3, .int 2] ∧
      ∃ v, m'.stack = [v, .int 2]) ∧
    (∃ m, runWithin 60 {} pickingWhole pickingMachine = (.value (.int 3), m) ∧ m.stack = []) ∧
    ∀ n c all post m m' fuel, Lowering.Emits pickingOptions.context pickingOptions.start
        (Program.ofSource pickingSource).1 n c →
      pickingWhole.RunsInto {} pickingMachine all (c ++ post) m →
      exec {} fuel c c m = (.ok false, m') → m'.stack = m.stack := by
  obtain ⟨hstatement, hcall, hrun⟩ := CodeUnit.calls_balanced pickingUnit_compiled rfl
    picking_conventional picking_serves picking_alwaysReturns
  refine ⟨?_, ?_, fun n c all post m m' fuel hn hm hexec => hstatement hn hm hexec⟩
  · obtain ⟨i, all, rest, m, m', hm, hcalls, hcompletes, hstack⟩ := picking_call
    obtain ⟨-, left, hlength, hleft⟩ := hcall hm hcalls hcompletes
    obtain ⟨v, rfl⟩ := List.length_eq_one_iff.1 hlength
    rw [hstack] at hleft
    exact ⟨i, m, m', hcompletes, hstack, v, hleft⟩
  · obtain ⟨-, -, -, hvalue⟩ := picking_evaluated
    generalize hr : runWithin 60 {} pickingWhole pickingMachine = r at hvalue
    obtain ⟨ending, m⟩ := r
    obtain rfl := Ending.value?_eq_some hvalue
    exact ⟨m, rfl, hrun hr⟩

end UnitScript
