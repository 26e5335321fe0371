import UnitScript.Proofs.Lowering.Standalone
import UnitScript.Proofs.Machine.Termination

/-!
# Programs without loops

A conditional statement is compiled to jumps that go forward in the scope around its two blocks; only
a loop is compiled to a jump back. So at all levels the code of a program without loops has forward
jumps only, its functions included, and the runs of its unit come to an end however its functions call
each other.
-/

namespace UnitScript

namespace Node

mutual

/-- No statement is a loop, in blocks and functions neither. -/
def isLoopFree : Node → Bool
  | loop .. => false
  | func _ _ _ _ body => areLoopFree body
  | cond _ _ yes no => areLoopFree yes && areLoopFree no
  | _ => true

def areLoopFree : List Node → Bool
  | [] => true
  | n :: rest => n.isLoopFree && areLoopFree rest

end

end Node

namespace Lowering

open Instruction

variable {ctx : Context} {live : Live} {st st' : State} {c d code : Code} {i : Instruction}

/-- Code without jumps at its own level and with forward jumps below, in a form that reads back. -/
structure Onward (c : Code) : Prop where
  noJump : NoJump c
  shaped : Throughout Shaped c
  below : ∀ i ∈ c, Below (fun _ d => Forward d) i

theorem forward_of_noJump (h : NoJump c) : Forward c := by
  intro k i hi hop
  rw [h i (List.mem_of_getElem? hi)] at hop
  cases hop

theorem onward_nil : Onward [] := ⟨by simp [NoJump], throughout_nil, by simp⟩

theorem Onward.append (hc : Onward c) (hd : Onward d) : Onward (c ++ d) :=
  ⟨hc.noJump.append hd.noJump, hc.shaped.append hd.shaped,
    List.forall_mem_append.2 ⟨hc.below, hd.below⟩⟩

theorem onward_single (hjump : i.op.isJump = false) (hplain : i.op ≠ .scope ∧ i.op ≠ .func)
    (hshaped : i.Shaped) : Onward [i] :=
  ⟨by simpa [NoJump] using hjump, throughout_single hshaped fun hop => absurd hop hplain.1,
    by simpa using below_plain hplain.1 hplain.2⟩

theorem Computing.onward (h : Computing ctx live c) : Onward c := by
  refine ⟨h.lowered.noJump, h.lowered.shaped, fun i hi => ?_⟩
  have hplain := not_scope_of_plain (h.plain i hi)
  exact below_plain hplain.1 hplain.2

/-! ## Scopes and functions -/

theorem onward_scope (hshaped : Throughout Shaped [.scope c]) (hforward : Forward c)
    (hbelow : ∀ i ∈ c, Below (fun _ d => Forward d) i) : Onward [.scope c] :=
  ⟨by simp [NoJump, Instruction.scope, Opcode.isJump], hshaped,
    by simpa using below_scope rfl hforward hbelow⟩

theorem Onward.scope (h : Onward c) : Onward [.scope c] :=
  onward_scope (throughout_scope (fun _ h _ => h) h.shaped) (forward_of_noJump h.noJump) h.below

/-- The jump over the first block goes to the second, and that behind the first block to the end. -/
theorem onward_condScope (test : Operand) (hyes : Onward c) (hno : Onward d) :
    Onward [condScope test c d] := by
  apply onward_scope (throughout_condScope (fun _ h _ => h) test hyes.shaped hno.shaped)
  · intro k i hi hop
    rcases k with _ | _ | _ | _ | k <;> cases hi
    · exact Int.ofNat_lt.2 (by decide : 0 < 3)
    · cases hop
    · exact Int.ofNat_lt.2 (by decide : 2 < 4)
    · cases hop
  · simp only [List.forall_mem_cons]
    exact ⟨below_plain (by rintro ⟨⟩) (by rintro ⟨⟩), hyes.scope.below _ (by simp),
      below_plain (by rintro ⟨⟩) (by rintro ⟨⟩), hno.scope.below _ (by simp), List.forall_mem_nil _⟩

theorem onward_declarations (s : Scratch) : Onward s.declarations := by
  have hlowered := lowered_declarations s
  refine ⟨hlowered.noJump, hlowered.shaped, List.forall_mem_map.2 fun r _ => ?_⟩
  exact below_plain nofun nofun

theorem onward_function {s : Scratch} {record : FunctionRecord}
    (hparams : record.params.length ≤ 0xFFFF) (hlen : record.body.length ≤ 2 ^ 28) (hc : Onward c)
    (h : Encoding.code (s.declarations ++ c) = .ok record.body) : Onward [.function record] := by
  have hwhole := (onward_declarations s).append hc
  have hread := Decoding.runCode_of_encode hwhole.shaped h hlen
  refine ⟨by simp [NoJump, Instruction.function, Opcode.isJump], throughout_single ?_ nofun, ?_⟩
  · refine ⟨rfl, rfl, by simp [Instruction.function], by simp [Instruction.function],
      fun f hf => ?_⟩
    rwa [← Option.some.inj hf]
  · simpa using below_function hread (forward_of_noJump hwhole.noJump) hwhole.below

/-! ## Statements -/

theorem onward_store (src : Operand) (x : Name) : Onward [.mov src (.cell x)] :=
  onward_single rfl ⟨nofun, nofun⟩ (shaped_of rfl rfl rfl rfl rfl)

theorem onward_ret {args : List Operand} (h : args.length ≤ 1) : Onward [.ret args] := by
  have hargs : args.length ≤ 255 := Nat.le_trans h (by decide)
  exact onward_single rfl ⟨nofun, nofun⟩ (shaped_of rfl rfl (Nat.ble_eq_true_of_le hargs) rfl rfl)

theorem Lowers.onward {ns : List Node} (h : Lowers ctx ns st st' code) (hctx : ctx.Bare)
    (hfree : Node.areLoopFree ns = true) (hfew : Node.AllFewParams ns)
    (hroom : Throughout Roomy code) : Onward code := by
  induction h with
  | nil => exact onward_nil
  | cons _ _ ih ih' =>
    obtain ⟨hroom₁, hroom₂⟩ := throughout_append.1 hroom
    rw [Node.areLoopFree, Bool.and_eq_true] at hfree
    exact (ih hctx (by simpa [Node.areLoopFree] using hfree.1) ⟨hfew.1, trivial⟩ hroom₁).append
      (ih' hctx hfree.2 hfew.2 hroom₂)
  | value _ he => exact (expr_computing _ he).2.onward
  | @declare _ _ _ name _ _ _ storage _ _ _ _ src _ _ hr =>
    have hvar : Onward [.var storage name] :=
      onward_single rfl ⟨nofun, nofun⟩ (shaped_of rfl rfl rfl rfl rfl)
    exact hvar.append (hr.of_expr.onward.append (onward_store src name))
  | @assign _ _ _ name _ _ _ _ _ src _ _ hr => exact hr.of_expr.onward.append (onward_store src name)
  | @cond _ _ _ _ _ _ _ _ _ _ place _ _ hc _ _ ih ih' =>
    have hinner := (throughout_append.1 hroom).2.children rfl
    simp only [Node.areLoopFree, Node.isLoopFree, Bool.and_true, Bool.and_eq_true] at hfree
    have hyes := ih hctx hfree.1 hfew.1.1 (hinner.tail.first.children rfl)
    have hno := ih' hctx hfree.2 hfew.1.2 (hinner.tail.tail.tail.children rfl)
    exact (expr_computing _ hc).2.onward.append (onward_condScope place hyes hno)
  | loop => cases hfree
  | func _ hslots _ hencode _ _ _ _ ih =>
    have hlen := hroom.head rfl _ rfl
    simp only [Node.areLoopFree, Node.isLoopFree, Bool.and_true] at hfree
    have hbody := ih ⟨hctx.defaults, hctx.alone⟩ hfree hfew.1.2
      (throughout_append.1 (Decoding.roomy_of_encode hencode hlen)).2
    exact onward_function (by rw [parameters_eq_ok hslots]; exact hfew.1.1) hlen hbody hencode
  | ret _ hr => exact hr.of_expr.onward.append (onward_ret (Nat.le_refl 1))
  | leave => exact onward_ret (Nat.zero_le 1)
  | splice h =>
    obtain ⟨includer, unit, hinc, hunit, -⟩ := splice_eq_ok h
    exact absurd hunit (hctx.alone includer _ unit hinc)
  | pass => exact onward_single rfl ⟨nofun, nofun⟩ (shaped_of rfl rfl rfl rfl rfl)

end Lowering

open Instruction Machine

/-- A program without loops and imports, within the limits of the binary form, is compiled to a unit
whose runs all end with a value or an error, whatever its functions do: some bound on the length of
the run is not met, and with every greater bound the run is the same. -/
theorem CodeUnit.loopFree_ends {o : CompileOptions} {body : List Node} {u : CodeUnit}
    (hcompile : CodeUnit.compile o (.program body) = .ok u) (halone : Node.importsOfAll body = [])
    (hfree : Node.areLoopFree body = true) (hfew : Node.AllFewParams body) (hroom : Throughout Roomy u.code)
    {m : Machine} (hm : Serves (u.declareScratch o.scratch) m) (limits : Limits) :
    let run := fun fuel => runWithin fuel limits (u.declareScratch o.scratch) m
    ∃ need, ((∃ v, (run need).1 = .value v) ∨ ∃ e, (run need).1 = .error e) ∧
      ∀ fuel, need ≤ fuel → run fuel = run need := by
  obtain ⟨ctx, hbare, -, -, st, hstmts, -⟩ := compile_alone halone hcompile
  have honward := (Lowering.lowers_of_stmts body hstmts).onward hbare hfree hfew hroom
  have hwhole := (Lowering.onward_declarations o.scratch.withDefaults).append honward
  have hforward : ∀ scope c, Level (u.declareScratch o.scratch).code scope c → Forward c := by
    rw [u.code_declareScratch]
    intro scope c h
    exact h.holds (P := fun _ d => Forward d) (Lowering.forward_of_noJump hwhole.noJump) hwhole.below
  obtain ⟨need, hends, hsame⟩ := hm.run_ends hforward limits
  refine ⟨need, ?_, hsame⟩
  cases hr : (runWithin need limits (u.declareScratch o.scratch) m).1 with
  | value v => exact .inl ⟨v, rfl⟩
  | error e => exact .inr ⟨e, rfl⟩
  | outOfFuel => exact absurd hr hends

/-! ## Functions that call each other for ever -/

def callingSource : Bytes :=
  "func even(n: number): number \x7b func next(k: number): number \x7b return odd(k + 1); \x7d " ++
    "if n \x7b return next(n); \x7d return n; \x7d " ++
    "func odd(n: number): number \x7b let f: func<number> = even; return f(n); \x7d " ++
    "return odd(1);"

def callingBody : List Node := (Program.ofSource callingSource).1

def callingUnit : CodeUnit :=
  (CodeUnit.compile {} (.program callingBody)).toOption.getD { name := [] }

/-- The recursion goes through a function in a function and a cell that holds a function; only the
limit on the depth stops it. -/
theorem calling_ends :
    CodeUnit.compile {} (.program callingBody) = .ok callingUnit ∧
      Node.areLoopFree callingBody = true ∧
      (let run := fun fuel => runWithin fuel ⟨0, 4⟩ (callingUnit.declareScratch {})
        (ofUnit (callingUnit.declareScratch {}) none)
      (run 90).1.root?.map RunError.message = some "call depth exceeded: 5 frames" ∧
        ∃ need, ((∃ v, (run need).1 = .value v) ∨ ∃ e, (run need).1 = .error e) ∧
          ∀ fuel, need ≤ fuel → run fuel = run need) := by
  -- the facts about the one program in one evaluation
  have hchecks : (CodeUnit.compile {} (.program callingBody)).isOk = true ∧
      Node.importsOfAll callingBody = [] ∧ Node.areLoopFree callingBody = true ∧
      Throughout Roomy callingUnit.code ∧
      (runWithin 90 ⟨0, 4⟩ (callingUnit.declareScratch {})
        (ofUnit (callingUnit.declareScratch {}) none)).1.root?.map RunError.message =
          some "call depth exceeded: 5 frames" := by
    decide +kernel
  obtain ⟨hok, halone, hfree, hroom, hmessage⟩ := hchecks
  have hcompile : CodeUnit.compile {} (.program callingBody) = .ok callingUnit :=
    eq_ok_of_isOk hok _
  exact ⟨hcompile, hfree, hmessage,
    CodeUnit.loopFree_ends hcompile halone hfree (by decide +kernel) hroom (.new none) ⟨0, 4⟩⟩

end UnitScript
