import UnitScript.Proofs.Lowering.Statements
import UnitScript.Proofs.Lowering.Tidiness
import UnitScript.Proofs.Syntax.Silence

/-!
# Compilation keeps the meaning of call-free programs

A call-free program that was read from a source and compiled runs as direct evaluation says: the run
comes to an end, fails or gives a value just when the evaluation does, the values are the same, and
so are the program's cells and the heap after a run with a value.
-/

namespace UnitScript

/-! ## Nothing to register -/

def Instruction.NoFunctions (c : List Instruction) : Prop := Throughout (·.op ≠ .func) c

namespace Machine

variable {m : Machine} {limits : Limits} {fuel : Nat} {u : CodeUnit}

theorem registerAll_of_ne {is : List Instruction} (h : ∀ i ∈ is, i.op ≠ .func) :
    registerAll is m = (.ok (), m) := by
  induction is with
  | nil => rfl
  | cons i rest ih =>
    rw [registerAll, if_neg (h i List.mem_cons_self)]
    exact ih fun j hj => h j (List.mem_cons_of_mem _ hj)

theorem runWithin_eq (h : Instruction.NoFunctions u.code) :
    runWithin fuel limits u m =
      match exec limits fuel u.code u.code m.restart with
      | (.ok _, m') => (.value m'.result, m')
      | (.error (.error e), m') => (.error e, m')
      | (.error .outOfFuel, m') => (.outOfFuel, m') := by
  simp only [runWithin]
  rw [Exec.bind_of_ok (registerAll_of_ne h)]
  cases he : exec limits fuel u.code u.code m.restart with
  | mk r m' =>
    cases r with
    | ok b => rw [Exec.bind_of_ok he]; rfl
    | error e => rw [Exec.bind_of_error he]; cases e <;> rfl

end Machine

/-! ## Runs of call-free programs -/

namespace Lowering

open Machine Instruction
open Meaning (CallFree Outcome)

variable {ctx : Context} {s : Scratch} {limits : Limits} {m : Machine}

theorem noFunctions_declarations (s : Scratch) : NoFunctions s.declarations := by
  have hvar : ∀ (storage : Storage) (x : Name), NoFunctions [.var storage x] :=
    fun _ _ => throughout_single nofun nofun
  exact (hvar _ _).cons ((hvar _ _).cons ((hvar _ _).cons (hvar _ _)))

theorem follows_vars (hl : limits.steps ≤ 0) (hf : m.frames = []) (roles : List Role) :
    ∃ globals steps, Follows limits (roles.map fun r => .var r.storage (s.name r)) m
        (.passes { m with globals := globals, steps := steps }) ∧
      (∀ x, (∀ r ∈ roles, s.name r ≠ x) → globals.get? x = m.globals.get? x) ∧
      ∀ r ∈ roles, (globals.get? (s.name r)).isSome = true := by
  induction roles generalizing m with
  | nil => exact ⟨m.globals, m.steps, follows_nil limits m, fun _ _ => rfl, by simp⟩
  | cons r rest ih =>
    obtain ⟨globals, steps, hrest, hother, hsome⟩ :=
      ih (m := m.tick.put (s.name r) (zero r.storage)) hf
    have hput : ∀ x, (m.tick.put (s.name r) (zero r.storage)).globals.get? x =
        if s.name r = x then some (zero r.storage) else m.globals.get? x :=
      fun x => NameMap.get?_insert m.globals (s.name r) x _
    refine ⟨globals, steps, (follows_var hl hf r.storage (s.name r)).append hrest, ?_, ?_⟩
    · intro x hx
      rw [List.forall_mem_cons] at hx
      rw [hother x hx.2, hput, if_neg hx.1]
    · rw [List.forall_mem_cons]
      refine ⟨?_, hsome⟩
      by_cases hr : ∃ q ∈ rest, s.name q = s.name r
      · obtain ⟨q, hq, heq⟩ := hr
        rw [← heq]
        exact hsome q hq
      · rw [hother _ fun q hq heq => hr ⟨q, hq, heq⟩, hput, if_pos rfl]
        rfl

/-- With its scratch cells declared, a machine without cells mirrors direct evaluation from an empty
table. -/
theorem follows_declarations (hl : limits.steps ≤ 0) (hctx : ctx.scratch = s.withDefaults)
    (hframes : m.frames = []) (hfunctions : m.functions = .empty) (hresult : m.result = .null)
    (hheap : m.heap = #[]) (hglobals : m.globals = .empty) :
    ∃ m', Follows limits s.declarations m (.passes m') ∧ Mirrors ctx m.data .empty #[] m' := by
  obtain ⟨globals, steps, hfollows, hother, hsome⟩ :=
    follows_vars (s := s.withDefaults) hl hframes Role.all
  refine ⟨_, hfollows, hframes, hfunctions, rfl, hresult, hheap, fun x hx => ?_, fun r => ?_⟩
  · rw [← hglobals]
    refine hother x fun r _ hr => hx.2 r ?_
    rw [hctx, hr]
  · rw [hctx]
    exact hsome r (by cases r <;> decide)

/-- What an evaluation up to the bound `n` tells about the runs up to all bounds. -/
def Tells (ctx : Context) (run : Nat → Ending × Machine) (n : Nat) : Outcome → Prop
  | .returned v s => ∃ need, ∀ fuel,
      (need ≤ fuel → (run fuel).1 = .value v ∧ Leaves ctx v s (run fuel).2) ∧
      (fuel < need → (run fuel).1 = .outOfFuel)
  | .failed => ∃ need, ∀ fuel,
      (need ≤ fuel → ∃ e, (run fuel).1 = .error e) ∧ (fuel < need → (run fuel).1 = .outOfFuel)
  | .outOfFuel => ∀ fuel, fuel ≤ n → (run fuel).1 = .outOfFuel
  | .normal _ => False

/-- Code that runs off its end leaves the value null. -/
theorem Agrees.tells {strings : NameMap Bytes} {n : Nat} {o : Outcome} {k : Course} {u : CodeUnit}
    (hagrees : Agrees ctx strings n o k) (hk : Takes limits u.code u.code m.restart k)
    (hfree : NoFunctions u.code) :
    Tells ctx (fun fuel => runWithin fuel limits u m) n o.completed := by
  have hout : ∀ fuel, OutOfFuel (exec limits fuel u.code u.code m.restart) →
      (runWithin fuel limits u m).1 = .outOfFuel := by
    intro fuel h
    have he : exec limits fuel u.code u.code m.restart =
        (.error .outOfFuel, (exec limits fuel u.code u.code m.restart).2) := Prod.ext h rfl
    rw [runWithin_eq hfree, he]
  cases hagrees with
  | @normal s m' hm =>
    obtain ⟨need, h⟩ := hk
    refine ⟨need, fun fuel => ⟨fun hf => ?_, fun hf => hout fuel ((h fuel).2 hf)⟩⟩
    simp only [runWithin_eq hfree, (h fuel).1 hf]
    exact ⟨by rw [hm.result], hm.result, hm.heap_eq, hm.user⟩
  | returned hv =>
    obtain ⟨need, h⟩ := hk
    refine ⟨need, fun fuel => ⟨fun hf => ?_, fun hf => hout fuel ((h fuel).2 hf)⟩⟩
    have hend := ((h fuel).1 hf).2
    simp only [runWithin_eq hfree, hend]
    exact ⟨by rw [hv.result], hv⟩
  | failed =>
    obtain ⟨need, h⟩ := hk
    refine ⟨need, fun fuel => ⟨fun hf => ?_, fun hf => hout fuel ((h fuel).2 hf)⟩⟩
    obtain ⟨e, m', hend⟩ := ((h fuel).1 hf).2
    simp only [runWithin_eq hfree, hend]
    exact ⟨e, rfl⟩
  | outOfFuel => exact fun fuel hf => hout fuel (hk fuel hf)

theorem tells_program {o : CompileOptions} {u : CodeUnit} {body : List Node}
    (hcompile : CodeUnit.compile o (.program body) = .ok u)
    (hfree : ∀ n ∈ body, CallFree (fun x => 46 ∉ x ∧ o.scratch.isReserved x = false) n)
    (hl : limits.steps ≤ 0) (console : Option Console) :
    ∃ ctx : Context, ctx.scratch = o.scratch.withDefaults ∧ ∀ n, Tells ctx (fun fuel =>
      runWithin fuel limits (u.declareScratch o.scratch)
        (ofUnit (u.declareScratch o.scratch) console)) n (Meaning.program n body) := by
  obtain ⟨ctx, hctx, -, -, hvalid, st, hstmts, hdata, -⟩ := CodeUnit.compile_eq_ok hcompile
  refine ⟨ctx, hctx, fun n => ?_⟩
  have hsep : ctx.scratch.Separate := by
    rw [hctx]
    exact Scratch.separate_of_validate hvalid
  have huser : ∀ n ∈ body, CallFree ctx.IsUser n := by
    intro n hn
    exact (hfree n hn).of_names fun x _ hx => Context.isUser_of hctx hx.1 hx.2
  obtain ⟨hfuncs, himports⟩ := callFree_alone huser
  have hgrows := (lowers_of_stmts body hstmts).grows hfuncs himports
  have hcover : Covers (NameMap.ofList (u.data.map fun d => (d.name, d.value))) st := by
    rw [hdata]
    exact (hgrows.numbered rfl).covers
  obtain ⟨m', hdecl, hm'⟩ := follows_declarations (s := o.scratch)
    (m := (ofUnit (u.declareScratch o.scratch) console).restart) hl hctx rfl rfl rfl rfl rfl
  obtain ⟨k, hk, hagrees⟩ : Runs ctx limits _ n u.code m' (Meaning.block n body ⟨.empty, #[]⟩) :=
    runs_stmts_of huser (fun n hn => stmt_runs hl hsep (huser n hn)) hstmts hcover hm'
  have hcode : NoFunctions (u.declareScratch o.scratch).code := by
    apply (noFunctions_declarations o.scratch).append
    exact (lowers_of_stmts body hstmts).throughout (fun _ _ hop => hop)
      (fun hne => absurd hfuncs hne)
      fun includer _ name hname => by simp [himports] at hname
  exact hagrees.tells (hdecl.append hk).takes hcode

section Telling

variable {run : Nat → Ending × Machine} {eval : Nat → Outcome} {n fuel : Nat} {o : Outcome}

theorem Tells.of_ended (h : Tells ctx run n o) (hrun : (run fuel).1 ≠ .outOfFuel) :
    (o = .outOfFuel ∧ n < fuel) ∨ (o = .failed ∧ ∃ e, (run fuel).1 = .error e) ∨
      ∃ v s, o = .returned v s ∧ (run fuel).1 = .value v ∧ Leaves ctx v s (run fuel).2 := by
  cases o with
  | outOfFuel =>
    refine .inl ⟨rfl, Nat.lt_of_not_le fun hle => hrun (h fuel hle)⟩
  | failed =>
    obtain ⟨need, h⟩ := h
    by_cases hf : fuel < need
    · exact absurd ((h fuel).2 hf) hrun
    · exact .inr (.inl ⟨rfl, (h fuel).1 (Nat.le_of_not_lt hf)⟩)
  | returned v s =>
    obtain ⟨need, h⟩ := h
    by_cases hf : fuel < need
    · exact absurd ((h fuel).2 hf) hrun
    · exact .inr (.inr ⟨v, s, rfl, (h fuel).1 (Nat.le_of_not_lt hf)⟩)
  | normal s => exact h.elim

theorem exists_value {v : Value} {s : Meaning.Store} (h : Tells ctx run n (.returned v s)) :
    ∃ fuel, (run fuel).1 = .value v := by
  obtain ⟨need, h⟩ := h
  exact ⟨need, ((h need).1 (Nat.le_refl _)).1⟩

theorem exists_error (h : Tells ctx run n .failed) : ∃ fuel e, (run fuel).1 = .error e := by
  obtain ⟨need, h⟩ := h
  exact ⟨need, (h need).1 (Nat.le_refl _)⟩

variable (h : ∀ n, Tells ctx run n (eval n))
include h

theorem ends_iff_of_tells :
    (∃ fuel, (run fuel).1 ≠ .outOfFuel) ↔ ∃ n, eval n ≠ .outOfFuel := by
  constructor
  · rintro ⟨fuel, hrun⟩
    -- the evaluation with the same bound has ended too
    refine ⟨fuel, fun heval => ?_⟩
    have htells := h fuel
    rw [heval] at htells
    exact hrun (htells fuel (Nat.le_refl _))
  · rintro ⟨n, heval⟩
    have htells := h n
    cases ho : eval n with
    | outOfFuel => exact absurd ho heval
    | failed =>
      rw [ho] at htells
      obtain ⟨fuel, e, hrun⟩ := exists_error htells
      exact ⟨fuel, by rw [hrun]; exact Ending.noConfusion⟩
    | returned v s =>
      rw [ho] at htells
      obtain ⟨fuel, hrun⟩ := exists_value htells
      exact ⟨fuel, by rw [hrun]; exact Ending.noConfusion⟩
    | normal s =>
      rw [ho] at htells
      exact htells.elim

theorem value_iff_of_tells (v : Value) :
    (∃ fuel, (run fuel).1 = .value v) ↔ ∃ n s, eval n = .returned v s := by
  constructor
  · rintro ⟨fuel, hrun⟩
    rcases (h fuel).of_ended (by rw [hrun]; exact Ending.noConfusion) with
      ⟨-, hlt⟩ | ⟨-, e, he⟩ | ⟨w, s, ho, hw, -⟩
    · exact absurd hlt (Nat.lt_irrefl _)
    · rw [hrun] at he
      cases he
    · rw [hrun] at hw
      cases hw
      exact ⟨fuel, s, ho⟩
  · rintro ⟨n, s, ho⟩
    have htells := h n
    rw [ho] at htells
    exact exists_value htells

theorem error_iff_of_tells : (∃ fuel e, (run fuel).1 = .error e) ↔ ∃ n, eval n = .failed := by
  constructor
  · rintro ⟨fuel, e, hrun⟩
    rcases (h fuel).of_ended (by rw [hrun]; exact Ending.noConfusion) with
      ⟨-, hlt⟩ | ⟨ho, -⟩ | ⟨w, s, -, hw, -⟩
    · exact absurd hlt (Nat.lt_irrefl _)
    · exact ⟨fuel, ho⟩
    · rw [hrun] at hw
      cases hw
  · rintro ⟨n, ho⟩
    have htells := h n
    rw [ho] at htells
    exact exists_error htells

theorem leaves_of_tells {v w : Value} {s : Meaning.Store} (hrun : (run fuel).1 = .value v)
    (heval : eval n = .returned w s) : v = w ∧ Leaves ctx w s (run fuel).2 := by
  have htells := h n
  rw [heval] at htells
  rcases htells.of_ended (by rw [hrun]; exact Ending.noConfusion) with
    ⟨ho, -⟩ | ⟨ho, -⟩ | ⟨w', s', ho, hw, hleaves⟩
  · cases ho
  · cases ho
  · cases ho
    rw [hrun] at hw
    cases hw
    exact ⟨rfl, hleaves⟩

end Telling

end Lowering

/-- The run of a call-free program agrees with direct evaluation: it ends, gives a value and fails
just when the evaluation does, with the same value; after a run with a value, the cells of the
program and the heap are those of the evaluation. -/
theorem CodeUnit.run_agrees_with_evaluation {source : Bytes} {body : List Node} {o : CompileOptions}
    {u : CodeUnit} (hsource : Program.ofSource source = (body, []))
    (hfree : ∀ n ∈ body, Meaning.CallFree (fun x => o.scratch.isReserved x = false) n)
    (hcompile : CodeUnit.compile o (.program body) = .ok u) (limits : Limits)
    (hlimits : limits.steps ≤ 0) (console : Option Console) :
    let run := fun fuel => Machine.runWithin fuel limits (u.declareScratch o.scratch)
      (Machine.ofUnit (u.declareScratch o.scratch) console)
    ((∃ fuel, (run fuel).1 ≠ .outOfFuel) ↔ ∃ n, Meaning.program n body ≠ .outOfFuel) ∧
    (∀ v, (∃ fuel, (run fuel).1 = .value v) ↔ ∃ n s, Meaning.program n body = .returned v s) ∧
    ((∃ fuel e, (run fuel).1 = .error e) ↔ ∃ n, Meaning.program n body = .failed) ∧
    ∀ fuel n v w s, (run fuel).1 = .value v → Meaning.program n body = .returned w s →
      v = w ∧ (run fuel).2.heap = s.heap ∧
      ∀ x, 46 ∉ x → o.scratch.isReserved x = false →
        (run fuel).2.globals.get? x = s.cells.get? x := by
  have hdotless : ∀ n ∈ body, n.Dotless := by
    have h := Program.dotless_ofSource source
    rwa [hsource] at h
  have hplain : ∀ n ∈ body, Meaning.CallFree (fun x => 46 ∉ x ∧ o.scratch.isReserved x = false) n :=
    fun n hn => (hfree n hn).of_names fun x hx hres => ⟨hdotless n hn x hx, hres⟩
  obtain ⟨ctx, hctx, htells⟩ := Lowering.tells_program hcompile hplain hlimits console
  refine ⟨Lowering.ends_iff_of_tells htells, Lowering.value_iff_of_tells htells,
    Lowering.error_iff_of_tells htells, fun fuel n v w s hrun heval => ?_⟩
  obtain ⟨hv, hleaves⟩ := Lowering.leaves_of_tells htells hrun heval
  exact ⟨hv, hleaves.heap_eq, fun x hdot hres =>
    hleaves.user x (Lowering.Context.isUser_of hctx hdot hres)⟩

/-- A loop over the cells of an array; the step reads one cell as it goes and another one before. -/
def sampleLoop : List Node :=
  [.binary ⟨1, 1⟩ .declare (.ident ⟨1, 5⟩ "a")
      (.array ⟨1, 9⟩ [.number ⟨1, 10⟩ 3, .number ⟨1, 13⟩ 4]) none,
    .binary ⟨1, 17⟩ .declare (.ident ⟨1, 21⟩ "i") (.number ⟨1, 25⟩ 0) none,
    .loop ⟨1, 28⟩ (.binary ⟨1, 36⟩ .lt (.ident ⟨1, 34⟩ "i") (.number ⟨1, 38⟩ 2) none)
      [.binary ⟨1, 44⟩ .assign (.ident ⟨1, 42⟩ "i")
        (.binary ⟨1, 48⟩ .add (.ident ⟨1, 46⟩ "i")
          (.binary ⟨1, 55⟩ .mul (.index ⟨1, 50⟩ "a" (.ident ⟨1, 52⟩ "i"))
            (.binary ⟨1, 63⟩ .sub (.index ⟨1, 58⟩ "a" (.number ⟨1, 60⟩ 0)) (.number ⟨1, 65⟩ 2) none)
            none) none) none],
    .ret ⟨1, 71⟩ (.ident ⟨1, 78⟩ "i")]

def sampleLoopSource : Bytes :=
  "let a = [3, 4]; let i = 0; while i < 2 \x7b i = i + a[i] * (a[0] - 2); \x7d return i;"

theorem sampleLoop_callFree :
    ∀ n ∈ sampleLoop, Meaning.CallFree (fun x => ({} : Scratch).isReserved x = false) n := by
  have ha : ({} : Scratch).isReserved "a" = false := by decide
  have hi : ({} : Scratch).isReserved "i" = false := by decide
  refine List.forall_mem_cons.2 ⟨?_, List.forall_mem_cons.2 ⟨?_, List.forall_mem_cons.2
    ⟨?_, List.forall_mem_cons.2 ⟨?_, List.forall_mem_nil _⟩⟩⟩⟩
  · refine .declare _ _ _ ha (.array _ ?_)
    simp only [List.forall_mem_cons]
    exact ⟨.number _ _, .number _ _, List.forall_mem_nil _⟩
  · exact .declare _ _ _ hi (.number _ _)
  · refine .loop _ (.binary _ _ rfl (.ident _ hi) (.number _ _)) ?_
    rw [List.forall_mem_singleton]
    refine .assign _ _ _ hi (.binary _ _ rfl (.ident _ hi) (.binary _ _ rfl ?_ ?_))
    · exact .index _ ha (.ident _ hi)
    · exact .binary _ _ rfl (.index _ ha (.number _ _)) (.number _ _)
  · exact .ret _ (.ident _ hi)

set_option maxRecDepth 20000 in
theorem sampleLoop_run :
    Program.ofSource sampleLoopSource = (sampleLoop, []) ∧
      ∃ u, CodeUnit.compile {} (.program sampleLoop) = .ok u ∧
        ∃ fuel, (Machine.runWithin fuel {} (u.declareScratch {})
          (Machine.ofUnit (u.declareScratch {}) none)).1 = .value (.int 3) := by
  have hsource : Program.ofSource sampleLoopSource = (sampleLoop, []) := rfl
  obtain ⟨u, hu⟩ : ∃ u, CodeUnit.compile {} (.program sampleLoop) = .ok u := ⟨_, rfl⟩
  have hrun :=
    CodeUnit.run_agrees_with_evaluation hsource sampleLoop_callFree hu {} (Int.le_refl 0) none
  exact ⟨hsource, u, hu, (hrun.2.1 (.int 3)).2 ⟨2, _, rfl⟩⟩

end UnitScript
