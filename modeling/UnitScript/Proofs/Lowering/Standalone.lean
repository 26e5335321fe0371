import UnitScript.Proofs.Lowering.Imports
import UnitScript.Proofs.Lowering.Order
import UnitScript.Proofs.Machine.Runs

/-!
# Units without imports

A program that imports nothing is compiled as if there were nothing to import. Its unit can be run on
a machine again and again, and all places of all these runs are sound.
-/

namespace UnitScript

open Instruction Machine

/-- The names of the temporaries: each base name, and the spill cells named after it. -/
def Scratch.Temporary (s : Scratch) (x : Name) : Prop :=
  ∃ role n, x = if n = 0 then s.name role else s.name role ++ "." ++ Bytes.ofNat n

theorem Scratch.Temporary.own {s : Scratch} {x : Name} (h : s.Temporary x) : s.Own x := by
  obtain ⟨role, n, hx⟩ := h
  let ctx : Lowering.Context := ⟨[], s, none, 0⟩
  have hcell : x = ctx.cellName role n := hx
  rw [hcell]
  exact ctx.own_cellName role n

/-- A setting in which nothing can be imported. -/
structure Lowering.Context.Bare (ctx : Lowering.Context) : Prop where
  defaults : ctx.scratch.withDefaults = ctx.scratch
  alone : ∀ includer name u, ctx.includer = some includer → includer name ≠ .ok u

theorem Lowering.Context.Bare.ready {ctx : Lowering.Context} (h : ctx.Bare) (names : List Name) :
    ctx.Ready names :=
  ⟨h.defaults, fun includer hi name _ u hu => absurd hu (h.alone includer name u hi)⟩

/-- For statements without imports the source of units does not matter, so that it can be one that has
none. -/
theorem Lowering.Context.exists_bare {ctx : Lowering.Context}
    (h : ctx.scratch.withDefaults = ctx.scratch) :
    ∃ bare : Lowering.Context, bare.Bare ∧ bare.scratch = ctx.scratch ∧
      ∀ ns, Node.importsOfAll ns = [] → Lowering.stmts bare ns = Lowering.stmts ctx ns := by
  obtain ⟨unitName, scratch, includer, depth⟩ := ctx
  cases includer with
  | none => exact ⟨_, ⟨h, nofun⟩, rfl, fun _ _ => rfl⟩
  | some includer =>
    let ctx : Lowering.Context := ⟨unitName, scratch, none, depth⟩
    let refusing : Lowering.Includer := fun _ => .error default
    refine ⟨ctx.including refusing, ⟨h, fun i name u hi hu => ?_⟩, rfl, fun ns hns => ?_⟩
    · cases hi
      cases hu
    · show Lowering.stmts _ ns = Lowering.stmts (ctx.including includer) ns
      apply Lowering.stmts_including
      rw [hns]
      exact nofun

theorem Lowering.Lowers.lowered_alone {ctx : Lowering.Context} {ns : List Node}
    {st st' : Lowering.State} {code : Lowering.Code}
    (hdefaults : ctx.scratch.withDefaults = ctx.scratch) (halone : Node.importsOfAll ns = [])
    (hdotless : ∀ n ∈ ns, n.Dotless) (hfew : Node.AllFewParams ns) (hroom : Throughout Roomy code)
    (h : Lowering.Lowers ctx ns st st' code) : Lowering.Lowered ctx.scratch code := by
  refine h.lowered ⟨hdefaults, fun includer _ name hname => ?_⟩ hdotless hfew hroom
  rw [halone] at hname
  cases hname

namespace CodeUnit

variable {o : CompileOptions} {body : List Node} {source : Bytes} {u : CodeUnit} {limits : Limits}
  {all rest : List Instruction} {m₀ m : Machine}

theorem compile_alone (himports : Node.importsOfAll body = [])
    (h : compile o (.program body) = .ok u) :
    ∃ ctx : Lowering.Context, ctx.Bare ∧ ctx.scratch = o.scratch.withDefaults ∧
      o.scratch.validate = .ok () ∧ ∃ st, Lowering.stmts ctx body
        { symbols := .ofPrelude o.prelude, strings := 0, data := [], exports := .empty } =
          .ok (u.code, st) ∧ u.data = st.data := by
  obtain ⟨ctx, hctx, -, -, hvalid, st, hstmts, hdata, -⟩ := compile_eq_ok h
  have hdefaults : ctx.scratch.withDefaults = ctx.scratch := by
    rw [hctx, Scratch.withDefaults_withDefaults]
  obtain ⟨bare, hbare, hscratch, hsame⟩ := Lowering.Context.exists_bare hdefaults
  rw [← hsame body himports] at hstmts
  exact ⟨bare, hbare, hscratch.trans hctx, hvalid, st, hstmts, hdata⟩

/-- A unit compiled from a source that imports nothing and keeps within the limits of the binary
form. -/
structure CompiledAlone (o : CompileOptions) (source : Bytes) (u : CodeUnit) : Prop where
  compiled : compile o (.program (Program.ofSource source).1) = .ok u
  alone : Node.importsOfAll (Program.ofSource source).1 = []
  few : Node.AllFewParams (Program.ofSource source).1
  roomy : Throughout Roomy u.code

namespace CompiledAlone

theorem of_checks (h : (compile o (.program (Program.ofSource source).1)).isOk = true ∧
      Node.importsOfAll (Program.ofSource source).1 = [] ∧
      Node.AllFewParams (Program.ofSource source).1 ∧
      Throughout Roomy
        ((compile o (.program (Program.ofSource source).1)).toOption.getD { name := [] }).code) :
    ((compile o (.program (Program.ofSource source).1)).toOption.getD { name := [] }).CompiledAlone o
      source :=
  ⟨eq_ok_of_isOk h.1 _, h.2.1, h.2.2.1, h.2.2.2⟩

theorem closed (h : CompiledAlone o source u) :
    Closed o.scratch.withDefaults.Own (u.declareScratch o.scratch).code := by
  obtain ⟨ctx, hbare, hctx, -, st, hstmts, -⟩ := compile_alone h.alone h.compiled
  have hlowered := (Lowering.lowers_of_stmts _ hstmts).lowered (hbare.ready _)
    (Program.dotless_ofSource source) h.few h.roomy
  rw [hctx] at hlowered
  exact hlowered.closed

theorem sound (h : CompiledAlone o source u) (hm₀ : Serves (u.declareScratch o.scratch) m₀)
    (hm : (u.declareScratch o.scratch).RunsInto limits m₀ all rest m) :
    Sound o.scratch.withDefaults.Own all rest m := by
  obtain ⟨start, hstart, hvisits⟩ := hm
  have hfunctions : ∀ f : Function, Closed o.scratch.withDefaults.Own f.body →
      Supplies (fun f => Closed o.scratch.withDefaults.Own f.body) f.body :=
    fun f hf => hf.2.functions
  have hstocked := hm₀.stocked hfunctions h.closed.2.functions
  have htame : m₀.Tame o.scratch.withDefaults.Own := fun name f hf => (hstocked name f hf).2
  exact hvisits.sound (sound_start htame h.closed hstart)

end CompiledAlone

end CodeUnit

end UnitScript
