import UnitScript.Proofs.Lowering.Arrangement
import UnitScript.Proofs.Machine.Data

/-!
# Compiled units are structurally sound

The scopes of a statement hold two pieces of code and two jumps between them, whose targets do not lie
beyond the scope. A function reads back as it was compiled, declares the base cells for itself, and
hands its string constants to the stream around it. So at all its levels a compiled unit is in order,
and when a run of it fails, that is not for the form of its code.
-/

namespace UnitScript

namespace Datum

theorem exists_of_merge {data more merged : List Datum} (h : merge data more = (merged, none))
    {name : Name} (hname : (∃ d ∈ data, d.name = name) ∨ ∃ d ∈ more, d.name = name) :
    ∃ d ∈ merged, d.name = name := by
  rcases hname with ⟨d, hd, hname⟩ | ⟨d, hd, hname⟩
  · exact ⟨d, subset_of_merge h hd, hname⟩
  · exact ⟨d, more_subset_of_merge h hd, hname⟩

end Datum

namespace Lowering

open Instruction

variable {ctx : Context} {live : Live} {st st' : State} {c d code : Code} {place src : Operand}
  {i : Instruction} {own known D : Name → Prop} {x : Name} {N size : Nat}

/-! ## Scopes and functions -/

/-- An instruction that can stand in a scope of a size, where the cells in `D` are declared, and be
jumped to. -/
structure Fits (own known D : Name → Prop) (size : Nat) (i : Instruction) : Prop where
  formed : WellFormed known true size i
  below : Below (InOrder own known) i
  declares : DeclaresFirst own D [i]

theorem Arranged.fits (h : Arranged own known D [i]) : Fits own known D size i :=
  ⟨h.formed i (by simp) true size, h.below i (by simp), h.declares⟩

theorem wellFormed_scope (c : Code) (scope : Bool) (size : Nat) :
    WellFormed known scope size (.scope c) := by
  refine ⟨rfl, rfl, rfl, ?_, ?_, ?_, ?_, ?_, ?_, ?_⟩
  · simp [Instruction.scope]
  · rintro o ⟨⟩
  · intro h
    cases h
  · simp [Instruction.scope]
  all_goals
    intro h
    cases h

/-- A scope whose instructions can all be jumped to. -/
theorem arranged_branches (h : ∀ i ∈ c, Fits own known D c.length i) :
    Arranged own known D [.scope c] := by
  refine ⟨?_, ?_, .branches rfl (declaresFirst_drop fun i hi => (h i hi).declares) .nil⟩
  · intro j hj scope size
    rw [List.mem_singleton.1 hj]
    exact wellFormed_scope c scope size
  · intro j hj
    rw [List.mem_singleton.1 hj]
    exact below_scope rfl ⟨fun i hi => (h i hi).formed, nofun⟩ fun i hi => (h i hi).below

theorem Arranged.scope (h : Arranged own known D c) : Arranged own known D [.scope c] := by
  refine ⟨?_, ?_, .scope rfl h.noJump h.declares .nil⟩
  · intro j hj scope size
    rw [List.mem_singleton.1 hj]
    exact wellFormed_scope c scope size
  · intro j hj
    rw [List.mem_singleton.1 hj]
    exact below_scope rfl ⟨fun i hi => h.formed i hi true _, nofun⟩ h.below

theorem fits_jump (hop : i.op.isJump = true) (hrelation : i.relation.isKnown = true)
    (hcount : i.op.accepts i.args.length = true) (hargs : ∀ o ∈ i.args, o.Ready own known D)
    (htarget : 0 ≤ i.target ∧ i.target ≤ size) : Fits own known D size i := by
  have hother : ∀ op, op.isJump = false → i.op ≠ op := by
    rintro op hfalse rfl
    rw [hop] at hfalse
    cases hfalse
  refine ⟨⟨?_, hrelation, hcount, fun w hw => hargs _ hw, ?_, fun _ => ⟨rfl, htarget⟩,
    fun name hname => hargs _ hname, fun h => absurd h (hother .alloc rfl),
    fun h => absurd h (hother .call rfl), fun h => absurd h (hother .func rfl)⟩,
    below_plain (hother .scope rfl) (hother .func rfl),
    declaresFirst_single (hother .scope rfl) fun x hx => hargs _ hx.2⟩
  · cases hop' : i.op <;> rw [hop'] at hop <;> first | rfl | cases hop
  · intro o ho
    unfold destination? at ho
    cases hop' : i.op <;> rw [hop'] at hop ho <;> first | cases ho | cases hop

theorem fits_jeq {a : Operand} (ha : a.Ready own known D) {t : Nat} (ht : t ≤ size) :
    Fits own known D size (.jeq a (.imm 0) t) := by
  apply fits_jump rfl rfl rfl
  · simpa [jeq, Operand.Ready] using ha
  · simp only [jeq]
    omega

theorem fits_jmp {t : Nat} (ht : t ≤ size) : Fits own known D size (.jmp t) := by
  apply fits_jump rfl rfl rfl
  · simp [jmp]
  · simp only [jmp]
    omega

theorem arranged_condScope (hplace : place.Ready own known D) (hyes : Arranged own known D c)
    (hno : Arranged own known D d) : Arranged own known D [condScope place c d] := by
  apply arranged_branches
  simp only [List.forall_mem_cons]
  exact ⟨fits_jeq hplace (by simp), hyes.scope.fits, fits_jmp (by simp), hno.scope.fits,
    List.forall_mem_nil _⟩

theorem arranged_loopScope (hplace : place.Ready own known D) (htest : Arranged own known D c)
    (hbody : Arranged own known D d) : Arranged own known D [loopScope c place d] := by
  apply arranged_branches
  simp only [List.forall_mem_cons]
  exact ⟨htest.scope.fits, fits_jeq hplace (by simp), hbody.scope.fits, fits_jmp (by simp),
    List.forall_mem_nil _⟩

theorem arranged_declarations (s : Scratch) : Arranged own known D s.declarations := by
  have h : ∀ roles : List Role,
      Arranged own known D (roles.map fun r => .var r.storage (s.withDefaults.name r)) := by
    intro roles
    induction roles with
    | nil => exact arranged_nil
    | cons r rest ih => exact (arranged_var _ _).append ih
  exact h Role.all

theorem declared_of_base {s : Scratch} (hs : s.withDefaults = s) (hx : s.Base x) :
    ∃ i ∈ s.declarations, i.declares? = some x := by
  obtain ⟨r, rfl⟩ := hx
  refine ⟨.var r.storage (s.name r), ?_, rfl⟩
  unfold Scratch.declarations
  rw [hs]
  exact List.mem_map.2 ⟨r, by cases r <;> decide, rfl⟩

theorem Arranged.behind_declarations {s : Scratch} (hs : s.withDefaults = s)
    (h : Arranged own known s.Base c) : Arranged own known D (s.declarations ++ c) := by
  apply (arranged_declarations s).append_behind
  exact h.mono (fun _ hx => hx) fun x hx => .inr (declared_of_base hs hx)

theorem arranged_function {record : FunctionRecord} (hread : Decoding.runCode record.body = .ok c)
    (h : Arranged own known (fun _ => False) c) : Arranged own known D [.function record] := by
  refine ⟨?_, ?_, declaresFirst_single nofun fun x hx => ?_⟩
  · intro j hj scope size
    rw [List.mem_singleton.1 hj]
    refine ⟨rfl, rfl, rfl, ?_, ?_, ?_, ?_, ?_, ?_, fun _ => ⟨record, c, rfl, hread⟩⟩
    · simp [Instruction.function]
    · rintro o ⟨⟩
    · intro h
      cases h
    · simp [Instruction.function]
    all_goals
      intro h
      cases h
  · intro j hj
    rw [List.mem_singleton.1 hj]
    exact below_function hread (h.inOrder false) h.below
  · cases hx.2

/-! ## Statements -/

/-- A statement has been compiled: no string constant is lost, and the code is arranged. -/
structure Laid (ctx : Context) (st st' : State) (code : Code) : Prop where
  grows : ∀ name, st.Knows name → st'.Knows name
  arranged : ctx.Arranges st' code

theorem Laid.append {mid : State} (hc : Laid ctx st mid c) (hd : Laid ctx mid st' d) :
    Laid ctx st st' (c ++ d) :=
  ⟨fun name h => hd.grows name (hc.grows name h),
    (hc.arranged.of_known hd.grows).append hd.arranged⟩

theorem SameStrings.knows (h : SameStrings st st') {name : Name} :
    st'.Knows name ↔ st.Knows name := by
  unfold State.Knows
  rw [h.2]

theorem Lowers.laid {ns : List Node} (h : Lowers ctx ns st st' code) (hN : N < 2 ^ 63)
    (hctx : ctx.Bare) (hs : ctx.scratch.Separate) (hns : Node.AllBuilt Bytes.IsWord N ns)
    (hfew : Node.AllFewParams ns) (hroom : Throughout Roomy code) : Laid ctx st st' code := by
  induction h with
  | nil => exact ⟨fun _ hx => hx, arranged_nil⟩
  | cons _ _ ih ih' =>
    rw [Node.AllBuilt, List.forall_mem_cons] at hns
    obtain ⟨hroom₁, hroom₂⟩ := throughout_append.1 hroom
    have hfirst := ih hctx hs (List.forall_mem_singleton.2 hns.1) ⟨hfew.1, trivial⟩ hroom₁
    exact hfirst.append (ih' hctx hs hns.2 hfew.2 hroom₂)
  | value _ he =>
    exact ⟨fun x hx => (expr_extends _ he).knows hx, expr_arranges hs hN _ (hns _ (by simp)) he⟩
  | @declare ctx _ _ name init _ _ storage _ _ st' _ _ _ hd hr =>
    have hn := List.forall_mem_singleton.1 hns
    have hinit : init.Built Bytes.IsWord N := hn.part (by simp [Node.parts])
    refine ⟨fun x hx => hr.extends_of.knows ((declare_eq_ok hd).knows.2 hx), ?_⟩
    have hname : (Operand.cell name).Ready ctx.scratch.Temporary st'.Knows ctx.scratch.Base :=
      ready_word hs (hn.names name (by simp [Node.names]))
    have hstore := (hr.arranged hs hN hinit).append (arranged_mov (hr.ready hs hinit) hname)
    exact (arranged_var storage name).append hstore
  | @assign ctx _ _ name source _ _ st' _ _ _ _ hr =>
    have hn := List.forall_mem_singleton.1 hns
    have hsource : source.Built Bytes.IsWord N := hn.part (by simp [Node.parts])
    refine ⟨fun x hx => hr.extends_of.knows hx, ?_⟩
    have hname : (Operand.cell name).Ready ctx.scratch.Temporary st'.Knows ctx.scratch.Base :=
      ready_word hs (hn.names name (by simp [Node.names]))
    exact (hr.arranged hs hN hsource).append (arranged_mov (hr.ready hs hsource) hname)
  | @cond _ _ test _ _ _ _ _ _ _ _ _ _ hc _ _ ih ih' =>
    have hn := List.forall_mem_singleton.1 hns
    have hinner := (throughout_append.1 hroom).2.children rfl
    have hyes := ih hctx hs (fun m hm => hn.part (by simp [Node.parts, hm])) hfew.1.1
      (hinner.tail.first.children rfl)
    have hno := ih' hctx hs (fun m hm => hn.part (by simp [Node.parts, hm])) hfew.1.2
      (hinner.tail.tail.tail.children rfl)
    have htest := expr_arranges hs hN test (hn.part (by simp [Node.parts])) hc
    refine ⟨fun x hx => hno.grows x (hyes.grows x ((expr_extends test hc).knows hx)), ?_⟩
    apply (htest.of_known fun x hx => hno.grows x (hyes.grows x hx)).append
    apply arranged_condScope (expr_computing test hc).1.ready
    · exact hyes.arranged.of_known hno.grows
    · exact hno.arranged
  | @loop _ _ test _ _ _ _ _ _ _ hc _ ih =>
    have hn := List.forall_mem_singleton.1 hns
    have hinner := hroom.children rfl
    have hbody := ih hctx hs (fun m hm => hn.part (by simp [Node.parts, hm])) hfew.1
      (hinner.tail.tail.first.children rfl)
    have htest := expr_arranges hs hN test (hn.part (by simp [Node.parts])) hc
    refine ⟨fun x hx => hbody.grows x ((expr_extends test hc).knows hx), ?_⟩
    exact arranged_loopScope (expr_computing test hc).1.ready (htest.of_known hbody.grows)
      hbody.arranged
  | @func ctx _ _ _ _ body _ _ _ _ _ _ _ _ _ hlowers hencode hmerge _ _ _ ih =>
    have hn := List.forall_mem_singleton.1 hns
    have hlen := hroom.head rfl _ rfl
    have hbare : ctx.inner.Bare := ⟨hctx.defaults, hctx.alone⟩
    have hall : Node.AllBuilt Bytes.IsWord N body :=
      fun m hm => hn.part (by simp [Node.parts, hm])
    have hrooms := (throughout_append.1 (Decoding.roomy_of_encode hencode hlen)).2
    have hbody := ih hbare hs hall hfew.1.2 hrooms
    have hlowered := hlowers.lowered (hbare.ready _) (fun m hm => (hall m hm).dotless) hfew.1.2 hrooms
    have hwhole := (lowered_declarations ctx.scratch).append hlowered
    have hread := Decoding.runCode_of_encode hwhole.shaped hencode hlen
    refine ⟨fun x hx => Datum.exists_of_merge hmerge (.inl hx), arranged_function hread ?_⟩
    apply Arranged.behind_declarations hctx.defaults
    exact hbody.arranged.of_known fun x hx => Datum.exists_of_merge hmerge (.inr hx)
  | @ret _ _ n _ _ _ _ _ hr =>
    have hvalue : n.Built Bytes.IsWord N :=
      (List.forall_mem_singleton.1 hns).part (by simp [Node.parts])
    refine ⟨fun x hx => hr.extends_of.knows hx, (hr.arranged hs hN hvalue).append ?_⟩
    exact arranged_ret (Nat.le_refl 1) (by simpa using hr.ready hs hvalue)
  | leave => exact ⟨fun _ hx => hx, arranged_ret (Nat.zero_le 1) (by simp)⟩
  | splice h =>
    obtain ⟨includer, unit, hinc, hunit, -⟩ := splice_eq_ok h
    exact absurd hunit (hctx.alone includer _ unit hinc)
  | pass => exact ⟨fun _ hx => hx, arranged_nop⟩

end Lowering

open Instruction Machine

/-- At all levels the code of a unit that was compiled from a source without imports is in order: its
instructions are well formed, with data of the unit and functions that can be read, and temporaries are
declared before they are used. So when a run of the unit fails, on any machine that serves for it, that
is neither for the form of an instruction nor for a temporary that is not declared. -/
theorem CodeUnit.structurally_sound {o : CompileOptions} {source : Bytes} {u : CodeUnit}
    (hu : u.CompiledAlone o source) (hlength : source.length + 1 < 2 ^ 63) :
    (∀ scope c, Level (u.declareScratch o.scratch).code scope c →
      InOrder o.scratch.withDefaults.Temporary (fun name => ∃ d ∈ u.data, d.name = name) scope c) ∧
    ∀ {m₀ m : Machine} {fuel : Nat} {limits : Limits} {e : RunError} {f : Fault},
      Serves (u.declareScratch o.scratch) m₀ →
      runWithin fuel limits (u.declareScratch o.scratch) m₀ = (.error e, m) → e.root = .fault f →
      f.isStructural = false ∧
        ∀ x, f.undeclared? = some x → ¬o.scratch.withDefaults.Temporary x := by
  obtain ⟨ctx, hbare, hscratch, hvalid, st, hstmts, hdata⟩ := compile_alone hu.alone hu.compiled
  have hseparate : ctx.scratch.Separate := by
    rw [hscratch]
    exact Scratch.separate_of_validate hvalid
  have hlaid := (Lowering.lowers_of_stmts _ hstmts).laid hlength hbare hseparate
    (Program.words_ofSource source) hu.few hu.roomy
  have hcode : Lowering.Arranged ctx.scratch.Temporary st.Knows (fun _ => False)
      (ctx.scratch.declarations ++ u.code) := hlaid.arranged.behind_declarations hbare.defaults
  have hlevels : ∀ scope c, Level (u.declareScratch o.scratch).code scope c →
      InOrder o.scratch.withDefaults.Temporary (fun name => ∃ d ∈ u.data, d.name = name)
        scope c := by
    rw [u.code_declareScratch, hdata, ← hscratch]
    intro scope c h
    exact h.holds (hcode.inOrder false) hcode.below
  refine ⟨hlevels, fun hm₀ hrun hroot => ?_⟩
  have hexcusable := hm₀.excusable hlevels (fun _ hname => hname) hrun hroot
  exact ⟨hexcusable.form, hexcusable.cell⟩

/-! ## A function that reads a cell of the program which is not there -/

/-- The function has a branch, a string constant and a spill cell, and then it reads `q`. -/
def namingSource : Bytes :=
  "func name(n: number): string \x7b if n \x7b return \"odd\"; \x7d " ++
    "return (1 + 2) + ((3 + n) + (4 + q)); \x7d name(0);"

def namingUnit : CodeUnit :=
  (CodeUnit.compile {} (.program (Program.ofSource namingSource).1)).toOption.getD { name := [] }

theorem namingUnit_compiled : namingUnit.CompiledAlone {} namingSource :=
  .of_checks (by decide +kernel)

/-- The fault that a run ends with. -/
def Ending.fault? : Ending → Option Fault
  | .error e =>
    match e.root with
    | .fault f => some f
    | _ => none
  | _ => none

theorem Ending.fault?_eq_some {r : Ending} {f : Fault} (h : r.fault? = some f) :
    ∃ e, r = .error e ∧ e.root = .fault f := by
  unfold fault? at h
  split at h
  · next e =>
    split at h
    · next g hroot =>
      cases h
      exact ⟨e, rfl, hroot⟩
    · cases h
  · cases h

/-- The unit's code is in order, and the run fails for `q`, which is no temporary. -/
theorem naming_structurally_sound :
    InOrder ({} : Scratch).withDefaults.Temporary (fun name => ∃ d ∈ namingUnit.data, d.name = name)
      false (namingUnit.declareScratch {}).code ∧
    (runWithin 60 {} (namingUnit.declareScratch {})
      (ofUnit (namingUnit.declareScratch {}) none)).1.fault? = some (.undeclaredCell "q") ∧
    ¬({} : Scratch).withDefaults.Temporary "q" := by
  have hfault : (runWithin 60 {} (namingUnit.declareScratch {})
      (ofUnit (namingUnit.declareScratch {}) none)).1.fault? = some (.undeclaredCell "q") := by
    decide +kernel
  have hsound := CodeUnit.structurally_sound namingUnit_compiled (by decide)
  have hserves : Serves (namingUnit.declareScratch {})
      (ofUnit (namingUnit.declareScratch {}) none) := .new none
  refine ⟨hsound.1 false _ .top, hfault, ?_⟩
  generalize hrun : runWithin 60 {} (namingUnit.declareScratch {})
    (ofUnit (namingUnit.declareScratch {}) none) = r at hfault
  obtain ⟨ending, m⟩ := r
  obtain ⟨e, rfl, hroot⟩ := Ending.fault?_eq_some hfault
  exact (hsound.2 hserves hrun hroot).2 "q" rfl

end UnitScript
