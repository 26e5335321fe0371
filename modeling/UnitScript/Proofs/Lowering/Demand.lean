import UnitScript.Module.Loader
import UnitScript.Proofs.Lowering.Operations

/-!
# The units that compilation asks for

Compilation asks for a unit just where the program imports it. When it succeeds, every imported unit
was at hand, in functions, branches and loops as well; when it fails for lack of one, then the program
imports it and it was not at hand.
-/

namespace UnitScript

namespace Lowering

def Fails {α : Type} (x : Lower α) (P : CompileError → Prop) : Prop := ∀ st e, x st = .error e → P e

section Rules

variable {α β : Type} {x : Lower α} {f : α → Lower β} {P : CompileError → Prop}

theorem fails_pure (a : α) : Fails (pure a : Lower α) P := by
  rintro st e ⟨⟩

theorem fails_throw {e : CompileError} (h : P e) : Fails (throw e : Lower α) P := by
  rintro st _ ⟨⟩
  exact h

theorem fails_get : Fails (get : Lower State) P := by
  rintro st e ⟨⟩

theorem fails_set (st : State) : Fails (set st : Lower PUnit) P := by
  rintro _ e ⟨⟩

theorem fails_modify (g : State → State) : Fails (modify g : Lower PUnit) P := by
  rintro st e ⟨⟩

theorem Fails.bind (hx : Fails x P) (hf : ∀ a, Fails (f a) P) : Fails (x >>= f) P := by
  intro st e h
  have hbind : (x >>= f) st = (x st >>= fun p => f p.1 p.2) := rfl
  rw [hbind] at h
  cases hr : x st with
  | error e' =>
    rw [hr] at h
    cases h
    exact hx st e hr
  | ok p =>
    rw [hr] at h
    exact hf p.1 p.2 e h

end Rules

/-- If the error is about an import, then the import is one that is asked for, and this is what the
source of imports said. -/
def About (D : Dealings) (e : CompileError) : Prop :=
  ∀ reason, e.inclusion? = some reason → ∃ name includer, D.imports name ∧
    D.includer = some includer ∧ includer name = .error reason

theorem about_of_inward {D : Dealings} {e : CompileError} (h : e.inclusion? = none) : About D e := by
  intro reason hreason
  rw [h] at hreason
  cases hreason

theorem Composed.fails {α : Type} {D : Dealings} {x x' : Lower α} (h : Composed D x x') :
    Fails x (About D) := by
  induction h with
  | pure a => exact fails_pure a
  | throw he => exact fails_throw (about_of_inward he)
  | bind _ _ ih ihk => exact ih.bind ihk
  | kindOf => exact fails_get.bind fun _ => fails_pure _
  | addString => exact fails_get.bind fun _ => (fails_set _).bind fun _ => fails_pure _
  | publish => exact fails_modify _
  | declaredKind =>
    unfold Lowering.declaredKind
    dsimp only
    split
    · exact fails_pure _
    · refine fails_get.bind fun st => ?_
      split
      · exact fails_pure _
      · exact fails_throw (about_of_inward rfl)
  | declare | mergeData =>
    refine fails_get.bind fun st => ?_
    split
    · exact fails_set _
    · exact fails_throw (about_of_inward rfl)
  | inBlock _ _ ih =>
    exact (fails_modify _).bind fun _ => ih.bind fun _ => (fails_modify _).bind fun _ => fails_pure _
  | withOwnData _ _ ih =>
    exact fails_get.bind fun _ => (fails_modify _).bind fun _ => ih.bind fun _ =>
      fails_get.bind fun _ => (fails_modify _).bind fun _ => fails_pure _
  | @splice ctx pos name _ hctx hname =>
    unfold Lowering.splice
    rw [hctx]
    cases hincluder : D.includer with
    | none => exact fails_throw (about_of_inward rfl)
    | some includer =>
      cases hunit : includer name with
      | ok unit =>
        simp only [hunit]
        refine Fails.bind (fails_get.bind fun st => ?_) fun _ => fails_pure _
        split
        · exact fails_set _
        · exact fails_throw (about_of_inward rfl)
      | error e =>
        simp only [hunit]
        refine fails_throw fun reason hreason => ?_
        cases hreason
        exact ⟨name, includer, hname, hincluder, hunit⟩

def Context.Provides (ctx : Context) (name : Name) : Prop :=
  ∃ includer unit, ctx.includer = some includer ∧ includer name = .ok unit

theorem Lowers.provides {ctx : Context} {ns : List Node} {st st' : State} {code : Code}
    (h : Lowers ctx ns st st' code) :
    ∀ name ∈ Node.importsOfAll ns, ctx.Provides name := by
  induction h with
  | nil => exact nofun
  | cons _ _ ih ih' =>
    simp only [Node.importsOfAll, List.append_nil] at ih ⊢
    exact List.forall_mem_append.2 ⟨ih, ih'⟩
  | @value _ n _ _ _ _ hvalue =>
    have hnone : Node.importsOfAll [n] = [] := by cases n <;> first | rfl | cases hvalue
    rw [hnone]
    exact nofun
  | cond _ _ _ ih ih' =>
    simp only [Node.importsOfAll, Node.imports, List.append_nil]
    exact List.forall_mem_append.2 ⟨ih, ih'⟩
  | loop _ _ ih | func _ _ _ _ _ _ _ _ ih =>
    simp only [Node.importsOfAll, Node.imports, List.append_nil]
    exact ih
  | splice h =>
    obtain ⟨includer, unit, hincluder, hunit, -⟩ := splice_eq_ok h
    simp only [Node.importsOfAll, Node.imports, List.append_nil, List.forall_mem_singleton]
    exact ⟨includer, unit, hincluder, hunit⟩
  | declare | assign | ret | leave | pass => exact nofun

end Lowering

namespace CodeUnit

variable {o : CompileOptions} {units : NameMap CodeUnit} {body : List Node}

theorem imports_at_hand {u : CodeUnit}
    (h : compile { o with includer := some (Loader.includer units) } (.program body) = .ok u) :
    ∀ name ∈ Node.importsOfAll body, (units.get? name).isSome = true := by
  obtain ⟨ctx, -, hincluder, -, -, st, hstmts, -⟩ := compile_eq_ok h
  intro name hname
  obtain ⟨includer, unit, hctx, hunit⟩ := (Lowering.lowers_of_stmts body hstmts).provides name hname
  rw [hincluder] at hctx
  cases hctx
  unfold Loader.includer at hunit
  split at hunit
  · next v hv => rw [hv]; rfl
  · cases hunit

theorem missing_import {failure : CompileFailure} {pos : Position} {name : Name}
    (h : compile { o with includer := some (Loader.includer units) } (.program body) =
      .error failure) (hmissing : failure.missingImport? = some (pos, name)) :
    name ∈ Node.importsOfAll body ∧ units.get? name = none := by
  obtain ⟨kind, detail, rfl⟩ : ∃ kind detail,
      failure = .error (.mk kind pos detail (.inclusion (.notLoaded name))) := by
    unfold CompileFailure.missingImport? at hmissing
    split at hmissing
    · cases hmissing
      exact ⟨_, _, rfl⟩
    · cases hmissing
  simp only [compile] at h
  split at h
  · cases h
  · split at h
    · next e he =>
      cases h
      obtain ⟨other, includer, hother, hctx, hreason⟩ :=
        (Lowering.composed_stmts _ body).fails _ _ he (.notLoaded name) rfl
      cases hctx
      unfold Loader.includer at hreason
      split at hreason
      · cases hreason
      · next hnone =>
        cases hreason
        exact ⟨hother, hnone⟩
    · cases h

end CodeUnit

end UnitScript
