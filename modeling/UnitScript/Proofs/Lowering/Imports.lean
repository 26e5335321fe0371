import UnitScript.Proofs.Lowering.Operations

/-!
# What compilation takes from its surroundings

Compilation asks for imported units only where the program has an import. So two sources of units
that agree on the names a program imports, inside of functions, branches and loops as well, give the
same result.
-/

namespace UnitScript

namespace Lowering

variable {i j : Includer}

def Context.including (ctx : Context) (i : Includer) : Context := { ctx with includer := some i }

/-- Actions that ask for the same units, of two sources that agree on them. -/
theorem Composed.eq_of_agree {α : Type} {D : Dealings} {x x' : Lower α} (h : Composed D x x')
    (hi : D.includer = some i) (hj : D.other = some j) (hagree : ∀ name, D.imports name → i name = j name) :
    x = x' := by
  induction h with
  | pure | throw | kindOf | addString | declaredKind | declare | mergeData | publish => rfl
  | bind _ _ ih ihk => rw [ih, funext ihk]
  | inBlock _ _ ih | withOwnData _ _ ih => rw [ih]
  | splice pos _ hctx hname =>
    unfold Lowering.splice
    rw [hctx, hi]
    simp only [Context.taking, hj, hagree _ hname]

theorem stmts_including (ns : List Node) {ctx : Context}
    (h : ∀ name ∈ Node.importsOfAll ns, i name = j name) :
    stmts (ctx.including i) ns = stmts (ctx.including j) ns := by
  let D : Dealings :=
    ⟨ctx.unitName, fun _ => True, (· ∈ Node.importsOfAll ns), some i, some j, True⟩
  have hcomposed : Composed D (stmts (ctx.including i) ns) (stmts (ctx.including j) ns) :=
    stmts_composed trivial ns ⟨rfl, rfl⟩ (fun _ _ => trivial) fun _ hname => hname
  exact hcomposed.eq_of_agree rfl rfl h

end Lowering

namespace CodeUnit

theorem compile_congr_includer {o : CompileOptions} {body : List Node} {i j : Lowering.Includer}
    (h : ∀ name ∈ Node.importsOfAll body, i name = j name) :
    compile { o with includer := some i } (.program body) =
      compile { o with includer := some j } (.program body) := by
  have hstmts (name : Name) (s : Scratch) : Lowering.stmts ⟨name, s, some i, 0⟩ body =
      Lowering.stmts ⟨name, s, some j, 0⟩ body := by
    let ctx : Lowering.Context := ⟨name, s, none, 0⟩
    show Lowering.stmts (ctx.including i) body = Lowering.stmts (ctx.including j) body
    exact Lowering.stmts_including body h
  simp only [compile, hstmts]

theorem compile_congr_scratch {o : CompileOptions} {s t : Scratch}
    (h : s.withDefaults = t.withDefaults) (n : Node) :
    compile { o with scratch := s } n = compile { o with scratch := t } n := by
  cases n with
  | program body => simp only [compile, Scratch.validate, h]
  | _ => rfl

end CodeUnit

end UnitScript
