import UnitScript.Proofs.Lowering.Forms

/-!
# Compilation of statements, step by step

A successful compilation of statements is laid out as a derivation, with one rule for each kind of
statement. A rule has all that the compiler has made sure of, the states in between and the code. What
holds of compiled statements is shown by induction on the derivation, so that the forms of statements
that cannot be compiled and the order of the compiler's steps are dealt with here only.
-/

namespace UnitScript

namespace Node

mutual

/-- The functions outside of function bodies, with the kinds of their results. -/
def outerFunctions : Node → List (Name × Kind)
  | func _ name _ result _ => [(name, .orNumber result)]
  | cond _ _ yes no => outerFunctionsOfAll yes ++ outerFunctionsOfAll no
  | loop _ _ body => outerFunctionsOfAll body
  | _ => []

def outerFunctionsOfAll : List Node → List (Name × Kind)
  | [] => []
  | n :: rest => outerFunctions n ++ outerFunctionsOfAll rest

end

theorem outerFunctions_of_isValue {n : Node} (h : n.isValue = true) : n.outerFunctions = [] := by
  cases n with
  | func | cond | loop => cases h
  | _ => rfl

end Node

namespace Lowering

/-- Statements in a setting and a state are compiled to code, which leads to another state. -/
inductive Lowers : Context → List Node → State → State → Code → Prop where
  | nil {ctx st} : Lowers ctx [] st st []
  | cons {ctx n rest st mid st' c d} : Lowers ctx [n] st mid c → Lowers ctx rest mid st' d →
      Lowers ctx (n :: rest) st st' (c ++ d)
  | value {ctx n st st' c place} : n.isValue = true →
      expr ctx .none n st = .ok ((c, place), st') → Lowers ctx [n] st st' c
  | declare {ctx pos namePos name init type kind storage st mid st' c src} :
      ctx.scratch.isReserved name = false → declare namePos name kind st = .ok ((), mid) →
      Reach ctx .none init mid st' c src →
      Lowers ctx [.binary pos .declare (.ident namePos name) init type] st st'
        (.var storage name :: (c ++ [.mov src (.cell name)]))
  | assign {ctx pos namePos name source type st st' c src} :
      ctx.scratch.isReserved name = false → st.symbols.lookup? name ≠ none →
      Reach ctx .none source st st' c src →
      Lowers ctx [.binary pos .assign (.ident namePos name) source type] st st'
        (c ++ [.mov src (.cell name)])
  | cond {ctx pos test yes no st mid u v c place d e} :
      expr ctx .none test st = .ok ((c, place), mid) → Lowers ctx yes mid.entered u d →
      Lowers ctx no u.left.entered v e →
      Lowers ctx [.cond pos test yes no] st v.left (c ++ [condScope place d e])
  | loop {ctx pos test body st mid u c place d} : expr ctx .none test st = .ok ((c, place), mid) →
      Lowers ctx body mid.entered u d → Lowers ctx [.loop pos test body] st u.left [loopScope c place d]
  | func {ctx pos name params result body slots encoded st first last st' c} :
      ctx.scratch.isReserved name = false →
      parameters ctx.inner params st.inner = .ok (slots, first) → Lowers ctx.inner body first last c →
      Encoding.code (ctx.scratch.declarations ++ c) = .ok encoded →
      Datum.merge st.data last.data = (st'.data, none) →
      last.symbols.leave.declare name (.orNumber result) = .ok st'.symbols →
      st'.strings = last.strings →
      (st'.exports = if ctx.depth = 0 then last.exports.insert name (.orNumber result)
        else last.exports) →
      Lowers ctx [.func pos name params result body] st st'
        [.function ⟨name, slots, .ofKind (.orNumber result), encoded⟩]
  | ret {ctx pos n st st' c src} : n ≠ .missing → Reach ctx .none n st st' c src →
      Lowers ctx [.ret pos n] st st' (c ++ [.ret [src]])
  | leave {ctx pos st} : Lowers ctx [.ret pos .missing] st st [.ret []]
  | splice {ctx pos name st st' c} : splice ctx pos name st = .ok (c, st') →
      Lowers ctx [.importUnit pos name] st st' c
  | pass {ctx pos st} : Lowers ctx [.pass pos] st st [.nop]

variable {ctx : Context} {st st' : State} {code : Code}

theorem lowers_of_expr {n : Node} (h : (Prod.fst <$> expr ctx .none n) st = .ok (code, st')) :
    Lowers ctx [n] st st' code := by
  obtain ⟨⟨c, place⟩, he, rfl⟩ := map_eq_ok.1 h
  exact .value (isValue_of_expr he) he

mutual

theorem lowers_of_stmt : ∀ (n : Node) {ctx : Context} {st st' : State} {code : Code},
    stmt ctx n st = .ok (code, st') → Lowers ctx [n] st st' code
  | .binary pos op left right type, ctx, _, _, _, h => by
    rcases stmt_binary_eq_ok h with ⟨rfl, h⟩ | ⟨rfl, h⟩ | ⟨place, he⟩
    · obtain ⟨namePos, name, rfl⟩ := exists_ident_of_declareCell h
      obtain ⟨hres, kind, storage, mid, c, src, hd, hr, rfl⟩ := declareCell_states h
      exact .declare hres hd hr
    · obtain ⟨namePos, name, rfl⟩ := exists_ident_of_assign h
      obtain ⟨hres, hknown, c, src, hr, rfl⟩ := assign_states h
      exact .assign hres hknown hr
    · exact .value (isValue_of_expr he) he
  | .cond _ test yes no, _, _, _, _, h => by
    obtain ⟨c, place, mid, yc, mid', nc, hc, hy, hn, rfl⟩ := stmt_cond_eq_ok h
    obtain ⟨u, hyes, rfl⟩ := inBlock_states hy
    obtain ⟨v, hno, rfl⟩ := inBlock_states hn
    exact .cond hc (lowers_of_stmts yes hyes) (lowers_of_stmts no hno)
  | .loop _ test body, _, _, _, _, h => by
    obtain ⟨c, place, mid, bc, hc, hb, rfl⟩ := stmt_loop_eq_ok h
    obtain ⟨u, hbody, rfl⟩ := inBlock_states hb
    exact .loop hc (lowers_of_stmts body hbody)
  | .func _ _ params _ body, _, _, _, _, h => by
    have hres := stmt_func_unreserved h
    obtain ⟨slots, first, bc, last, encoded, hslots, hb, hencode, rfl, hmerge, hname, hstrings,
      hexports⟩ := stmt_func_states h
    exact .func hres hslots (lowers_of_stmts body hb) hencode hmerge hname hstrings hexports
  | .ret pos n, _, _, _, _, h => by
    by_cases hn : n = .missing
    · subst hn
      obtain ⟨rfl, rfl⟩ := pure_eq_ok.1 h
      exact .leave
    · obtain ⟨c, src, hr, rfl⟩ := stmt_ret_eq_ok hn h
      exact .ret hn hr
  | .importUnit _ name, _, _, _, _, h => .splice h
  | .pass _, _, _, _, _, h => by
    obtain ⟨rfl, rfl⟩ := pure_eq_ok.1 h
    exact .pass
  | .missing, _, _, _, _, h => absurd h throw_ne_ok
  | .number .., _, _, _, _, h | .string .., _, _, _, _, h | .ident .., _, _, _, _, h
  | .index .., _, _, _, _, h | .array .., _, _, _, _, h | .call .., _, _, _, _, h
  | .property .., _, _, _, _, h | .param _, _, _, _, _, h | .type _, _, _, _, _, h
  | .program _, _, _, _, _, h => lowers_of_expr h

/-- What the compiler does with statements is a derivation. -/
theorem lowers_of_stmts : ∀ (ns : List Node) {ctx : Context} {st st' : State} {code : Code},
    stmts ctx ns st = .ok (code, st') → Lowers ctx ns st st' code
  | [], _, _, _, _, h => by
    rw [stmts] at h
    obtain ⟨rfl, rfl⟩ := pure_eq_ok.1 h
    exact .nil
  | n :: rest, _, _, _, _, h => by
    obtain ⟨c, mid, more, hc, hm, rfl⟩ := stmts_cons_eq_ok h
    exact .cons (lowers_of_stmt n hc) (lowers_of_stmts rest hm)

end

end Lowering

end UnitScript
