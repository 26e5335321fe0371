import UnitScript.Proofs.Hazard.Sites

/-!
# Self calls and the kinds that compilation counts on

A call of a function inside its own body is reported as a self call if no kind of the name was recorded
when compilation came to the statement around the call. Nearly always that is also what the compiler
finds when it compiles the call, and then it counts on a number. The exception is a call in the
initializer of a variable that has the function's own name: the variable is recorded before the
initializer is compiled, but the walk declares it only behind the initializer. Such a call is reported,
although it is compiled for the kind of the variable.
-/

namespace UnitScript

open Node (Part Turn)

namespace Escape.Stage

variable {prelude : Prelude} {n : Node} {part next : Part} {t : Turn}

/-! ## What is found on the way -/

theorem found_turn_statement (hturn : (Part.statement n).turn? t = some next) (s : Stage) :
    ((s.turn prelude (.statement n) t).walked prelude next).found <:+
      (s.walked prelude (.statement n)).found := by
  cases n with
  | cond pos test yes no =>
    have hyes := found_block_suffix prelude yes s.functions
      (s.walk.useAll prelude s.functions test.uses).enter
    have hno := found_block_suffix prelude no s.functions
      (block prelude s.functions (s.walk.useAll prelude s.functions test.uses).enter yes).leave.enter
    rw [Walk.found_enter, Walk.found_leave] at hno
    rw [walked, stmt, Walk.found_leave]
    cases t with
    | test =>
      cases hturn
      exact hyes.trans hno
    | yes =>
      cases hturn
      exact hno
    | no =>
      cases hturn
      exact List.suffix_rfl
    | _ => cases hturn
  | loop pos test body =>
    have hbody := found_block_suffix prelude body s.functions
      (s.walk.useAll prelude s.functions test.uses).enter
    rw [walked, stmt, Walk.found_leave]
    cases t with
    | test =>
      cases hturn
      exact hbody
    | body =>
      cases hturn
      exact List.suffix_rfl
    | _ => cases hturn
  | func pos name params result body =>
    rw [walked, stmt, Walk.found_declare, Walk.found_leave]
    cases t <;> cases hturn
    exact List.suffix_rfl
  | ret pos value =>
    cases t with
    | value => cases value <;> cases hturn <;> exact List.suffix_rfl
    | _ => cases value <;> cases hturn
  | binary pos op left right written =>
    cases t with
    | value =>
      cases op
      case declare =>
        cases hturn
        cases left <;> exact List.suffix_rfl
      case assign =>
        cases hturn
        have huses := Walk.useAll_append prelude s.functions s.walk left.uses right.uses
        rw [walked, walked, stmt, Node.uses, if_neg (by decide), huses]
        · exact List.suffix_rfl
        all_goals simp
      all_goals
        cases hturn
        exact List.suffix_rfl
    | _ => cases op <;> cases hturn
  | index | array | call | property =>
    cases t <;> cases hturn
    exact List.suffix_rfl
  | _ => cases t <;> cases hturn

theorem found_turn_expression {place : Lowering.Place} (h : place.Compiles (.expression n))
    (hturn : (Part.expression n).turn? t = some next) (s : Stage) :
    ((s.turn prelude (.expression n) t).walked prelude next).found <:+
      (s.walked prelude (.expression n)).found := by
  cases n with
  | binary pos op left right written =>
    obtain ⟨⟨code, cell⟩, st, hexpr⟩ := h
    rw [Lowering.fetch_eq_expr hturn] at hexpr
    obtain ⟨hop, -⟩ := Lowering.expr_binary_eq_ok hexpr
    have hne : op ≠ .declare := by
      rintro rfl
      cases hop
    rw [walked, Node.uses, if_neg hne]
    cases t with
    | left =>
      cases hturn
      exact Walk.found_useAll_suffix_append prelude _ _ _ _
    | right =>
      cases hturn
      rw [turn, if_neg hne, Walk.useAll_append]
      exact List.suffix_rfl
    | _ => cases hturn
  | index | array =>
    cases t <;> cases hturn
    exact List.suffix_rfl
  | call pos callee args =>
    cases t <;> cases hturn
    rw [walked, walked, Node.uses, Walk.useAll_append]
    exact List.suffix_rfl
  | property pos object member =>
    cases t <;> cases hturn
    rw [walked, walked, Node.uses, Node.usesAll_pathArgs, Walk.useAll_append]
    exact List.suffix_rfl
  | _ => cases t <;> cases hturn

/-- What is found up to the end of one of its parts is found in the part. -/
theorem found_turn {place : Lowering.Place} (h : place.Compiles part)
    (hturn : part.turn? t = some next) (s : Stage) :
    ((s.turn prelude part t).walked prelude next).found <:+ (s.walked prelude part).found := by
  cases part with
  | block ns =>
    cases ns with
    | nil => cases t <;> cases hturn
    | cons n rest =>
      cases t with
      | first =>
        cases hturn
        exact found_block_suffix prelude rest s.functions _
      | rest =>
        cases hturn
        exact List.suffix_rfl
      | _ => cases hturn
  | statement => exact found_turn_statement hturn s
  | expression => exact found_turn_expression h hturn s
  | items ns =>
    cases ns with
    | nil => cases t <;> cases hturn
    | cons n rest =>
      cases t with
      | first =>
        cases hturn
        exact Walk.found_useAll_suffix_append prelude _ _ _ _
      | rest =>
        cases hturn
        rw [walked, walked, Node.usesAll, Walk.useAll_append]
        exact List.suffix_rfl
      | _ => cases hturn

theorem functions_turn (s : Stage) (part : Part) (t : Turn) :
    (s.turn prelude part t).functions = part.entered t ++ s.functions := by
  cases part with
  | block ns => cases ns <;> cases t <;> rfl
  | statement n =>
    cases n with
    | binary pos op => cases op <;> cases t <;> rfl
    | _ => cases t <;> rfl
  | expression n => cases n <;> cases t <;> rfl
  | items ns => cases ns <;> cases t <;> rfl

end Escape.Stage

namespace Visit

variable {prelude : Prelude} {v : Visit} {part last : Part} {way : List Turn} {name : Name}

/-! ## The way to a site -/

/-- On the way to a site compilation and the walk stay in agreement, and the walk goes on from the site
to what it finds in the end. -/
theorem Holds.along (h : v.Holds prelude part) (hway : part.along way = some last) :
    ∃ v', v.along prelude part way = some v' ∧ v'.Holds prelude last ∧
      (v'.stage.walked prelude last).found <:+ (v.stage.walked prelude part).found ∧
      (∀ name, name ∈ part.enclosing way ∨ name ∈ v.stage.functions → name ∈ v'.stage.functions) := by
  induction way generalizing v part with
  | nil =>
    cases hway
    exact ⟨v, rfl, h, List.suffix_rfl, fun name hname => hname.resolve_left List.not_mem_nil⟩
  | cons t way ih =>
    obtain ⟨next, hturn, hrest⟩ := Option.bind_eq_some_iff.1 hway
    obtain ⟨place, hplace, hnext⟩ := h.turns hturn
    obtain ⟨v', hv', hlast, hfound, hfunctions⟩ := ih hnext hrest
    refine ⟨v', ?_, hlast, hfound.trans (Escape.Stage.found_turn h.1 hturn v.stage), ?_⟩
    · rw [Visit.along, hturn, hplace]
      exact hv'
    · intro name hname
      apply hfunctions
      rw [Escape.Stage.functions_turn]
      rw [Part.enclosing, hturn] at hname
      simp only [List.mem_append] at hname ⊢
      grind

theorem holds_start {o : CompileOptions} {body : List Node} {u : CodeUnit}
    (hu : CodeUnit.compile o (.program body) = .ok u) :
    (start o).Holds o.prelude (.block body) := by
  obtain ⟨st, hst⟩ := CodeUnit.stmts_of_compile hu
  exact ⟨⟨u.code, st, hst⟩, rfl, fun name => Escape.Walk.knows_start.symm⟩

/-- The walk, come to a use, finds it to be a self call. -/
def FindsSelf (prelude : Prelude) (v : Visit) (use : Use) : Prop :=
  (v.stage.walk.use prelude v.stage.functions use).found =
    .self use.name use.pos :: v.stage.walk.found

theorem not_hasKind_iff {st : Lowering.State} :
    ¬st.HasKind name ↔ st.symbols.lookup? name = none := by
  simp [Lowering.State.HasKind]

theorem Holds.findsSelf_iff {n : Node} (h : v.Holds prelude (.expression n))
    (hname : name ∈ v.stage.functions) (pos : Position) :
    v.FindsSelf prelude ⟨name, pos⟩ ↔ v.place.front.symbols.lookup? name = none := by
  rw [← not_hasKind_iff, (h.2 name).1]
  exact Escape.Walk.found_use_eq_self_iff.trans (and_iff_left hname)

/-- What is found up to a call's name is found first, and nothing of it is taken back. -/
theorem hazards_of_suffix {body : List Node} {pos namePos : Position} {args : List Node}
    (h : (v.stage.walked prelude (.expression (.call pos (.ident namePos name) args))).found <:+
      (Escape.block prelude [] .start body).found) :
    ∃ later, Escape.hazards prelude body =
      (v.stage.walk.use prelude v.stage.functions ⟨name, namePos⟩).found.reverse ++ later := by
  have huse : (v.stage.walk.use prelude v.stage.functions ⟨name, namePos⟩).found <:+
      (v.stage.walked prelude (.expression (.call pos (.ident namePos name) args))).found := by
    rw [Escape.Stage.walked, Node.uses, Node.uses, Escape.Walk.useAll_append]
    exact Escape.Walk.found_useAll_suffix _ _ _ _
  obtain ⟨later, hlater⟩ := huse.trans h
  exact ⟨later.reverse, by rw [Escape.hazards, ← hlater, List.reverse_append]⟩

end Visit

theorem HazardReport.mem_hazards_of_escape {prelude : Prelude} {body : List Node} {hazard : Hazard}
    (h : hazard ∈ Escape.hazards prelude body) :
    hazard ∈ (HazardReport.ofProgram prelude body).hazards :=
  List.mem_mergeSort.2 (List.mem_append_right _ h)

open Lowering in
/-- Let a program be compiled, and let a function be called by its plain name inside its own body.
Compilation and the walk for hazards both come to the call. The walk finds a self call there, which stays
in its report, if and only if no kind was recorded for the name when compilation came to the statement
around the call. When the call itself is compiled, behind its arguments, the same kinds are recorded as
in front of the statement, so that the calls that are reported are those that count on a number. There
is one exception: the statement declares a variable of that very name, and no kind was recorded in front
of it. -/
theorem CodeUnit.selfCall_iff_unrecorded {o : CompileOptions} {body : List Node} {u : CodeUnit}
    (hu : CodeUnit.compile o (.program body) = .ok u) {way : List Turn} {pos namePos : Position}
    {name : Name} {args : List Node}
    (hcall : (Part.block body).along way = some (.expression (.call pos (.ident namePos name) args)))
    (hinside : name ∈ (Part.block body).enclosing way) :
    ∃ v pushes st later, (Visit.start o).along o.prelude (.block body) way = some v ∧
      pushAll v.place.ctx v.place.live args v.place.state = .ok (pushes, st) ∧
      expr v.place.ctx v.place.live (.call pos (.ident namePos name) args) v.place.state =
        .ok ((pushes ++ (callOf v.place.ctx st name).1, (callOf v.place.ctx st name).2), st) ∧
      Escape.hazards o.prelude body =
        (v.stage.walk.use o.prelude v.stage.functions ⟨name, namePos⟩).found.reverse ++ later ∧
      (v.FindsSelf o.prelude ⟨name, namePos⟩ →
        .self name namePos ∈ (HazardReport.ofProgram o.prelude body).hazards) ∧
      (v.FindsSelf o.prelude ⟨name, namePos⟩ ↔ v.place.front.symbols.lookup? name = none) ∧
      ((v.FindsSelf o.prelude ⟨name, namePos⟩ ↔ st.symbols.lookup? name = none) ↔
        ¬(v.place.around.declared? = some name ∧ v.place.front.symbols.lookup? name = none)) := by
  obtain ⟨v, hv, hholds, hfound, hfunctions⟩ := (Visit.holds_start hu).along hcall
  obtain ⟨⟨⟨code, cell⟩, st, hexpr⟩, hagrees⟩ := id hholds
  change expr _ _ _ _ = _ at hexpr
  obtain ⟨_, pushes, hname, hpushes, rfl, rfl⟩ := expr_call_form hexpr
  cases hname
  have hself := hholds.findsSelf_iff (hfunctions name (.inl hinside)) namePos
  obtain ⟨later, hlater⟩ := Visit.hazards_of_suffix hfound
  refine ⟨v, pushes, st, later, hv, hpushes, hexpr, hlater, ?_, hself, ?_⟩
  · intro hfinds
    apply HazardReport.mem_hazards_of_escape
    rw [hlater, hfinds]
    simp
  · -- the arguments record nothing, so that the call is compiled with the kinds of its statement
    have hst : st.HasKind name ↔ v.place.around.declared? = some name ∨ v.place.front.HasKind name :=
      (pushAll_extends args hpushes).hasKind_iff.trans (hagrees name).2
    rw [hself, ← Visit.not_hasKind_iff, ← Visit.not_hasKind_iff, hst]
    grind

/-! ## A variable with the name of its function -/

namespace ShadowedCall

def source : Bytes := "func f(): string \x7b let f: string = f(); return f; \x7d"

def declaration : Node :=
  .binary ⟨1, 20⟩ .declare (.ident ⟨1, 24⟩ "f") (.call ⟨1, 37⟩ (.ident ⟨1, 36⟩ "f") [])
    (some (.named ⟨1, 27⟩ "string"))

def body : List Node :=
  [.func ⟨1, 6⟩ "f" [] (some (.named ⟨1, 11⟩ "string"))
    [declaration, .ret ⟨1, 41⟩ (.ident ⟨1, 48⟩ "f")]]

example : Program.ofSource source = (body, []) := rfl

/-- Into the function's body, and to the initializer of its first statement. -/
def way : List Turn := [.first, .body, .first, .value]

/-- The call is reported as a self call, which counts on a number, and is compiled for a string. -/
theorem reported_compiled_for_string :
    (∃ u, CodeUnit.compile {} (.program body) = .ok u) ∧
      (Part.block body).along way = some (.expression (.call ⟨1, 37⟩ (.ident ⟨1, 36⟩ "f") [])) ∧
      Bytes.ofString "f" ∈ (Part.block body).enclosing way ∧
      ∃ v st, (Visit.start {}).along .empty (.block body) way = some v ∧
        (∃ pushes, Lowering.pushAll v.place.ctx v.place.live [] v.place.state = .ok (pushes, st)) ∧
        v.FindsSelf .empty ⟨"f", ⟨1, 36⟩⟩ ∧
        .self "f" ⟨1, 36⟩ ∈ (HazardReport.ofProgram .empty body).hazards ∧
        st.symbols.lookup? "f" = some .string := by
  have hcompile : ∃ u, CodeUnit.compile {} (.program body) = .ok u := ⟨_, rfl⟩
  have hcall : (Part.block body).along way =
      some (.expression (.call ⟨1, 37⟩ (.ident ⟨1, 36⟩ "f") [])) := rfl
  have hinside : Bytes.ofString "f" ∈ (Part.block body).enclosing way := .head _
  refine ⟨hcompile, hcall, hinside, ?_⟩
  obtain ⟨u, hu⟩ := hcompile
  obtain ⟨v, pushes, st, later, hv, hpushes, -, -, hreport, hself, -⟩ :=
    CodeUnit.selfCall_iff_unrecorded hu hcall hinside
  have hkinds : ((Visit.start {}).along .empty (.block body) way).map
      (fun v => (v.place.front.symbols.lookup? "f", v.place.state.symbols.lookup? "f")) =
        some (none, some .string) := rfl
  rw [hv, Option.map_some, Option.some.injEq, Prod.mk.injEq] at hkinds
  obtain ⟨hfront, hstate⟩ := hkinds
  have hfinds := hself.2 hfront
  refine ⟨v, st, hv, ⟨pushes, hpushes⟩, hfinds, hreport hfinds, ?_⟩
  rw [(Lowering.pushAll_extends [] hpushes).symbols]
  exact hstate

end ShadowedCall

end UnitScript
