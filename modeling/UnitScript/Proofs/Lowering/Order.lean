import UnitScript.Proofs.Lowering.Tidiness
import UnitScript.Proofs.Machine.Places
import UnitScript.Proofs.Syntax.Silence

/-!
# The order in which the sides of an operation are read

The left side of an operation is computed before the right one. When both are computed, the left
value waits in a secondary cell, and no code for the right side and no function that it calls
changes that cell. A name on the left is not computed: it is read by the instruction that combines
the two sides, so after the code for the right side. The value combined for the left side is the one
it has before the right side exactly if it is not a name whose cell the right side changes.
-/

namespace UnitScript

open Instruction Machine

/-! ## Units that were compiled -/

/-- A unit compiled from a source with the scratch names `s`, as are the units it may import, that
keeps within the limits of the binary form. -/
inductive CodeUnit.Compiled (s : Scratch) : CodeUnit → Prop where
  | intro {source : Bytes} {body : List Node} {o : CompileOptions} {u : CodeUnit} :
      Program.ofSource source = (body, []) → o.scratch = s →
      CodeUnit.compile o (.program body) = .ok u → Node.AllFewParams body →
      Throughout Roomy u.code →
      (∀ includer name v, o.includer = some includer → includer name = .ok v → Compiled s v) →
      Compiled s u

theorem CodeUnit.Compiled.lowered {s : Scratch} {u : CodeUnit} (h : u.Compiled s) :
    s.withDefaults.Separate ∧ Lowering.Lowered s.withDefaults u.code := by
  induction h with
  | @intro source body o u hsource hs hcompile hfew hroom _ ih =>
    subst hs
    obtain ⟨ctx, hctx, hinc, -, hvalid, st, hstmts, -, -⟩ := CodeUnit.compile_eq_ok hcompile
    have hready : ctx.Ready (Node.importsOfAll body) := by
      refine ⟨?_, fun includer hincluder name _ v hv => ?_⟩
      · rw [hctx, Scratch.withDefaults_withDefaults]
      · rw [hctx]
        exact (ih includer name v (hinc.symm.trans hincluder) hv).2
    have hdot : ∀ n ∈ body, n.Dotless := by
      have h := Program.dotless_ofSource source
      rwa [hsource] at h
    refine ⟨Scratch.separate_of_validate hvalid, ?_⟩
    rw [← hctx]
    exact (Lowering.lowers_of_stmts body hstmts).lowered hready hdot hfew hroom

/-- A run of a unit, with its scratch cells declared, on a new machine comes to a place. -/
def CodeUnit.RunVisits (u : CodeUnit) (s : Scratch) (limits : Limits) (console : Option Console)
    (all rest : List Instruction) (m : Machine) : Prop :=
  ∃ start, registerAll (walkAll (u.declareScratch s).code)
      (ofUnit (u.declareScratch s) console).restart = (.ok (), start) ∧
    Visits limits (u.declareScratch s).code start all rest m

theorem CodeUnit.code_declareScratch (u : CodeUnit) (s : Scratch) :
    (u.declareScratch s).code = s.withDefaults.declarations ++ u.code := by
  have hdecl : s.withDefaults.declarations = s.declarations := by
    unfold Scratch.declarations
    rw [Scratch.withDefaults_withDefaults]
  rw [hdecl]
  rfl

theorem Lowering.Lowered.closed {s : Scratch} {u : CodeUnit} (h : Lowered s.withDefaults u.code) :
    Closed s.withDefaults.Own (u.declareScratch s).code := by
  have hlowered := (lowered_declarations s.withDefaults).append h
  rw [u.code_declareScratch s]
  exact ⟨hlowered.noJump, tidy_declarations (Scratch.withDefaults_withDefaults s) h.tidy⟩

theorem CodeUnit.Compiled.sound {s : Scratch} {u : CodeUnit} {limits : Limits}
    {console : Option Console} {all rest : List Instruction} {m : Machine} (h : u.Compiled s)
    (hm : u.RunVisits s limits console all rest m) : Sound s.withDefaults.Own all rest m := by
  obtain ⟨start, hstart, hvisits⟩ := hm
  have hclosed := h.lowered.2.closed
  exact hvisits.sound (sound_start (fun name f hf => by cases hf) hclosed hstart)

namespace Lowering

/-! ## The value that waits -/

variable {ctx : Context} {live : Live} {limits : Limits} {all rest : List Instruction}
  {m m₁ m' : Machine} {i : Instruction} {x : Name}

theorem effect?_of_completes (h : Completes limits i m m') (hop : i.op.isLocal = true) :
    m.tick.effect? i = some m' := by
  obtain ⟨-, fuel, m₁, hc, hstep⟩ := h
  obtain rfl := countStep_eq_ok hc
  exact step_local_eq_ok hop hstep

theorem lookup?_of_cellDeclaration {role : Role} {n : Nat}
    (h : Passes limits (ctx.cellDeclaration role n) m m') (hx : ctx.cellName role n ≠ x) :
    m'.lookup? x = m.lookup? x := by
  cases n with
  | zero =>
    obtain rfl := h
    rfl
  | succ n =>
    obtain ⟨m₁, hi, rfl⟩ := h
    have he := effect?_of_completes hi rfl
    cases he
    exact lookup?_insert_of_ne hx

theorem frame_get?_of_mov {own : Name → Prop} {src : Operand}
    (hs : Sound own all (.mov src (.cell x) :: rest) m) (hx : own x)
    (h : Completes limits (.mov src (.cell x)) m m') :
    ∃ v, m.value? src = some v ∧ m'.frame.get? x = some v := by
  have hdeclared : m.declared x := hs.stores_declared rfl x rfl hx
  obtain ⟨v, hv, hassign⟩ := Option.bind_eq_some_iff.1 (effect?_of_completes h rfl)
  have hv' : m.value? src = some v := by
    rw [← hv]
    cases src <;> rfl
  refine ⟨v, hv', ?_⟩
  rcases assign?_eq_some hassign with ⟨-, rfl⟩ | ⟨hnot, -⟩
  · rw [frame_setFrame, NameMap.get?_insert, if_pos rfl]
  · exact absurd hdeclared hnot

theorem Computing.spares {c : Code} (h : Computing ctx live c) (hx : ¬ctx.Writes live x) :
    ∀ i ∈ c, Spares x i := by
  intro i hi
  rcases h.plain i hi with hop | hop
  · exact .inr ⟨hop, fun hd => hx (h.writes i hi x (.inl hd)),
      fun hst => hx (h.writes i hi x (.inr hst))⟩
  · exact .inl hop

theorem Computing.isStep {c : Code} (h : Computing ctx live c) : ∀ i ∈ c, i.op.isStep = true :=
  fun i hi => isStep_of_plain (h.plain i hi)

/-- A left value that was put into the secondary cell is still there after the code for the right
side, whatever functions this calls. -/
theorem value?_held {right : Node} {st st' : State} {rc : Code} {place : Operand}
    (hsep : ctx.scratch.Separate)
    (hright : expr ctx live.withSecondary right st = .ok ((rc, place), st'))
    (hs : Sound ctx.scratch.Own all (ctx.cellDeclaration .secondary live.secondary ++
      [.mov ctx.primary (.cell (ctx.cellName .secondary live.secondary))] ++ rc ++ rest) m)
    (h : Passes limits (ctx.cellDeclaration .secondary live.secondary ++
      [.mov ctx.primary (.cell (ctx.cellName .secondary live.secondary))] ++ rc) m m') :
    m'.value? (.cell (ctx.cellName .secondary live.secondary)) = m.value? ctx.primary := by
  have hown := ctx.own_cellName .secondary live.secondary
  have hne : ctx.cellName .secondary live.secondary ≠ ctx.scratch.primary := by
    intro heq
    have hrole := (Context.cellName_injective hsep (heq.trans (ctx.cellName_zero .primary).symm)).1
    cases hrole
  rw [List.append_assoc, passes_append] at h
  obtain ⟨m₁, hdeclared, m₂, hmov, hrc⟩ := h
  rw [List.append_assoc, List.append_assoc] at hs
  have hs₁ := hdeclared.sound hs
  have hs₂ := hmov.sound hs₁
  have hspared := (expr_computing right hright).2.spares
    (Context.not_writes_secondary hsep (Nat.lt_succ_self live.secondary))
  obtain ⟨v, hv, hput⟩ := frame_get?_of_mov hs₁ hown hmov
  have hwaits : m'.frame.get? (ctx.cellName .secondary live.secondary) = some v :=
    (hrc.frame_get? hs₂ hspared hown).trans hput
  calc m'.value? (.cell (ctx.cellName .secondary live.secondary))
    _ = some v := lookup?_of_frame hwaits
    _ = m₁.value? ctx.primary := hv.symm
    _ = m.value? ctx.primary := lookup?_of_cellDeclaration hdeclared hne

/-! ## The two sides of an operation -/

/-- How the value of a side is got at: a number or a name stands for itself, and all else is
computed into the primary cell. -/
inductive Side (ctx : Context) (n : Node) : Code → Operand → Prop where
  | itself {o : Operand} : n.operand? = some o → Side ctx n [] o
  | computed {live : Live} {st st' : State} {c : Code} : n.operand? = none →
      expr ctx live n st = .ok ((c, ctx.primary), st') → Side ctx n c ctx.primary

theorem ne_ident {n : Node} (h : n.operand? = none) (p : Position) (x : Name) : n ≠ .ident p x := by
  rintro rfl
  cases h

theorem value?_of_ident {n : Node} {o : Operand} (h : n.operand? = some o) (m : Machine)
    (p : Position) (x : Name) (hn : n = .ident p x) : m.value? o = m.value? (.cell x) := by
  subst hn
  cases h
  rfl

theorem value?_itself {n : Node} {o : Operand} (h : n.operand? = some o) (m₁ m₂ : Machine) :
    m₂.value? o = m₁.value? o ↔
      ∀ p x, n = .ident p x → m₂.value? (.cell x) = m₁.value? (.cell x) := by
  cases n with
  | number p v =>
    cases h
    exact iff_of_true rfl nofun
  | ident p x =>
    cases h
    constructor
    · rintro hv q y ⟨⟩
      exact hv
    · exact fun hv => hv p x rfl
  | _ => cases h

/-- The value that an operation combines is that of its two operands at the instruction itself. -/
theorem combines_values {op : Operator} (hop : (op.isArithmetic || op.isComparison) = true)
    {a b : Operand} (h : Completes limits (combine op a b ctx.primary) m m') :
    ∃ x y v, m.value? a = some x ∧ m.value? b = some y ∧ Meaning.operation op x y = some v ∧
      m'.value? ctx.primary = some v := by
  have he := effect?_of_completes h (Meaning.isLocal_combine op a b ctx.primary)
  rw [Meaning.effect?_combine hop] at he
  obtain ⟨x, hx, he⟩ := Option.bind_eq_some_iff.1 he
  obtain ⟨y, hy, he⟩ := Option.bind_eq_some_iff.1 he
  obtain ⟨v, hv, he⟩ := Option.bind_eq_some_iff.1 he
  have htick : ∀ o, m.tick.value? o = m.value? o := by
    intro o
    cases o <;> rfl
  rw [htick] at hx hy
  exact ⟨x, y, v, hx, hy, hv, lookup?_of_assign? he⟩

/-- The parts of the code of an operation, and when its left operand has the value that the left
side had before the right one. -/
theorem sides_of_binary {op : Operator} {left right : Node} {st st' : State} {c : Code}
    (hform : BinaryCode ctx live op left right st st' c) (hsep : ctx.scratch.Separate)
    (hs : Sound ctx.scratch.Own all (c ++ rest) m) (limits : Limits) :
    ∃ leftCode aside rightCode a₀ a b,
      c = leftCode ++ aside ++ rightCode ++ [combine op a b ctx.primary] ∧
      Side ctx left leftCode a₀ ∧ Side ctx right rightCode b ∧
      ∀ m₁ m₂, Passes limits leftCode m m₁ → Passes limits (aside ++ rightCode) m₁ m₂ →
        (∀ p x, left = .ident p x → m₂.value? a = m₂.value? (.cell x)) ∧
        (m₂.value? a = m₁.value? a₀ ↔
          ∀ p x, left = .ident p x → m₂.value? (.cell x) = m₁.value? (.cell x)) := by
  cases hform with
  | @direct a b hl hr _ =>
    refine ⟨[], [], [], a, a, b, rfl, .itself hl, .itself hr, fun m₁ m₂ _ _ => ?_⟩
    exact ⟨value?_of_ident hl m₂, value?_itself hl m₁ m₂⟩
  | @onRight a rc hl hr hrc =>
    refine ⟨[], [], rc, a, a, ctx.primary, rfl, .itself hl, .computed hr hrc, fun m₁ m₂ _ _ => ?_⟩
    exact ⟨value?_of_ident hl m₂, value?_itself hl m₁ m₂⟩
  | @onLeft b lc hl hr hlc =>
    refine ⟨lc, [], [], ctx.primary, ctx.primary, b, by simp, .computed hl hlc, .itself hr,
      fun m₁ m₂ _ h₂ => ?_⟩
    obtain rfl := h₂
    exact ⟨fun p x h => absurd h (ne_ident hl p x), iff_of_true rfl fun _ _ _ => rfl⟩
  | @onBoth lc rc mid hl hr hlc hrc =>
    refine ⟨lc, ctx.cellDeclaration .secondary live.secondary ++
      [.mov ctx.primary (.cell (ctx.cellName .secondary live.secondary))], rc, ctx.primary,
      .cell (ctx.cellName .secondary live.secondary), ctx.primary, by simp, .computed hl hlc,
      .computed hr hrc, fun m₁ m₂ h₁ h₂ => ?_⟩
    have hs₁ := h₁.sound (c := lc) (by simpa only [List.append_assoc] using hs)
    have hheld := value?_held hsep hrc (by simpa only [List.append_assoc] using hs₁) h₂
    exact ⟨fun p x h => absurd h (ne_ident hl p x),
      iff_of_true hheld fun p x h => absurd h (ne_ident hl p x)⟩

end Lowering

open Lowering

/-- Left and right side of an operation that a run of a compiled unit comes to. The code of the
operation is that of the left side, a part that puts the left value aside, that of the right side,
and the instruction that combines the two. A name on the left is read after the right side. So the
value combined for the left side is the one that it has before the right side is computed, exactly
if it is not a name whose cell has changed since. -/
theorem CodeUnit.left_read_before_right {s : Scratch} {u : CodeUnit} {limits : Limits}
    {console : Option Console} {all rest : List Instruction} {m : Machine} {ctx : Context}
    {live : Live} {pos : Position} {op : Operator} {left right : Node} {type : Option TypeExpr}
    {st st' : State} {c : Code} {place : Operand} (hu : u.Compiled s)
    (hctx : ctx.scratch = s.withDefaults)
    (hc : expr ctx live (.binary pos op left right type) st = .ok ((c, place), st'))
    (hm : u.RunVisits s limits console all (c ++ rest) m) :
    ∃ leftCode aside rightCode a₀ a b,
      c = leftCode ++ aside ++ rightCode ++ [combine op a b ctx.primary] ∧
      Side ctx left leftCode a₀ ∧ Side ctx right rightCode b ∧
      (∀ m₁ m₂, Passes limits leftCode m m₁ → Passes limits (aside ++ rightCode) m₁ m₂ →
        (∀ p x, left = .ident p x → m₂.value? a = m₂.value? (.cell x)) ∧
        (m₂.value? a = m₁.value? a₀ ↔
          ∀ p x, left = .ident p x → m₂.value? (.cell x) = m₁.value? (.cell x)) ∧
        ∀ m₃, Completes limits (combine op a b ctx.primary) m₂ m₃ →
          ∃ v w r, m₂.value? a = some v ∧ m₂.value? b = some w ∧ Meaning.operation op v w = some r ∧
            m₃.value? ctx.primary = some r) ∧
      ∀ fuel r m', exec limits fuel all (c ++ rest) m = (.ok r, m') → ∃ m₁ m₂ m₃ fuel',
        Passes limits leftCode m m₁ ∧ Passes limits (aside ++ rightCode) m₁ m₂ ∧
        Completes limits (combine op a b ctx.primary) m₂ m₃ ∧
        exec limits fuel' all rest m₃ = (.ok r, m') := by
  obtain ⟨hop, -, hform⟩ := expr_binary_eq_ok hc
  have hsep : ctx.scratch.Separate := by
    rw [hctx]
    exact hu.lowered.1
  have hs : Sound ctx.scratch.Own all (c ++ rest) m := by
    rw [hctx]
    exact hu.sound hm
  obtain ⟨leftCode, aside, rightCode, a₀, a, b, rfl, hleft, hright, hvalue⟩ :=
    sides_of_binary hform hsep hs limits
  refine ⟨leftCode, aside, rightCode, a₀, a, b, rfl, hleft, hright, fun m₁ m₂ h₁ h₂ => ?_, ?_⟩
  · obtain ⟨hname, hiff⟩ := hvalue m₁ m₂ h₁ h₂
    exact ⟨hname, hiff, fun _ => combines_values hop⟩
  · intro fuel r m' he
    obtain ⟨m₃, fuel', hp, he⟩ := passes_of_exec (expr_computing _ hc).2.isStep he
    rw [List.append_assoc leftCode, passes_append] at hp
    obtain ⟨m₂, hp, _, hlast, rfl⟩ := hp
    obtain ⟨m₁, h₁, h₂⟩ := passes_append.1 hp
    exact ⟨m₁, m₂, m₃, fuel', h₁, h₂, hlast, he⟩

/-! ## A name that is read late -/

/-- Carries out instructions one after the other, each call within a bound. -/
def Machine.carryOut (limits : Limits) (fuel : Nat) : List Instruction → Machine → Option Machine
  | [], m => some m
  | i :: c, m =>
    if i.op.isStep then
      match countStep limits m with
      | (.ok (), m₁) =>
        match step (invoke limits fun body => exec limits fuel body body) i m₁ with
        | (.ok (), m₂) => carryOut limits fuel c m₂
        | _ => none
      | _ => none
    else none

theorem Machine.passes_of_carryOut {limits : Limits} {fuel : Nat} {c : List Instruction}
    {m m' : Machine} (h : carryOut limits fuel c m = some m') : Passes limits c m m' := by
  induction c generalizing m with
  | nil => exact (Option.some.inj h).symm
  | cons i c ih =>
    unfold carryOut at h
    split at h
    · next hop =>
      split at h
      · next m₁ hcount =>
        split at h
        · next m₂ hstep => exact ⟨m₂, ⟨hop, fuel, m₁, hcount, hstep⟩, ih h⟩
        · cases h
      · cases h
    · cases h

def lateReadSource : Bytes :=
  "let g = 1; func f(): number \x7b g = 5; return 10; \x7d return g + f();"

def lateReadSum : Node :=
  .binary ⟨1, 60⟩ .add (.ident ⟨1, 58⟩ "g") (.call ⟨1, 63⟩ (.ident ⟨1, 62⟩ "f") []) none

def lateRead : List Node :=
  [.binary ⟨1, 1⟩ .declare (.ident ⟨1, 5⟩ "g") (.number ⟨1, 9⟩ 1) none,
    .func ⟨1, 17⟩ "f" [] (some (.named ⟨1, 22⟩ "number"))
      [.binary ⟨1, 33⟩ .assign (.ident ⟨1, 31⟩ "g") (.number ⟨1, 35⟩ 5) none,
        .ret ⟨1, 38⟩ (.number ⟨1, 45⟩ 10)],
    .ret ⟨1, 51⟩ lateReadSum]

def lateReadBody : List Instruction :=
  ({} : Scratch).declarations ++ [.mov (.imm 5) (.cell "g"), .ret [.imm 10]]

/-- The code in front of the sum, and the code of the sum. -/
def lateReadSetup : List Instruction :=
  [.var .i64 "g", .mov (.imm 1) (.cell "g"),
    .function ⟨"f", [], .i64, (Encoding.code lateReadBody).toOption.getD []⟩]

def lateReadSumCode : List Instruction :=
  [.call (.func "f"), .pop (.cell "temp"), .arith .add (.cell "g") (.cell "temp") (.cell "temp")]

def lateReadUnit : CodeUnit where
  name := CodeUnit.defaultName
  exports := NameMap.empty.insert "f" .number
  code := lateReadSetup ++ lateReadSumCode ++ [.ret [.cell "temp"]]

set_option maxRecDepth 20000 in
theorem lateReadUnit_compiled : lateReadUnit.Compiled {} := by
  have hsource : Program.ofSource lateReadSource = (lateRead, []) := rfl
  have hcompile : CodeUnit.compile {} (.program lateRead) = .ok lateReadUnit := rfl
  have hfew : Node.AllFewParams lateRead :=
    ⟨trivial, ⟨by decide, trivial, trivial, trivial⟩, trivial, trivial⟩
  exact .intro hsource rfl hcompile hfew (by decide) nofun

def lateReadStart : Machine :=
  (registerAll (walkAll (lateReadUnit.declareScratch {}).code)
    (ofUnit (lateReadUnit.declareScratch {}) none).restart).2

set_option maxRecDepth 20000 in
/-- The sum is come to with 1 in the cell `g`, and after the call there is 5 in it. -/
theorem lateRead_passes : ∃ m m₂,
    lateReadUnit.RunVisits {} {} none (lateReadUnit.declareScratch {}).code
      (lateReadSumCode ++ [.ret [.cell "temp"]]) m ∧
    Passes {} [.call (.func "f"), .pop (.cell "temp")] m m₂ ∧
    m.value? (.cell "g") = some (.int 1) ∧ m₂.value? (.cell "g") = some (.int 5) := by
  have hrun : ((carryOut {} 10 (({} : Scratch).declarations ++ lateReadSetup) lateReadStart).bind
      fun m => (carryOut {} 10 [.call (.func "f"), .pop (.cell "temp")] m).map
        fun m₂ => (m, m₂)).map (fun p => (p.1.value? (.cell "g"), p.2.value? (.cell "g"))) =
        some (some (.int 1), some (.int 5)) := rfl
  obtain ⟨⟨m, m₂⟩, hp, hvalues⟩ := Option.map_eq_some_iff.1 hrun
  obtain ⟨_, hm, hp⟩ := Option.bind_eq_some_iff.1 hp
  obtain ⟨_, hm₂, hpair⟩ := Option.map_eq_some_iff.1 hp
  cases hpair
  obtain ⟨hv, hv₂⟩ := Prod.mk.inj hvalues
  have hstart : registerAll (walkAll (lateReadUnit.declareScratch {}).code)
      (ofUnit (lateReadUnit.declareScratch {}) none).restart = (.ok (), lateReadStart) :=
    Prod.ext rfl rfl
  have hvisits : Visits {} (lateReadUnit.declareScratch {}).code lateReadStart
      (lateReadUnit.declareScratch {}).code
      (({} : Scratch).declarations ++ lateReadSetup ++
        (lateReadSumCode ++ [.ret [.cell "temp"]])) lateReadStart := .start
  exact ⟨m, m₂, ⟨lateReadStart, hstart, hvisits.passes (passes_of_carryOut hm)⟩,
    passes_of_carryOut hm₂, hv, hv₂⟩

/-- The left operand of the sum is 1 before the right side, and the value 5 is combined. -/
theorem lateRead_combines_new_value : ∃ m m₂ aside rightCode a b,
    lateReadSumCode = aside ++ rightCode ++ [combine .add a b (.cell "temp")] ∧
    lateReadUnit.RunVisits {} {} none (lateReadUnit.declareScratch {}).code
      (lateReadSumCode ++ [.ret [.cell "temp"]]) m ∧
    Passes {} (aside ++ rightCode) m m₂ ∧
    m.value? (.cell "g") = some (.int 1) ∧ m₂.value? a = some (.int 5) := by
  obtain ⟨m, m₂, hm, hp, hv, hv₂⟩ := lateRead_passes
  let ctx : Context := ⟨CodeUnit.defaultName, ({} : Scratch).withDefaults, none, 0⟩
  let st : State := ⟨.ofPrelude .empty, 0, [], .empty⟩
  have hsum : expr ctx .none lateReadSum st = .ok ((lateReadSumCode, ctx.primary), st) := rfl
  obtain ⟨leftCode, aside, rightCode, a₀, a, b, hcode, hleft, -, hvalue, -⟩ :=
    CodeUnit.left_read_before_right lateReadUnit_compiled rfl hsum hm
  cases hleft with
  | computed hnone => cases hnone
  | itself ha₀ =>
    have hparts : [.call (.func "f"), .pop (.cell "temp")] ++
        [.arith .add (.cell "g") (.cell "temp") (.cell "temp")] =
          aside ++ rightCode ++ [combine .add a b ctx.primary] := hcode
    rw [(List.append_inj' hparts rfl).1] at hp
    have ha := (hvalue m m₂ rfl hp).1 _ _ rfl
    exact ⟨m, m₂, aside, rightCode, a, b, hcode, hm, hp, hv, ha.trans hv₂⟩

end UnitScript
