import UnitScript.Proofs.Lowering.CallConvention
import UnitScript.Proofs.Lowering.CellNames
import UnitScript.Proofs.Lowering.ReadBack

/-!
# Other names for the scratch cells

A program that has nothing to do with the scratch cells is compiled under two choices of their names
in step: from the same state both compilations fail with the same error, or both succeed and go on
from one state, and the codes correspond. So the choice of the names is a renaming of the cells.
-/

namespace UnitScript

namespace Lowering

open Instruction Operand

variable {α β γ δ : Type} {R : α → β → Prop} {S : γ → δ → Prop} {act : Lower α} {act' : Lower β}
  {f : α → Lower γ} {g : β → Lower δ} {live : Live} {n : Node} {pos : Position}

/-! ## Compilations in step -/

/-- Two outcomes with the same error, or with related results and the same state. -/
inductive InStep (R : α → β → Prop) :
    Except CompileError (α × State) → Except CompileError (β × State) → Prop where
  | ok {a b} (st : State) : R a b → InStep R (.ok (a, st)) (.ok (b, st))
  | error (e : CompileError) : InStep R (.error e) (.error e)

/-- From every state the two actions come to outcomes that are in step. -/
def Matches (R : α → β → Prop) (act : Lower α) (act' : Lower β) : Prop :=
  ∀ st, InStep R (act st) (act' st)

theorem matches_pure {a : α} {b : β} (h : R a b) : Matches R (pure a) (pure b) :=
  fun st => .ok st h

theorem matches_throw (e : CompileError) : Matches R (throw e) (throw e) := fun _ => .error e

theorem Matches.refl (act : Lower α) : Matches (fun a b => b = a) act act := by
  intro st
  cases act st with
  | ok p => exact .ok p.2 rfl
  | error e => exact .error e

theorem Matches.mono {S : α → β → Prop} (h : Matches R act act') (hRS : ∀ a b, R a b → S a b) :
    Matches S act act' := by
  intro st
  have hst := h st
  generalize act st = x, act' st = y at hst ⊢
  cases hst with
  | ok st' hab => exact .ok st' (hRS _ _ hab)
  | error e => exact .error e

theorem Matches.bind (h : Matches R act act') (hfg : ∀ a b, R a b → Matches S (f a) (g b)) :
    Matches S (act >>= f) (act' >>= g) := by
  intro st
  have hst := h st
  change InStep S (act st >>= fun p => f p.1 p.2) (act' st >>= fun p => g p.1 p.2)
  generalize act st = x, act' st = y at hst ⊢
  cases hst with
  | ok st' hab => exact hfg _ _ hab st'
  | error e => exact .error e

theorem Matches.after {f g : α → Lower γ} {S : γ → γ → Prop} (act : Lower α)
    (h : ∀ a, Matches S (f a) (g a)) : Matches S (act >>= f) (act >>= g) := by
  apply (Matches.refl act).bind
  rintro _ a rfl
  exact h a

theorem Matches.map (h : Matches R act act') {k : α → γ} {l : β → δ}
    (hkl : ∀ a b, R a b → S (k a) (l b)) : Matches S (k <$> act) (l <$> act') := by
  intro st
  have hst := h st
  change InStep S (act st >>= fun p => pure (k p.1, p.2)) (act' st >>= fun p => pure (l p.1, p.2))
  generalize act st = x, act' st = y at hst ⊢
  cases hst with
  | ok st' hab => exact .ok st' (hkl _ _ hab)
  | error e => exact .error e

theorem Matches.guard {p p' : Prop} [Decidable p] [Decidable p'] (hp : p ↔ p') (e : CompileError)
    (h : Matches R act act') :
    Matches R (if p then do throw e; act else act) (if p' then do throw e; act' else act') := by
  by_cases hpos : p
  · rw [if_pos hpos, if_pos (hp.1 hpos)]
    exact fun _ => .error e
  · rw [if_neg hpos, if_neg fun h => hpos (hp.2 h)]
    exact h

/-- What is known of successes of the actions is known of their results. -/
theorem Matches.and {P : α → Prop} {Q : β → Prop} (h : Matches R act act')
    (hP : ∀ st a st', act st = .ok (a, st') → P a)
    (hQ : ∀ st b st', act' st = .ok (b, st') → Q b) :
    Matches (fun a b => R a b ∧ P a ∧ Q b) act act' := by
  intro st
  have hst := h st
  have hP := hP st
  have hQ := hQ st
  generalize act st = x, act' st = y at hst hP hQ ⊢
  cases hst with
  | ok st' hab => exact .ok st' ⟨hab, hP _ _ rfl, hQ _ _ rfl⟩
  | error e => exact .error e

theorem Matches.inBlock (h : Matches R act act') : Matches R (inBlock act) (inBlock act') := by
  unfold Lowering.inBlock
  apply (Matches.refl _).bind
  rintro _ _ -
  apply h.bind
  intro a b hab
  apply (Matches.refl _).bind
  rintro _ _ -
  exact matches_pure hab

theorem Matches.withOwnData (h : Matches R act act') :
    Matches (fun p q => R p.1 q.1 ∧ q.2 = p.2) (withOwnData act) (withOwnData act') := by
  unfold Lowering.withOwnData
  apply (Matches.refl _).bind
  rintro outer _ rfl
  apply (Matches.refl _).bind
  rintro _ _ -
  apply h.bind
  intro a b hab
  apply (Matches.refl _).bind
  rintro inner _ rfl
  apply (Matches.refl _).bind
  rintro _ _ -
  exact matches_pure ⟨hab, rfl⟩

/-! ## Two choices of names -/

def Context.naming (ctx : Context) (s : Scratch) : Context := { ctx with scratch := s }

/-- Two choices of scratch names that are complete and whose slots can be written. -/
structure Choices (s t : Scratch) : Prop where
  left : s.Separate
  right : t.Separate
  leftWhole : s.withDefaults = s
  rightWhole : t.withDefaults = t
  slots : ∀ r, s.Fit t r 0

def Free (s t : Scratch) (x : Name) : Prop := ¬s.Temporary x ∧ ¬t.Temporary x

def SamePlace (s t : Scratch) (o o' : Operand) : Prop :=
  o = .cell (s.name .primary) ∧ o' = .cell (t.name .primary) ∨
    o = .cell (s.name .struct) ∧ o' = .cell (t.name .struct)

structure Computed (s t : Scratch) (p p' : Code × Operand) : Prop where
  code : Corresponds (StandsFor s t) p.1 p'.1
  place : SamePlace s t p.2 p'.2

structure Reached (s t : Scratch) (p p' : Code × Operand) : Prop where
  code : Corresponds (StandsFor s t) p.1 p'.1
  source : StandsFor s t p.2 p'.2

variable {s t : Scratch} {ctx : Context} {o o' a a' b b' : Operand} {x : Name}

theorem Choices.standsFor_slot (h : Choices s t) (r : Role) :
    StandsFor s t (.cell (s.name r)) (.cell (t.name r)) := .scratch (h.slots r)

theorem SamePlace.standsFor (hst : Choices s t) (h : SamePlace s t o o') : StandsFor s t o o' := by
  rcases h with ⟨rfl, rfl⟩ | ⟨rfl, rfl⟩
  · exact hst.standsFor_slot .primary
  · exact hst.standsFor_slot .struct

theorem Computed.reached (hst : Choices s t) {p p' : Code × Operand} (h : Computed s t p p') :
    Reached s t p p' :=
  ⟨h.code, h.place.standsFor hst⟩

theorem standsFor_cell (h : ¬s.Temporary x) : StandsFor s t (.cell x) (.cell x) := by
  apply StandsFor.other
  rintro _ ⟨⟩
  exact h

theorem Free.standsFor (h : Free s t x) : StandsFor s t (.cell x) (.cell x) := standsFor_cell h.1

theorem standsFor_imm (v : Int64) : StandsFor s t (.imm v) (.imm v) := by
  apply StandsFor.other
  rintro _ ⟨⟩

theorem standsFor_data (name : Name) : StandsFor s t (.data name) (.data name) := by
  apply StandsFor.other
  rintro _ ⟨⟩

/-- No name of the program is reserved, under either choice. -/
theorem Free.reserved_iff (h : Free s t x) (hst : Choices s t) :
    s.isReserved x = true ↔ t.isReserved x = true := by
  rw [Scratch.not_reserved_of_not_temporary h.1 hst.leftWhole,
    Scratch.not_reserved_of_not_temporary h.2 hst.rightWhole]

theorem samePlace_place (s t : Scratch) (ctx : Context) (k : Kind) :
    SamePlace s t ((ctx.naming s).place k) ((ctx.naming t).place k) := by
  unfold Context.place
  split
  · exact .inr ⟨rfl, rfl⟩
  · exact .inl ⟨rfl, rfl⟩

theorem matches_placeOf (s t : Scratch) (ctx : Context) (name : Name) :
    Matches (SamePlace s t) (placeOf (ctx.naming s) name) (placeOf (ctx.naming t) name) := by
  apply Matches.after (kindOf? name)
  intro k
  cases k with
  | none => exact matches_pure (.inl ⟨rfl, rfl⟩)
  | some k => exact matches_pure (samePlace_place s t ctx k)

/-! ## Single instructions -/

theorem corresponds_mov (ha : StandsFor s t a a') (hb : StandsFor s t b b') :
    Corresponds (StandsFor s t) [.mov a b] [.mov a' b'] :=
  corresponds_single (i := .mov a b) rfl (.cons ha (.cons hb .nil))

theorem corresponds_push (ha : StandsFor s t a a') :
    Corresponds (StandsFor s t) [.push a] [.push a'] :=
  corresponds_single (i := .push a) rfl (.cons ha .nil)

theorem corresponds_var (storage : Storage) {x y : Name}
    (h : StandsFor s t (.cell x) (.cell y)) :
    Corresponds (StandsFor s t) [.var storage x] [.var storage y] :=
  corresponds_single (i := .var storage x) rfl (.cons h .nil)

theorem corresponds_combine (op : Operator) (ha : StandsFor s t a a') (hb : StandsFor s t b b')
    (ho : StandsFor s t o o') :
    Corresponds (StandsFor s t) [combine op a b o] [combine op a' b' o'] := by
  have hargs : List.Forall₂ (StandsFor s t) [a, b, o] [a', b', o'] :=
    .cons ha (.cons hb (.cons ho .nil))
  cases op <;> exact corresponds_single rfl hargs

theorem corresponds_cellDeclaration {r : Role} {n : Nat} (h : s.Fit t r n) (ctx : Context) :
    Corresponds (StandsFor s t) ((ctx.naming s).cellDeclaration r n)
      ((ctx.naming t).cellDeclaration r n) := by
  unfold Context.cellDeclaration
  split
  · exact .nil
  · exact corresponds_var r.storage (.scratch h)

theorem computed_popResult (hst : Choices s t) (ctx : Context) (k : Kind) :
    Computed s t (popResult (ctx.naming s) k) (popResult (ctx.naming t) k) := by
  have hpop : ∀ {o o' : Operand}, SamePlace s t o o' → Computed s t ([.pop o], o) ([.pop o'], o') :=
    fun h => ⟨corresponds_single rfl (.cons (h.standsFor hst) .nil), h⟩
  unfold popResult
  cases k.tag with
  | string | struct => exact hpop (.inr ⟨rfl, rfl⟩)
  | null | callback => exact ⟨corresponds_single rfl .nil, .inl ⟨rfl, rfl⟩⟩
  | undefined | number | other => exact hpop (.inl ⟨rfl, rfl⟩)

theorem corresponds_condScope {yes yes' no no' : Code} (ho : StandsFor s t o o')
    (hyes : Corresponds (StandsFor s t) yes yes') (hno : Corresponds (StandsFor s t) no no') :
    Corresponds (StandsFor s t) [condScope o yes no] [condScope o' yes' no'] := by
  have hzero : StandsFor s t (.imm 0) (.imm 0) := standsFor_imm _
  refine .scope (.plain (i := .jeq o (.imm 0) 3) rfl (.cons ho (.cons hzero .nil)) ?_) .nil
  exact .scope hyes (.plain (i := .jmp 4) rfl .nil (.scope hno .nil))

theorem corresponds_loopScope {c c' body body' : Code} (ho : StandsFor s t o o')
    (hc : Corresponds (StandsFor s t) c c') (hbody : Corresponds (StandsFor s t) body body') :
    Corresponds (StandsFor s t) [loopScope c o body] [loopScope c' o' body'] := by
  have hzero : StandsFor s t (.imm 0) (.imm 0) := standsFor_imm _
  refine .scope (.scope hc ?_) .nil
  refine .plain (i := .jeq o (.imm 0) 4) rfl (.cons ho (.cons hzero .nil)) ?_
  exact .scope hbody (.plain (i := .jmp 0) rfl .nil .nil)

/-! ## Expressions -/

theorem Free.operand (hn : ∀ x ∈ n.names, Free s t x) (h : n.operand? = some o) :
    StandsFor s t o o := by
  cases n with
  | number =>
    cases h
    exact standsFor_imm _
  | ident =>
    cases h
    exact (hn _ List.mem_cons_self).standsFor
  | _ => cases h

theorem matches_simpleOperand? (n : Node) :
    Matches (fun a b => b = a ∧ a = n.operand?) (simpleOperand? n) (simpleOperand? n) := by
  cases n with
  | string | array | missing => exact matches_throw _
  | _ => exact matches_pure ⟨rfl, rfl⟩

theorem matches_direct? (ctx : Context) (hn : ∀ x ∈ n.names, Free s t x) :
    Matches (fun a b => b = a ∧ ∀ o, a = some o → StandsFor s t o o) (direct? (ctx.naming s) n)
      (direct? (ctx.naming t) n) := by
  cases n with
  | number =>
    refine matches_pure ⟨rfl, ?_⟩
    rintro _ ⟨⟩
    exact standsFor_imm _
  | ident =>
    refine matches_pure ⟨rfl, ?_⟩
    rintro _ ⟨⟩
    exact (hn _ List.mem_cons_self).standsFor
  | string pos value =>
    refine Matches.after (addString (ctx.naming s) value) fun name => matches_pure ⟨rfl, ?_⟩
    rintro _ ⟨⟩
    exact standsFor_data _
  | _ => exact matches_pure ⟨rfl, by rintro _ ⟨⟩⟩

theorem matches_requireScalar (hst : Choices s t) (ctx : Context) (n : Node) {p p' : Code × Operand}
    (h : Computed s t p p') :
    Matches (Corresponds (StandsFor s t)) (requireScalar (ctx.naming s) n p)
      (requireScalar (ctx.naming t) n p') := by
  obtain ⟨c, o⟩ := p
  obtain ⟨c', o'⟩ := p'
  -- the place is compared with the primary slot, so this rests on the slots being different
  have hne : ∀ s : Scratch, s.Separate → ¬Operand.cell (s.name .struct) = .cell (s.name .primary) :=
    fun s hs heq => absurd (hs.distinct _ _ (Operand.cell.inj heq)) (by decide)
  rcases h.place with ⟨rfl, rfl⟩ | ⟨rfl, rfl⟩
  · have hleft : requireScalar (ctx.naming s) n (c, .cell (s.name .primary)) = pure c :=
      if_pos rfl
    have hright : requireScalar (ctx.naming t) n (c', .cell (t.name .primary)) = pure c' :=
      if_pos rfl
    rw [hleft, hright]
    exact matches_pure h.code
  · have hleft : requireScalar (ctx.naming s) n (c, .cell (s.name .struct)) = throw _ :=
      if_neg (hne s hst.left)
    have hright : requireScalar (ctx.naming t) n (c', .cell (t.name .struct)) = throw _ :=
      if_neg (hne t hst.right)
    rw [hleft, hright]
    exact matches_throw _

/-- A number that is computed in step may be used in step. -/
theorem Matches.scalar {act act' : Lower (Code × Operand)} {f : Code → Lower γ} {g : Code → Lower δ}
    (h : Matches (Computed s t) act act') (hst : Choices s t)
    (hfg : ∀ c c', Corresponds (StandsFor s t) c c' → Matches S (f c) (g c')) :
    Matches S (do f (← requireScalar (ctx.naming s) n (← act)))
      (do g (← requireScalar (ctx.naming t) n (← act'))) := by
  apply h.bind
  intro p p' hp
  exact (matches_requireScalar hst ctx n hp).bind hfg

theorem matches_load (hst : Choices s t) (ctx : Context) (hx : ¬s.Temporary x) :
    Matches (Computed s t)
      (do
        let place ← placeOf (ctx.naming s) x
        return ([.mov (.cell x) place], place))
      (do
        let place ← placeOf (ctx.naming t) x
        return ([.mov (.cell x) place], place)) := by
  apply (matches_placeOf s t ctx x).bind
  intro o o' ho
  exact matches_pure ⟨corresponds_mov (standsFor_cell hx) (ho.standsFor hst), ho⟩

theorem matches_callAndPop (hst : Choices s t) (ctx : Context) (hx : ¬s.Temporary x) :
    Matches (Computed s t) (callAndPop (ctx.naming s) x) (callAndPop (ctx.naming t) x) := by
  apply Matches.after (kindOf? x)
  intro k
  have hpop := computed_popResult hst ctx (k.getD .number).returned
  refine matches_pure ⟨?_, hpop.place⟩
  refine .plain (i := .call _) rfl (.cons (.other ?_) .nil) hpop.code
  intro y hy
  split at hy
  · cases hy
    exact hx
  · cases hy

theorem matches_call (hst : Choices s t) (ctx : Context) (hx : ¬s.Temporary x)
    {pushes pushes' : Lower Code} (h : Matches (Corresponds (StandsFor s t)) pushes pushes') :
    Matches (Computed s t)
      (do
        let c ← pushes
        let (code, place) ← callAndPop (ctx.naming s) x
        return (c ++ code, place))
      (do
        let c ← pushes'
        let (code, place) ← callAndPop (ctx.naming t) x
        return (c ++ code, place)) := by
  apply h.bind
  intro c c' hc
  apply (matches_callAndPop hst ctx hx).bind
  intro p p' hp
  exact matches_pure ⟨hc.append hp.code, hp.place⟩

theorem handAll_matches (hst : Choices s t) {args : List Node} {f g : Nat → Operand → Instruction}
    {k : Nat} (hn : ∀ n ∈ args, ∀ x ∈ n.names, Free s t x)
    (hargs : ∀ n ∈ args,
      Matches (Computed s t) (expr (ctx.naming s) live n) (expr (ctx.naming t) live n))
    (hfg : ∀ k o o', StandsFor s t o o' → Corresponds (StandsFor s t) [f k o] [g k o']) :
    Matches (Corresponds (StandsFor s t)) (handAll (ctx.naming s) live f k args)
      (handAll (ctx.naming t) live g k args) := by
  induction args generalizing k with
  | nil => exact matches_pure .nil
  | cons n rest ih =>
    rw [List.forall_mem_cons] at hn hargs
    have hrest : ∀ c c', Corresponds (StandsFor s t) c c' → Matches (Corresponds (StandsFor s t))
        (do return c ++ (← handAll (ctx.naming s) live f (k + 1) rest))
        (do return c' ++ (← handAll (ctx.naming t) live g (k + 1) rest)) := fun c c' hc =>
      (ih hn.2 hargs.2).bind fun d d' hd => matches_pure (hc.append hd)
    apply (matches_direct? ctx hn.1).bind
    rintro _ o ⟨rfl, ho⟩
    cases o with
    | some src =>
      refine Matches.bind (R := Corresponds (StandsFor s t)) (matches_pure ?_) hrest
      exact hfg k src src (ho src rfl)
    | none =>
      apply hargs.1.bind
      rintro ⟨c, o⟩ ⟨c', o'⟩ h
      refine Matches.bind (R := Corresponds (StandsFor s t)) (matches_pure ?_) hrest
      exact h.code.append (hfg k o o' (h.place.standsFor hst))

theorem expr_matches (hst : Choices s t) (n : Node) (hn : ∀ x ∈ n.names, Free s t x)
    (hcells : ∀ p ∈ n.heldCells live, s.Fit t p.1 p.2) :
    Matches (Computed s t) (expr (ctx.naming s) live n) (expr (ctx.naming t) live n) := by
  have hpush : ∀ (_ : Nat) o o', StandsFor s t o o' → _ := fun _ _ _ ho => corresponds_push ho
  induction n using Node.induction_value generalizing live with
  | number =>
    rw [expr, expr]
    refine matches_pure ⟨corresponds_mov (standsFor_imm _) ?_, .inl ⟨rfl, rfl⟩⟩
    exact hst.standsFor_slot .primary
  | string _ value =>
    rw [expr, expr]
    apply Matches.after (addString (ctx.naming s) value)
    intro name
    refine matches_pure ⟨corresponds_mov (standsFor_data _) ?_, .inr ⟨rfl, rfl⟩⟩
    exact hst.standsFor_slot .struct
  | ident _ name =>
    rw [expr, expr]
    exact matches_load hst ctx (hn name List.mem_cons_self).1
  | binary _ op left right _ ihl ihr =>
    simp only [Node.names, List.forall_mem_append] at hn
    have hprimary := hst.standsFor_slot .primary
    rw [expr, expr]
    apply Matches.guard Iff.rfl
    apply (matches_simpleOperand? left).bind
    rintro _ a ⟨rfl, ha⟩
    apply (matches_simpleOperand? right).bind
    rintro _ b ⟨rfl, hb⟩
    simp only [Node.heldCells, ← ha, ← hb] at hcells
    cases a with
    | some a =>
      have hleft := Free.operand hn.1 ha.symm
      cases b with
      | some b =>
        have hright := Free.operand hn.2 hb.symm
        exact matches_pure ⟨corresponds_combine op hleft hright hprimary, .inl ⟨rfl, rfl⟩⟩
      | none =>
        apply (ihr hn.2 hcells).scalar hst
        intro c c' hc
        exact matches_pure ⟨hc.append (corresponds_combine op hleft hprimary hprimary),
          .inl ⟨rfl, rfl⟩⟩
    | none =>
      cases b with
      | some b =>
        have hright := Free.operand hn.2 hb.symm
        apply (ihl hn.1 hcells).scalar hst
        intro c c' hc
        exact matches_pure ⟨hc.append (corresponds_combine op hprimary hright hprimary),
          .inl ⟨rfl, rfl⟩⟩
      | none =>
        -- the left value waits in a cell of its own while the right one is computed
        simp only [List.forall_mem_append, List.forall_mem_cons] at hcells
        obtain ⟨hcells, hheld, hmore⟩ := hcells
        have hstands : StandsFor s t (.cell (s.cell .secondary live.secondary))
            (.cell (t.cell .secondary live.secondary)) := .scratch hheld
        apply (ihl hn.1 hcells).scalar hst
        intro c c' hc
        apply (ihr hn.2 hmore).scalar hst
        intro d d' hd
        have hfront := hc.append (corresponds_cellDeclaration hheld ctx)
        have hmiddle := (hfront.append (corresponds_mov hprimary hstands)).append hd
        exact matches_pure ⟨hmiddle.append (corresponds_combine op hstands hprimary hprimary),
          .inl ⟨rfl, rfl⟩⟩
  | call _ callee args ih =>
    simp only [Node.names, List.forall_mem_append] at hn
    rw [expr, expr, pushAll_eq _ _ _ 0, pushAll_eq _ _ _ 0]
    have hargs := Node.forall_mem_heldCellsAll.1 hcells
    have hnames := Node.forall_mem_namesAll.1 hn.2
    rcases hp : callee.pathName? with _ | ⟨name, _ | _⟩
    · exact matches_throw _
    · have hname := Node.not_temporary_of_pathName? hst.left (fun x hx => (hn.1 x hx).1) hp
      apply matches_call hst ctx hname
      exact handAll_matches hst hnames (fun n hn => ih n hn (hnames n hn) (hargs n hn)) hpush
    · exact matches_throw _
  | property pos object member ih =>
    rw [expr, expr, pushPathArgs_eq, pushPathArgs_eq, pushAll_eq _ _ _ 0, pushAll_eq _ _ _ 0]
    rcases hp : (Node.property pos object member).pathName? with _ | ⟨name, _ | _⟩
    · exact matches_throw _
    · have hname := Node.not_temporary_of_pathName? hst.left (fun x hx => (hn x hx).1) hp
      exact matches_load hst ctx hname
    · have hname := Node.not_temporary_of_pathName? hst.left (fun x hx => (hn x hx).1) hp
      simp only [Node.names, List.forall_mem_append] at hn
      have hnames := Node.forall_mem_pathArgs (P := fun n => ∀ x ∈ n.names, Free s t x)
        (fun h x hx => h x (by simp [Node.names, hx]))
        (fun h => Node.forall_mem_namesAll.1 fun x hx => h x (by simp [Node.names, hx])) hn.2
      have hargs := Node.forall_mem_pathArgs (P := fun n => ∀ p ∈ n.heldCells live, s.Fit t p.1 p.2)
        (fun h => h) Node.forall_mem_heldCellsAll.1 hcells
      apply matches_call hst ctx hname
      exact handAll_matches hst hnames (fun n hn => ih n hn (hnames n hn) (hargs n hn)) hpush
  | index _ name index ih =>
    simp only [Node.names, List.forall_mem_cons] at hn
    have hprimary := hst.standsFor_slot .primary
    rw [expr, expr]
    apply (ih hn.2 hcells).scalar hst
    intro c c' hc
    refine matches_pure ⟨hc.append ?_, .inl ⟨rfl, rfl⟩⟩
    refine .plain (i := .arith .add _ _ _) rfl
      (.cons hn.1.standsFor (.cons hprimary (.cons hprimary .nil))) ?_
    exact corresponds_single (i := .deref _ _) rfl (.cons hprimary (.cons hprimary .nil))
  | array _ elements ih =>
    simp only [Node.heldCells, List.forall_mem_cons] at hcells
    have hptr : StandsFor s t (.cell (s.cell .aggregate live.aggregate))
        (.cell (t.cell .aggregate live.aggregate)) := .scratch hcells.1
    have hall := Node.forall_mem_heldCellsAll.1 hcells.2
    have hnames := Node.forall_mem_namesAll.1 hn
    rw [expr, expr, storeAll_eq, storeAll_eq]
    apply (handAll_matches hst hnames (fun n hn => ih n hn (hnames n hn) (hall n hn))
      fun k o _ ho => corresponds_single (i := .pmov o _ _) rfl
        (.cons ho (.cons hptr (.cons (standsFor_imm (Int64.ofNat k)) .nil)))).bind
    intro c c' hc
    have halloc : Corresponds (StandsFor s t)
        [.alloc .i64 (Int64.ofNat elements.length) (.cell (s.cell .aggregate live.aggregate))]
        [.alloc .i64 (Int64.ofNat elements.length) (.cell (t.cell .aggregate live.aggregate))] :=
      corresponds_single (i := .alloc _ _ _) rfl
        (.cons (standsFor_imm _) (.cons hptr .nil))
    have hfront := (corresponds_cellDeclaration hcells.1 ctx).append halloc
    exact matches_pure ⟨(hfront.append hc).append
      (corresponds_mov hptr (hst.standsFor_slot .primary)), .inl ⟨rfl, rfl⟩⟩
  | other n hvalue =>
    rw [expr_of_not_isValue hvalue, expr_of_not_isValue hvalue]
    exact matches_throw _

/-! ## Statements -/

theorem matches_value (hst : Choices s t) (hn : ∀ x ∈ n.names, Free s t x)
    (hcells : ∀ p ∈ n.heldCells .none, s.Fit t p.1 p.2) :
    Matches (Reached s t) (value (ctx.naming s) n) (value (ctx.naming t) n) := by
  apply (matches_direct? ctx hn).bind
  rintro _ o ⟨rfl, ho⟩
  cases o with
  | some src => exact matches_pure ⟨.nil, ho src rfl⟩
  | none => exact (expr_matches hst n hn hcells).mono fun _ _ h => h.reached hst

theorem matches_store (hst : Choices s t) (hn : ∀ x ∈ n.names, Free s t x)
    (hcells : ∀ p ∈ n.heldCells .none, s.Fit t p.1 p.2) (hx : Free s t x) :
    Matches (Corresponds (StandsFor s t)) (store (ctx.naming s) n x)
      (store (ctx.naming t) n x) := by
  apply (matches_value hst hn hcells).bind
  intro p p' hp
  exact matches_pure (hp.code.append (corresponds_mov hp.source hx.standsFor))

theorem matches_declareCell (hst : Choices s t) {target init : Node}
    {type : Option TypeExpr} (htarget : ∀ x ∈ target.names, Free s t x)
    (hn : ∀ x ∈ init.names, Free s t x) (hcells : ∀ p ∈ init.heldCells .none, s.Fit t p.1 p.2) :
    Matches (Corresponds (StandsFor s t)) (declareCell (ctx.naming s) pos target init type)
      (declareCell (ctx.naming t) pos target init type) := by
  cases target with
  | ident namePos name =>
    have hname := htarget name List.mem_cons_self
    apply Matches.guard (hname.reserved_iff hst)
    apply Matches.after (declaredKind type init)
    intro kind
    apply Matches.guard Iff.rfl
    apply Matches.after (declare namePos name kind)
    intro _
    apply (matches_store hst hn hcells hname).bind
    intro c c' hc
    exact matches_pure ((corresponds_var _ hname.standsFor).append hc)
  | _ => exact matches_throw _

theorem matches_assign (hst : Choices s t) {target source : Node}
    (htarget : ∀ x ∈ target.names, Free s t x) (hn : ∀ x ∈ source.names, Free s t x)
    (hcells : ∀ p ∈ source.heldCells .none, s.Fit t p.1 p.2) :
    Matches (Corresponds (StandsFor s t)) (assign (ctx.naming s) target source)
      (assign (ctx.naming t) target source) := by
  cases target with
  | ident namePos name =>
    have hname := htarget name List.mem_cons_self
    apply Matches.guard (hname.reserved_iff hst)
    apply Matches.after (kindOf? name)
    intro kind
    apply Matches.guard Iff.rfl
    exact matches_store hst hn hcells hname
  | _ => exact matches_throw _

theorem matches_parameters (hst : Choices s t) {params : List Param}
    (h : ∀ p ∈ params, Free s t p.name) :
    Matches (fun a b => b = a) (parameters (ctx.naming s) params)
      (parameters (ctx.naming t) params) := by
  induction params with
  | nil => exact matches_pure rfl
  | cons p rest ih =>
    rw [List.forall_mem_cons] at h
    rw [parameters, parameters]
    apply Matches.guard (h.1.reserved_iff hst)
    apply Matches.guard Iff.rfl
    apply Matches.after (declare p.pos p.name _)
    intro _
    apply (ih h.2).bind
    rintro _ slots rfl
    exact matches_pure rfl

/-- What two functions have in common whose records correspond. -/
structure SameBody (s t : Scratch) (p p' : List Slot × Code) : Prop where
  slots : p'.1 = p.1
  code : Corresponds (StandsFor s t) p.2 p'.2
  formed : Throughout Formed p.2
  formed' : Throughout Formed p'.2

theorem matches_function (hst : Choices s t) {name : Name}
    {result : Option TypeExpr} (hname : Free s t name)
    {body body' : Context → Lower (List Slot × Code)}
    (h : Matches (SameBody s t) (body (ctx.inner.naming s)) (body' (ctx.inner.naming t))) :
    Matches (Corresponds (StandsFor s t)) (function (ctx.naming s) pos name result body)
      (function (ctx.naming t) pos name result body') := by
  unfold function
  apply Matches.guard (hname.reserved_iff hst)
  apply h.inBlock.withOwnData.bind
  rintro ⟨⟨slots, c⟩, data⟩ ⟨⟨slots', c'⟩, data'⟩ ⟨hbody, hdata⟩
  obtain rfl : slots' = slots := hbody.slots
  obtain rfl : data' = data := hdata
  apply Matches.after (mergeData pos data')
  intro _
  -- both bodies can be written, or neither for the same reason; the texts may differ in length
  have hfate := Encoding.sameFate_code (fun _ _ => StandsFor.sameFate) hbody.code
  simp only at hfate ⊢
  cases hw : Encoding.code c with
  | error e =>
    rw [hw] at hfate
    generalize Encoding.code c' = y at hfate
    cases hfate
    exact matches_throw _
  | ok w =>
    cases hw' : Encoding.code c' with
    | error e =>
      rw [hw, hw'] at hfate
      cases hfate
    | ok w' =>
      have hcode : Corresponds (StandsFor s t)
          [.function ⟨name, slots', .ofKind (Kind.orNumber result), w⟩]
          [.function ⟨name, slots', .ofKind (Kind.orNumber result), w'⟩] :=
        .func (isBody_of_encode hbody.formed hw) (isBody_of_encode hbody.formed' hw')
          hbody.code .nil
      apply Matches.after (declare pos name _)
      intro _
      change Matches _ (if ctx.depth = 0 then _ else _) (if ctx.depth = 0 then _ else _)
      split
      · exact Matches.after _ fun _ => matches_pure hcode
      · exact matches_pure hcode

theorem corresponds_declarations (hst : Choices s t) :
    Corresponds (StandsFor s t) s.declarations t.declarations := by
  have hslot (r : Role) :
      StandsFor s t (.cell (s.withDefaults.name r)) (.cell (t.withDefaults.name r)) := by
    rw [hst.leftWhole, hst.rightWhole]
    exact hst.standsFor_slot r
  have hvar : ∀ (r : Role) {c c' : Code}, Corresponds (StandsFor s t) c c' →
      Corresponds (StandsFor s t) (.var r.storage (s.withDefaults.name r) :: c)
        (.var r.storage (t.withDefaults.name r) :: c') := fun r _ _ h =>
    (corresponds_var r.storage (hslot r)).append h
  exact hvar .primary (hvar .secondary (hvar .aggregate (hvar .struct .nil)))

theorem heldCells_of_right {namePos : Position} {op : Operator} {name : Name} {right : Node}
    {type : Option TypeExpr} {p : Role × Nat} (h : p ∈ right.heldCells live) :
    p ∈ (Node.binary pos op (.ident namePos name) right type).heldCells live := by
  cases right with
  | number | ident => cases h
  | _ => exact h

mutual

theorem stmt_matches (hst : Choices s t) : ∀ (n : Node) {ctx : Context}, n.imports = [] →
    (∀ x ∈ n.names, Free s t x) → (∀ p ∈ n.heldCells .none, s.Fit t p.1 p.2) →
    Matches (Corresponds (StandsFor s t)) (stmt (ctx.naming s) n) (stmt (ctx.naming t) n)
  | .binary pos op left right type, ctx, _, hn, hcells => by
    have hnames := hn
    simp only [Node.names, List.forall_mem_append] at hnames
    by_cases hdecl : op = .declare
    · subst hdecl
      cases left with
      | ident =>
        exact matches_declareCell hst hnames.1 hnames.2 fun p hp => hcells p (heldCells_of_right hp)
      | _ => exact matches_throw _
    by_cases hassign : op = .assign
    · subst hassign
      cases left with
      | ident =>
        exact matches_assign hst hnames.1 hnames.2 fun p hp => hcells p (heldCells_of_right hp)
      | _ => exact matches_throw _
    rw [stmt_binary_eq hdecl hassign, stmt_binary_eq hdecl hassign]
    exact (expr_matches hst _ hn hcells).map fun _ _ h => h.code
  | .cond _ test yes no, ctx, himp, hn, hcells => by
    simp only [Node.imports, List.append_eq_nil_iff] at himp
    simp only [Node.names, List.forall_mem_append] at hn
    simp only [Node.heldCells, List.forall_mem_append] at hcells
    rw [stmt, stmt]
    apply (expr_matches hst test hn.1.1 hcells.1.1).bind
    intro p p' hp
    apply (stmts_matches hst yes himp.1 hn.1.2 hcells.1.2).inBlock.bind
    intro c c' hc
    apply (stmts_matches hst no himp.2 hn.2 hcells.2).inBlock.bind
    intro d d' hd
    exact matches_pure (hp.code.append (corresponds_condScope (hp.place.standsFor hst) hc hd))
  | .loop _ test body, ctx, himp, hn, hcells => by
    simp only [Node.imports] at himp
    simp only [Node.names, List.forall_mem_append] at hn
    simp only [Node.heldCells, List.forall_mem_append] at hcells
    rw [stmt, stmt]
    apply (expr_matches hst test hn.1 hcells.1).bind
    intro p p' hp
    apply (stmts_matches hst body himp hn.2 hcells.2).inBlock.bind
    intro c c' hc
    exact matches_pure (corresponds_loopScope (hp.place.standsFor hst) hp.code hc)
  | .func pos name params result body, ctx, himp, hn, hcells => by
    simp only [Node.imports] at himp
    simp only [Node.names, List.forall_mem_append, List.cons_append, List.forall_mem_cons,
      List.forall_mem_map] at hn
    have hformed : ∀ u : Scratch, ∀ st c st', stmts (ctx.inner.naming u) body st = .ok (c, st') →
        Throughout Formed (u.declarations ++ c) := fun u st c st' h =>
      (formed_declarations u).append ((lowers_of_stmts body h).formed fun _ _ name hname => by
        rw [himp] at hname
        cases hname)
    have hparams : Matches _ (parameters (ctx.inner.naming s) params) _ :=
      matches_parameters hst hn.2.1
    rw [stmt, stmt]
    apply matches_function hst hn.1
    apply hparams.bind
    rintro _ slots rfl
    apply ((stmts_matches hst body himp hn.2.2 hcells).and (hformed s) (hformed t)).bind
    rintro c c' ⟨hc, hleft, hright⟩
    exact matches_pure ⟨rfl, (corresponds_declarations hst).append hc, hleft, hright⟩
  | .ret pos n, ctx, _, hn, hcells => by
    by_cases hmissing : n = .missing
    · subst hmissing
      rw [stmt, stmt]
      exact matches_pure (corresponds_single (i := .ret []) rfl .nil)
    · rw [stmt_ret_eq hmissing, stmt_ret_eq hmissing]
      apply (matches_value (n := n) hst hn hcells).bind
      intro p p' hp
      refine matches_pure (hp.code.append ?_)
      exact corresponds_single (i := .ret [_]) rfl (.cons hp.source .nil)
  | .importUnit .., _, himp, _, _ => by cases himp
  | .pass _, _, _, _, _ => by
    rw [stmt, stmt]
    exact matches_pure (corresponds_single (i := .nop) rfl .nil)
  | .missing, _, _, _, _ => by
    rw [stmt, stmt]
    exact matches_throw _
  | .number .., _, _, hn, hcells | .string .., _, _, hn, hcells | .ident .., _, _, hn, hcells
  | .index .., _, _, hn, hcells | .array .., _, _, hn, hcells | .call .., _, _, hn, hcells
  | .property .., _, _, hn, hcells | .param _, _, _, hn, hcells | .type _, _, _, hn, hcells
  | .program _, _, _, hn, hcells => by
    rw [stmt, stmt]
    · exact (expr_matches hst _ hn hcells).map fun _ _ h => h.code
    all_goals
      intros
      contradiction

theorem stmts_matches (hst : Choices s t) : ∀ (ns : List Node) {ctx : Context},
    Node.importsOfAll ns = [] → (∀ x ∈ Node.namesAll ns, Free s t x) →
    (∀ p ∈ Node.heldCellsAll .none ns, s.Fit t p.1 p.2) →
    Matches (Corresponds (StandsFor s t)) (stmts (ctx.naming s) ns) (stmts (ctx.naming t) ns)
  | [], _, _, _, _ => by
    rw [stmts, stmts]
    exact matches_pure .nil
  | n :: rest, _, himp, hn, hcells => by
    simp only [Node.importsOfAll, List.append_eq_nil_iff] at himp
    simp only [Node.namesAll, List.forall_mem_append] at hn
    simp only [Node.heldCellsAll, List.forall_mem_append] at hcells
    rw [stmts, stmts]
    apply (stmt_matches hst n himp.1 hn.1 hcells.1).bind
    intro c c' hc
    apply (stmts_matches hst rest himp.2 hn.2 hcells.2).bind
    intro d d' hd
    exact matches_pure (hc.append hd)

end

end Lowering

open Instruction

theorem CodeUnit.compile_naming {o : CompileOptions} {s : Scratch} {body : List Node}
    (h : s.validate = .ok ()) :
    compile { o with scratch := s } (.program body) =
      match Lowering.stmts (o.context.naming s.withDefaults) body o.start with
      | .error e => .error (.error e)
      | .ok (code, st) => .ok ⟨o.context.unitName, st.data, st.exports, code⟩ := by
  simp only [compile, h]
  rfl

/-- The choice of the scratch names is a renaming. Let two choices be valid, with slots and spill
cells that can be written, and let a program without imports have no name of such a cell. Then it is
compiled under both choices or under none, and with the same error. The units have the same name,
data and exports, and the code of one is that of the other with each scratch cell under its other
name, in scopes and in functions within functions. The body of a function is the written form of its
code; it reads back as this code just if the counts and lengths in the code fit the fields of the
binary form. -/
theorem CodeUnit.compile_exchange_scratch {o : CompileOptions} {s t : Scratch} {body : List Node}
    (hs : s.validate = .ok ()) (ht : t.validate = .ok ()) (himports : Node.importsOfAll body = [])
    (hnames : ∀ x ∈ Node.namesAll body,
      ¬s.withDefaults.Temporary x ∧ ¬t.withDefaults.Temporary x)
    (hslots : ∀ r, s.withDefaults.Fit t.withDefaults r 0)
    (hcells : ∀ p ∈ Node.heldCellsAll .none body, s.withDefaults.Fit t.withDefaults p.1 p.2) :
    (∃ e, compile { o with scratch := s } (.program body) = .error (.error e) ∧
      compile { o with scratch := t } (.program body) = .error (.error e)) ∨
    ∃ u u', compile { o with scratch := s } (.program body) = .ok u ∧
      compile { o with scratch := t } (.program body) = .ok u' ∧ u'.name = u.name ∧
      u'.data = u.data ∧ u'.exports = u.exports ∧
      Renamed (s.withDefaults.exchange t.withDefaults) u.code u'.code := by
  have hst : Lowering.Choices s.withDefaults t.withDefaults :=
    ⟨Scratch.separate_of_validate hs, Scratch.separate_of_validate ht,
      Scratch.withDefaults_withDefaults s, Scratch.withDefaults_withDefaults t, hslots⟩
  have hstep : Lowering.InStep _ (Lowering.stmts (o.context.naming s.withDefaults) body o.start)
      (Lowering.stmts (o.context.naming t.withDefaults) body o.start) :=
    Lowering.stmts_matches hst body himports hnames hcells o.start
  rw [compile_naming hs, compile_naming ht]
  generalize Lowering.stmts (o.context.naming s.withDefaults) body o.start = x,
    Lowering.stmts (o.context.naming t.withDefaults) body o.start = y at hstep ⊢
  cases hstep with
  | error e => exact .inl ⟨e, rfl, rfl⟩
  | ok st h =>
    exact .inr ⟨_, _, rfl, rfl, rfl, rfl, rfl, h.mono fun _ _ ho => ho.eq_rename hst.left⟩

/-! ## A spill cell in a function within a function -/

def nestedSource : Bytes :=
  "let x = 2; func f(a: number): number \x7b func g(b: number): number \x7b " ++
    "return (b + 1) * ((b + 2) * (b + 3)); \x7d return g(a) + x; \x7d return f(x);"

def nestedBody : List Node := (Program.ofSource nestedSource).1

def shortNames : Scratch := { primary := "p", secondary := "q", aggregate := "r", struct := "s" }

def nestedOptions (s : Scratch) : CompileOptions := { prelude := Builtin.prelude, scratch := s }

def nestedUnit (s : Scratch) : CodeUnit :=
  (CodeUnit.compile (nestedOptions s) (.program nestedBody)).toOption.getD { name := [] }

/-- The spill cell `temp2.1` becomes `q.1`. -/
theorem nestedUnit_renamed :
    CodeUnit.compile (nestedOptions {}) (.program nestedBody) = .ok (nestedUnit {}) ∧
    CodeUnit.compile (nestedOptions shortNames) (.program nestedBody) =
      .ok (nestedUnit shortNames) ∧
    Renamed (Scratch.default.exchange shortNames) (nestedUnit {}).code
      (nestedUnit shortNames).code ∧
    (Role.secondary, 1) ∈ Node.heldCellsAll .none nestedBody ∧
    Scratch.default.exchange shortNames "temp2.1" = "q.1" := by
  have hchecks : (CodeUnit.compile (nestedOptions {}) (.program nestedBody)).isOk = true ∧
      (CodeUnit.compile (nestedOptions shortNames) (.program nestedBody)).isOk = true ∧
      Node.importsOfAll nestedBody = [] ∧
      (∀ x ∈ Node.namesAll nestedBody, 46 ∉ x ∧ Scratch.default.isReserved x = false ∧
        shortNames.isReserved x = false) ∧
      (∀ p ∈ Node.heldCellsAll .none nestedBody, Scratch.default.Fit shortNames p.1 p.2) ∧
      (Role.secondary, 1) ∈ Node.heldCellsAll .none nestedBody := by
    decide +kernel
  obtain ⟨hokLeft, hokRight, himports, hnames, hcells, hcell⟩ := hchecks
  have hleft : CodeUnit.compile (nestedOptions {}) (.program nestedBody) = .ok (nestedUnit {}) :=
    eq_ok_of_isOk hokLeft _
  have hright : CodeUnit.compile (nestedOptions shortNames) (.program nestedBody) =
      .ok (nestedUnit shortNames) :=
    eq_ok_of_isOk hokRight _
  have hfree : ∀ x ∈ Node.namesAll nestedBody,
      ¬Scratch.default.Temporary x ∧ ¬shortNames.Temporary x := by
    intro x hx
    obtain ⟨hdot, hleft, hright⟩ := hnames x hx
    exact ⟨fun h => Scratch.not_own rfl hdot hleft h.own,
      fun h => Scratch.not_own rfl hdot hright h.own⟩
  refine ⟨hleft, hright, ?_, hcell, by decide⟩
  rcases CodeUnit.compile_exchange_scratch (o := nestedOptions {}) (s := {}) (t := shortNames) rfl
    rfl himports hfree (fun r => by cases r <;> decide) hcells with
    ⟨e, he, -⟩ | ⟨u, u', hu, hu', -, -, -, h⟩
  · cases hleft.symm.trans he
  · rw [Except.ok.inj (hleft.symm.trans hu), Except.ok.inj (hright.symm.trans hu')]
    exact h

end UnitScript
