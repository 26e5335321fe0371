import UnitScript.Proofs.Lowering.Operations
import UnitScript.Syntax.Parser

/-!
# Only mentioned symbols matter

Compilation looks up identifiers of the program and the names that its dotted paths stand for, and what
it records meanwhile is recorded under identifiers. Two compilations that start with different kinds but
agree on these names therefore stay in agreement, through blocks, functions and failures. So a prelude
counts only as far as the program mentions its names.
-/

namespace UnitScript

namespace Lowering

/-! ## Actions that only look up certain names -/

def AgreeOn (names : Name → Prop) (k l : NameMap Kind) : Prop :=
  ∀ x, names x → l.get? x = k.get? x

def State.withKinds (st : State) (k : NameMap Kind) : State :=
  { st with symbols := { st.symbols with kinds := k } }

/-- Outcomes with the same error, or with the same result and states that differ in kinds of other
names only. -/
inductive SameButKinds {α : Type} (names : Name → Prop) :
    Except CompileError (α × State) → Except CompileError (α × State) → Prop where
  | ok (a : α) (st : State) {k : NameMap Kind} : AgreeOn names st.symbols.kinds k →
      SameButKinds names (.ok (a, st)) (.ok (a, st.withKinds k))
  | error (e : CompileError) : SameButKinds names (.error e) (.error e)

/-- The kinds of other names make no difference to the action. -/
def Indifferent {α : Type} (names : Name → Prop) (act : Lower α) : Prop :=
  ∀ st k, AgreeOn names st.symbols.kinds k → SameButKinds names (act st) (act (st.withKinds k))

variable {α β : Type} {names : Name → Prop} {act : Lower α} {f : α → Lower β} {ctx : Context}

theorem AgreeOn.insert {k l : NameMap Kind} (h : AgreeOn names k l) (name : Name) (kind : Kind) :
    AgreeOn names (k.insert name kind) (l.insert name kind) := by
  intro x hx
  rw [NameMap.get?_insert, NameMap.get?_insert, h x hx]

theorem indifferent_pure (a : α) : Indifferent names (pure a : Lower α) :=
  fun st _ h => .ok a st h

theorem indifferent_throw (e : CompileError) : Indifferent names (throw e : Lower α) :=
  fun _ _ _ => .error e

theorem Indifferent.bind (hact : Indifferent names act) (hf : ∀ a, Indifferent names (f a)) :
    Indifferent names (act >>= f) := by
  intro st k h
  have hst := hact st k h
  change SameButKinds names (act st >>= fun p => f p.1 p.2)
    (act (st.withKinds k) >>= fun p => f p.1 p.2)
  generalize act st = x, act (st.withKinds k) = y at hst ⊢
  cases hst with
  | ok a mid hmid => exact hf a mid _ hmid
  | error e => exact .error e

theorem indifferent_modify {g : State → State}
    (hg : ∀ st k, g (st.withKinds k) = (g st).withKinds k)
    (hkinds : ∀ st, (g st).symbols.kinds = st.symbols.kinds) :
    Indifferent names (modify g : Lower PUnit) := by
  intro st k h
  change SameButKinds names (.ok (PUnit.unit, g st)) (.ok (PUnit.unit, g (st.withKinds k)))
  rw [hg]
  refine .ok _ _ ?_
  rw [hkinds]
  exact h

theorem indifferent_get {g : State → Lower β}
    (hg : ∀ st k, AgreeOn names st.symbols.kinds k →
      SameButKinds names (g st st) (g (st.withKinds k) (st.withKinds k))) :
    Indifferent names (get >>= g) := hg

theorem Indifferent.inBlock (hact : Indifferent names act) :
    Indifferent names (inBlock act) := by
  have hleave : ∀ (s : Symbols) (k : NameMap Kind),
      Symbols.leave { s with kinds := k } = { s.leave with kinds := k } ∧
        s.leave.kinds = s.kinds := by
    intro s k
    obtain ⟨kinds, block, outer⟩ := s
    cases outer <;> exact ⟨rfl, rfl⟩
  refine .bind (indifferent_modify (fun _ _ => rfl) fun _ => rfl) fun _ => hact.bind fun a =>
    .bind (indifferent_modify (fun st k => ?_) fun st => ?_) fun _ => indifferent_pure a
  · unfold State.withKinds
    dsimp only
    rw [(hleave st.symbols k).1]
  · exact (hleave st.symbols .empty).2

theorem Indifferent.withOwnData (hact : Indifferent names act) :
    Indifferent names (withOwnData act) := by
  have hdata : ∀ data, Indifferent names
      (modify fun st => { st with data := data } : Lower PUnit) :=
    fun data => indifferent_modify (fun _ _ => rfl) fun _ => rfl
  refine indifferent_get fun outer k h => ?_
  refine ((hdata []).bind fun _ => hact.bind fun a => indifferent_get fun own l hl => ?_) outer k h
  exact ((hdata outer.data).bind fun _ => indifferent_pure (a, own.data)) own l hl

/-! ## Looking up and recording -/

theorem indifferent_kindOf? {name : Name} (h : names name) : Indifferent names (kindOf? name) := by
  intro st k hk
  have hlookup : (st.withKinds k).symbols.lookup? name = st.symbols.lookup? name := hk name h
  change SameButKinds names (.ok (st.symbols.lookup? name, st))
    (.ok ((st.withKinds k).symbols.lookup? name, st.withKinds k))
  rw [hlookup]
  exact .ok _ st hk

theorem indifferent_addString (ctx : Context) (value : Bytes) :
    Indifferent names (addString ctx value) :=
  fun st _ h => .ok (nextString ctx st) (withString ctx st value) h

/-- Whether a name can be declared depends on the block, and the new kind is the same. -/
theorem indifferent_declare (pos : Position) (name : Name) (kind : Kind) :
    Indifferent names (declare pos name kind) := by
  refine indifferent_get fun st k h => ?_
  cases hblock : st.symbols.block.has name with
  | true =>
    have hfails : ∀ l, Symbols.declare { st.symbols with kinds := l } name kind =
        .error (.duplicate name) := fun l => if_pos hblock
    have hleft : st.symbols.declare name kind = .error (.duplicate name) := hfails st.symbols.kinds
    have hright : (st.withKinds k).symbols.declare name kind = .error (.duplicate name) := hfails k
    simp only [hleft, hright]
    exact .error _
  | false =>
    have hgoes : ∀ l, Symbols.declare { st.symbols with kinds := l } name kind =
        .ok { st.symbols with kinds := l.insert name kind,
                              block := st.symbols.block.insert name () } := fun l => by
      unfold Symbols.declare
      rw [if_neg (by rw [hblock]; decide)]
    have hleft := hgoes st.symbols.kinds
    have hright : (st.withKinds k).symbols.declare name kind = _ := hgoes k
    simp only [hleft, hright]
    exact .ok () { st with symbols := _ } (h.insert name kind)

theorem indifferent_mergeData (pos : Position) (more : List Datum) :
    Indifferent names (mergeData pos more) := by
  refine indifferent_get fun st k h => ?_
  have hdata : (st.withKinds k).data = st.data := rfl
  simp only [hdata]
  rcases Datum.merge st.data more with ⟨data, _ | name⟩
  · exact .ok () { st with data := data } h
  · exact .error _

theorem infer_withKinds {n : Node} (hn : ∀ x ∈ n.mentions, names x) {st : State} {k : NameMap Kind}
    (h : AgreeOn names st.symbols.kinds k) :
    (st.withKinds k).symbols.infer n = st.symbols.infer n := by
  have hlookup : ∀ name ∈ n.mentions,
      (st.withKinds k).symbols.lookup name = st.symbols.lookup name := by
    intro name hname
    have hget : (st.withKinds k).symbols.lookup? name = st.symbols.lookup? name :=
      h name (hn name hname)
    unfold Symbols.lookup
    rw [hget]
  cases n with
  | ident _ name => exact hlookup name List.mem_cons_self
  | call _ callee =>
    cases callee with
    | ident _ name =>
      exact congrArg (Except.map Kind.returned) (hlookup name List.mem_cons_self)
    | _ => rfl
  | property pos object member =>
    unfold Symbols.infer
    rcases hpath : (Node.property pos object member).pathName? with _ | ⟨name, called⟩
    · rfl
    · have hname := hlookup name (Node.mem_mentions_of_property hpath)
      cases called <;> simp only [hname]
  | _ => rfl

theorem indifferent_declaredKind {type : Option TypeExpr} {init : Node}
    (hn : ∀ x ∈ init.mentions, names x) : Indifferent names (declaredKind type init) := by
  unfold declaredKind
  dsimp only
  split
  · exact indifferent_pure _
  · refine indifferent_get fun st k h => ?_
    simp only [infer_withKinds hn h]
    cases st.symbols.infer init with
    | ok kind => exact .ok kind st h
    | error e => exact .error _

theorem Composed.indifferent {D : Dealings} {x x' : Lower α} (h : Composed D x x') :
    Indifferent D.names x := by
  induction h with
  | pure a => exact indifferent_pure a
  | throw => exact indifferent_throw _
  | bind _ _ ih ihk => exact ih.bind ihk
  | kindOf hname => exact indifferent_kindOf? hname
  | addString => exact indifferent_addString _ _
  | declaredKind _ _ hn => exact indifferent_declaredKind hn
  | declare => exact indifferent_declare _ _ _
  | mergeData => exact indifferent_mergeData _ _
  | inBlock _ _ ih => exact ih.inBlock
  | withOwnData _ _ ih => exact ih.withOwnData
  | publish => exact indifferent_modify (fun _ _ => rfl) fun _ => rfl
  | splice pos =>
    unfold Lowering.splice
    split
    · exact indifferent_throw _
    · split
      · exact indifferent_throw _
      · exact (indifferent_mergeData pos _).bind fun _ => indifferent_pure _

end Lowering

/-- Two preludes that agree on the identifiers and the dotted paths of a program give the same unit or
the same error. -/
theorem CodeUnit.compile_eq_of_agree {o : CompileOptions} {p q : Prelude} {body : List Node}
    (h : ∀ x ∈ Node.mentionsAll body, q.get? x = p.get? x) :
    compile { o with prelude := p } (.program body) =
      compile { o with prelude := q } (.program body) := by
  cases hvalid : o.scratch.validate with
  | error e => simp only [compile, hvalid]
  | ok =>
    let ctx : Lowering.Context := ⟨if o.name.isEmpty then defaultName else o.name,
      o.scratch.withDefaults, o.includer, 0⟩
    have hsame : Lowering.SameButKinds (· ∈ Node.mentionsAll body)
        ((Lowering.stmts ctx body).run ⟨.ofPrelude p, 0, [], .empty⟩)
        ((Lowering.stmts ctx body).run ⟨.ofPrelude q, 0, [], .empty⟩) :=
      (Lowering.composed_stmts ctx body).indifferent ⟨.ofPrelude p, 0, [], .empty⟩ q h
    simp only [compile, hvalid]
    generalize (Lowering.stmts ctx body).run ⟨.ofPrelude p, 0, [], .empty⟩ = x,
      (Lowering.stmts ctx body).run ⟨.ofPrelude q, 0, [], .empty⟩ = y at hsame ⊢
    cases hsame with
    | ok code st => rfl
    | error e => rfl

/-! ## A dotted path from the prelude -/

def greetingBody : List Node :=
  (Program.ofSource ("let s = host.name; func greet(): string \x7b return s; \x7d " ++
    "io.println(greet());")).1

def namingPrelude : Prelude := .ofList [("host.name", .string), ("io.println", .null)]

/-- Has a symbol besides that the program does not mention. -/
def furtherPrelude : Prelude := namingPrelude.insert "host.names" .number

/-- The further symbol makes no difference. The path does: without it there is no unit. -/
theorem greeting_compile_eq :
    (∀ x ∈ Node.mentionsAll greetingBody, furtherPrelude.get? x = namingPrelude.get? x) ∧
    furtherPrelude ≠ namingPrelude ∧
    CodeUnit.compile { prelude := namingPrelude } (.program greetingBody) =
      CodeUnit.compile { prelude := furtherPrelude } (.program greetingBody) ∧
    (CodeUnit.compile { prelude := namingPrelude } (.program greetingBody)).isOk = true ∧
    (CodeUnit.compile { prelude := namingPrelude.erase "host.name" }
      (.program greetingBody)).isOk = false := by
  have hagree : ∀ x ∈ Node.mentionsAll greetingBody,
      furtherPrelude.get? x = namingPrelude.get? x := by
    decide +kernel
  exact ⟨hagree, by decide +kernel, CodeUnit.compile_eq_of_agree (o := {}) hagree, by decide +kernel,
    by decide +kernel⟩

end UnitScript
