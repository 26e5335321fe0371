import UnitScript.Proofs.Lowering.Scratch
import UnitScript.Proofs.Lowering.Signatures
import UnitScript.Syntax.Parser

/-!
# The rules for names that compilation enforces

Names are introduced by declarations, functions and parameters. A program that compiles introduces
no name twice in a block, assigns to nothing that has not been introduced further up, and leaves the
scratch cells alone. Kinds are recorded in one flat map that forgets nothing, and only the names of
the innermost block are checked for duplicates; so what has to be followed through a program is
which names the innermost block has, which blocks are around it, and which names have a kind.
-/

namespace UnitScript

namespace Node

/-! ## The rules of the text -/

def introducedHere : Node → List Name
  | binary _ .declare (ident _ name) _ _ => [name]
  | func _ name _ _ _ => [name]
  | _ => []

def blockNames (ns : List Node) : List Name := ns.flatMap introducedHere

mutual

/-- The names of each block inside of a statement. A function's parameters are in one block with its
body. -/
def innerBlocks : Node → List (List Name)
  | cond _ _ yes no =>
    (blockNames yes :: innerBlocksOfAll yes) ++ (blockNames no :: innerBlocksOfAll no)
  | loop _ _ body => blockNames body :: innerBlocksOfAll body
  | func _ _ params _ body => (params.map (·.name) ++ blockNames body) :: innerBlocksOfAll body
  | _ => []

def innerBlocksOfAll : List Node → List (List Name)
  | [] => []
  | n :: rest => n.innerBlocks ++ innerBlocksOfAll rest

end

/-- A place in the text where a name is introduced or something is assigned to. -/
inductive Occurrence where
  | introduction (name : Name)
  | assignment (target : Node)

def Occurrence.name? : Occurrence → Option Name
  | introduction name => some name
  | assignment (ident _ name) => some name
  | assignment _ => none

mutual

/-- The introductions and assignments of a statement in the order of the text, except that the name
of a function comes behind its body. -/
def occurrences : Node → List Occurrence
  | binary _ .declare (ident _ name) _ _ => [.introduction name]
  | binary _ .assign target _ _ => [.assignment target]
  | cond _ _ yes no => occurrencesOfAll yes ++ occurrencesOfAll no
  | loop _ _ body => occurrencesOfAll body
  | func _ name params _ body =>
    params.map (fun p => .introduction p.name) ++ occurrencesOfAll body ++ [.introduction name]
  | _ => []

def occurrencesOfAll : List Node → List Occurrence
  | [] => []
  | n :: rest => n.occurrences ++ occurrencesOfAll rest

end

end Node

namespace Symbols

variable {s s' : Symbols} {name x : Name} {kind : Kind}

def Knows (s : Symbols) (name : Name) : Prop := (s.lookup? name).isSome = true

def InBlock (s : Symbols) (name : Name) : Prop := s.block.has name = true

theorem declare_eq_ok_iff : s.declare name kind = .ok s' ↔ ¬s.InBlock name ∧
    s' = { s with kinds := s.kinds.insert name kind, block := s.block.insert name () } := by
  unfold declare InBlock
  split
  · next h => simp [h]
  · next h => simp [h, eq_comm]

theorem inBlock_of_declare (h : s.declare name kind = .ok s') :
    s'.InBlock x ↔ x = name ∨ s.InBlock x := by
  obtain ⟨-, rfl⟩ := declare_eq_ok_iff.1 h
  simp only [InBlock, NameMap.has_eq_contains, NameMap.contains, NameMap.get?_insert]
  by_cases hx : name = x
  · simp [hx]
  · simp [hx, Ne.symm hx]

theorem knows_of_declare (h : s.declare name kind = .ok s') : s'.Knows x ↔ x = name ∨ s.Knows x := by
  obtain ⟨-, rfl⟩ := declare_eq_ok_iff.1 h
  simp only [Knows, lookup?, NameMap.get?_insert]
  by_cases hx : name = x
  · simp [hx]
  · simp [hx, Ne.symm hx]

theorem knows_leave : s.leave.Knows x ↔ s.Knows x := by
  unfold Knows lookup?
  rw [kinds_leave]

/-- Behind a block the names of the block around it count again. -/
theorem leave_of_outer (h : s'.outer = s.enter.outer) :
    s'.leave.block = s.block ∧ s'.leave.outer = s.outer := by
  unfold leave
  rw [h]
  exact ⟨rfl, rfl⟩

end Symbols

namespace Lowering

/-! ## What is checked from one state to another -/

/-- Between the two states names have been introduced in the innermost block, others in the blocks
inside of it, and the occurrences have passed their checks. -/
structure Scoped (scratch : Scratch) (s s' : Symbols) (own : List Name) (inner : List (List Name))
    (occurrences : List Node.Occurrence) : Prop where
  fresh : ∀ x ∈ own, ¬s.InBlock x
  distinct : own.Nodup
  inBlock_iff : ∀ x, s'.InBlock x ↔ x ∈ own ∨ s.InBlock x
  outer : s'.outer = s.outer
  inner_distinct : ∀ names ∈ inner, names.Nodup
  knows_iff : ∀ x, s'.Knows x ↔ .introduction x ∈ occurrences ∨ s.Knows x
  assigned : ∀ before target after, occurrences = before ++ .assignment target :: after →
    ∃ pos x, target = .ident pos x ∧ (.introduction x ∈ before ∨ s.Knows x)
  unreserved : ∀ o ∈ occurrences, ∀ x, o.name? = some x → scratch.isReserved x = false

variable {scratch : Scratch} {s mid s' : Symbols} {own own' : List Name}
  {inner inner' : List (List Name)} {occurrences occurrences' : List Node.Occurrence}

theorem Scoped.refl (scratch : Scratch) (s : Symbols) : Scoped scratch s s [] [] [] where
  fresh := by simp
  distinct := .nil
  inBlock_iff := by simp
  outer := rfl
  inner_distinct := by simp
  knows_iff := by simp
  assigned := by simp
  unreserved := by simp

theorem Scoped.append (h : Scoped scratch s mid own inner occurrences)
    (g : Scoped scratch mid s' own' inner' occurrences') :
    Scoped scratch s s' (own ++ own') (inner ++ inner') (occurrences ++ occurrences') where
  fresh := by
    intro x hx
    rcases List.mem_append.1 hx with hx | hx
    · exact h.fresh x hx
    · exact fun hs => g.fresh x hx ((h.inBlock_iff x).2 (.inr hs))
  distinct := by
    refine List.nodup_append.2 ⟨h.distinct, g.distinct, ?_⟩
    rintro x hx _ hx' rfl
    exact g.fresh x hx' ((h.inBlock_iff x).2 (.inl hx))
  inBlock_iff := by
    intro x
    rw [g.inBlock_iff, h.inBlock_iff, List.mem_append]
    tauto
  outer := g.outer.trans h.outer
  inner_distinct := List.forall_mem_append.2 ⟨h.inner_distinct, g.inner_distinct⟩
  knows_iff := by
    intro x
    rw [g.knows_iff, h.knows_iff, List.mem_append]
    tauto
  assigned := by
    intro before target after heq
    rcases List.append_eq_append_iff.1 heq with ⟨more, rfl, hmore⟩ | ⟨more, hmore, hafter⟩
    · obtain ⟨pos, x, rfl, hx⟩ := g.assigned more target after hmore
      rw [h.knows_iff] at hx
      refine ⟨pos, x, rfl, ?_⟩
      rw [List.mem_append]
      tauto
    · rcases List.cons_eq_append_iff.1 hafter with ⟨rfl, hafter⟩ | ⟨rest, rfl, rfl⟩
      · obtain ⟨pos, x, rfl, hx⟩ := g.assigned [] target after hafter.symm
        rw [h.knows_iff, hmore, List.append_nil] at hx
        refine ⟨pos, x, rfl, ?_⟩
        simpa using hx
      · exact h.assigned before target rest hmore
  unreserved := List.forall_mem_append.2 ⟨h.unreserved, g.unreserved⟩

/-- The names of a block are checked apart from those around it. -/
theorem Scoped.block (h : Scoped scratch s.enter s' own inner occurrences) :
    Scoped scratch s s'.leave [] (own :: inner) occurrences where
  fresh := by simp
  distinct := .nil
  inBlock_iff := by
    intro x
    unfold Symbols.InBlock
    rw [(Symbols.leave_of_outer h.outer).1]
    simp
  outer := (Symbols.leave_of_outer h.outer).2
  inner_distinct := List.forall_mem_cons.2 ⟨h.distinct, h.inner_distinct⟩
  knows_iff := fun x => Symbols.knows_leave.trans (h.knows_iff x)
  assigned := h.assigned
  unreserved := h.unreserved

theorem scoped_of_declare {name : Name} {kind : Kind} (h : s.declare name kind = .ok s')
    (hres : scratch.isReserved name = false) :
    Scoped scratch s s' [name] [] [.introduction name] where
  fresh := by
    intro x hx
    cases List.mem_singleton.1 hx
    exact (Symbols.declare_eq_ok_iff.1 h).1
  distinct := List.pairwise_singleton _ _
  inBlock_iff := by
    intro x
    rw [Symbols.inBlock_of_declare h, List.mem_singleton]
  outer := by rw [(Symbols.declare_eq_ok_iff.1 h).2]
  inner_distinct := by simp
  knows_iff := by
    intro x
    rw [Symbols.knows_of_declare h, List.mem_singleton, Node.Occurrence.introduction.injEq]
  assigned := by
    intro before target after heq
    rcases List.cons_eq_append_iff.1 heq with ⟨-, ⟨⟩⟩ | ⟨rest, -, hrest⟩
    simp at hrest
  unreserved := by
    intro o ho x hx
    cases List.mem_singleton.1 ho
    cases hx
    exact hres

theorem scoped_of_assigned {pos : Position} {name : Name} (hknows : s.Knows name)
    (hres : scratch.isReserved name = false) :
    Scoped scratch s s [] [] [.assignment (.ident pos name)] where
  fresh := by simp
  distinct := .nil
  inBlock_iff := by simp
  outer := rfl
  inner_distinct := by simp
  knows_iff := by simp
  assigned := by
    intro before target after heq
    rcases List.cons_eq_append_iff.1 heq with ⟨rfl, heq⟩ | ⟨rest, -, hrest⟩
    · cases heq
      exact ⟨pos, name, rfl, .inr hknows⟩
    · simp at hrest
  unreserved := by
    intro o ho x hx
    cases List.mem_singleton.1 ho
    cases hx
    exact hres

/-! ## Every statement is checked -/

variable {ctx : Context} {st st' : State} {code : Code}

theorem scoped_of_symbols (h : st'.symbols = st.symbols) :
    Scoped scratch st.symbols st'.symbols [] [] [] := by
  rw [h]
  exact .refl scratch _

theorem Extends.scoped (h : Extends st st') : Scoped scratch st.symbols st'.symbols [] [] [] :=
  scoped_of_symbols h.symbols

theorem parameters_scoped {params : List Param} {slots : List Slot}
    (h : parameters ctx params st = .ok (slots, st')) :
    Scoped ctx.scratch st.symbols st'.symbols (params.map (·.name)) []
      (params.map fun p => .introduction p.name) := by
  induction params generalizing st slots with
  | nil =>
    obtain ⟨-, rfl⟩ := pure_eq_ok.1 h
    exact .refl _ _
  | cons p rest ih =>
    obtain ⟨hres, mid, more, hd, hrest, -⟩ := parameters_cons_eq_ok h
    obtain ⟨symbols, hsymbols, rfl⟩ := declare_symbols hd
    exact (scoped_of_declare hsymbols hres).append (ih hrest)

theorem Lowers.scoped {ns : List Node} (h : Lowers ctx ns st st' code) :
    Scoped ctx.scratch st.symbols st'.symbols (Node.blockNames ns) (Node.innerBlocksOfAll ns)
      (Node.occurrencesOfAll ns) := by
  induction h with
  | cons _ _ ih ih' =>
    simp only [Node.blockNames, Node.innerBlocksOfAll, Node.occurrencesOfAll, List.flatMap_cons,
      List.flatMap_nil, List.append_nil] at ih ⊢
    exact ih.append ih'
  | @value _ n _ _ _ _ hvalue he =>
    have hnone : Node.blockNames [n] = [] ∧ Node.innerBlocksOfAll [n] = [] ∧
        Node.occurrencesOfAll [n] = [] := by
      cases n with
      | binary _ op =>
        have hop := (expr_binary_eq_ok he).1
        cases op <;> first | exact ⟨rfl, rfl, rfl⟩ | cases hop
      | _ => first | exact ⟨rfl, rfl, rfl⟩ | cases hvalue
    rw [hnone.1, hnone.2.1, hnone.2.2]
    exact (expr_extends n he).scoped
  | declare hres hd hr =>
    obtain ⟨symbols, hsymbols, rfl⟩ := declare_symbols hd
    rw [hr.extends_of.symbols]
    exact scoped_of_declare hsymbols hres
  | assign hres hknown hr =>
    rw [hr.extends_of.symbols]
    exact scoped_of_assigned (Option.isSome_iff_ne_none.2 hknown) hres
  | cond hc _ _ ih ih' =>
    simp only [Node.innerBlocksOfAll, Node.innerBlocks, Node.occurrencesOfAll, Node.occurrences,
      List.append_nil]
    exact (expr_extends _ hc).scoped.append (ih.block.append ih'.block)
  | loop hc _ ih =>
    simp only [Node.innerBlocksOfAll, Node.innerBlocks, Node.occurrencesOfAll, Node.occurrences,
      List.append_nil]
    exact (expr_extends _ hc).scoped.append ih.block
  | func hres hslots _ _ _ hdeclare _ _ ih =>
    -- the function itself is declared behind its body, in the block around it
    have hwhole := ((parameters_scoped hslots).append ih).block.append (scoped_of_declare hdeclare hres)
    simp only [Node.innerBlocksOfAll, Node.innerBlocks, Node.occurrencesOfAll, Node.occurrences,
      List.append_nil] at hwhole ⊢
    exact hwhole
  | ret _ hr => exact hr.extends_of.scoped
  | splice h => exact scoped_of_symbols (splice_symbols h)
  | nil | leave | pass => exact .refl _ _

end Lowering

/-- A program that compiles keeps the rules for names: no block introduces a name twice, neither the
top level nor one inside; each assignment is to a name that has been introduced further up, in
whatever block, or that is known from elsewhere; and no name that is introduced or assigned to is
that of a scratch cell. -/
theorem CodeUnit.scoped_of_compile {o : CompileOptions} {body : List Node} {u : CodeUnit}
    (h : CodeUnit.compile o (.program body) = .ok u) :
    (∀ names ∈ Node.blockNames body :: Node.innerBlocksOfAll body, names.Nodup) ∧
      (∀ before target after,
        Node.occurrencesOfAll body = before ++ .assignment target :: after →
        ∃ pos x, target = .ident pos x ∧
          (.introduction x ∈ before ∨ o.prelude.contains x = true)) ∧
      ∀ occurrence ∈ Node.occurrencesOfAll body, ∀ x, occurrence.name? = some x →
        x ∉ o.scratch.names := by
  obtain ⟨ctx, hscratch, -, -, -, st, hst, -⟩ := CodeUnit.compile_eq_ok h
  have hscoped := (Lowering.lowers_of_stmts body hst).scoped
  refine ⟨?_, hscoped.assigned, ?_⟩
  · exact List.forall_mem_cons.2 ⟨hscoped.distinct, hscoped.inner_distinct⟩
  · intro occurrence hmem x hx hname
    have hres := hscoped.unreserved occurrence hmem x hx
    obtain ⟨role, -, hrole⟩ := List.mem_map.1 hname
    have hreserved : ctx.scratch.isReserved x = true := by
      rw [hscratch]
      exact Scratch.isReserved_iff.2 ⟨role, by rw [Scratch.withDefaults_withDefaults]; exact hrole⟩
    rw [hres] at hreserved
    cases hreserved

namespace ReusedName

def source : Bytes :=
  "let n = 0; func add(a) \x7b let s = a; if s \x7b let s = 1; n = s; \x7d return s; \x7d n = add(2);"

/-- The name `s` is introduced in the function and once more in a block of it, where the program's
`n` is assigned to. -/
def body : List Node :=
  [.binary ⟨1, 1⟩ .declare (.ident ⟨1, 5⟩ "n") (.number ⟨1, 9⟩ 0) none,
    .func ⟨1, 17⟩ "add" [⟨⟨1, 21⟩, "a", none⟩] none
      [.binary ⟨1, 26⟩ .declare (.ident ⟨1, 30⟩ "s") (.ident ⟨1, 34⟩ "a") none,
        .cond ⟨1, 37⟩ (.ident ⟨1, 40⟩ "s")
          [.binary ⟨1, 44⟩ .declare (.ident ⟨1, 48⟩ "s") (.number ⟨1, 52⟩ 1) none,
            .binary ⟨1, 57⟩ .assign (.ident ⟨1, 55⟩ "n") (.ident ⟨1, 59⟩ "s") none]
          [],
        .ret ⟨1, 64⟩ (.ident ⟨1, 71⟩ "s")],
    .binary ⟨1, 78⟩ .assign (.ident ⟨1, 76⟩ "n")
      (.call ⟨1, 83⟩ (.ident ⟨1, 80⟩ "add") [.number ⟨1, 84⟩ 2]) none]

example : Program.ofSource source = (body, []) := rfl

theorem body_scoped :
    (∃ u, CodeUnit.compile {} (.program body) = .ok u) ∧
      Node.blockNames body :: Node.innerBlocksOfAll body =
        ([["n", "add"], ["a", "s"], ["s"], []] : List (List Name)) ∧
      (∀ names ∈ Node.blockNames body :: Node.innerBlocksOfAll body, names.Nodup) ∧
      ∃ before after, Node.occurrencesOfAll body =
          before ++ .assignment (.ident ⟨1, 55⟩ "n") :: after ∧
        .introduction (Bytes.ofString "n") ∈ before ∧
        Bytes.ofString "n" ∉ ({} : Scratch).names := by
  have hcompile : ∃ u, CodeUnit.compile {} (.program body) = .ok u := ⟨_, rfl⟩
  obtain ⟨u, hu⟩ := hcompile
  obtain ⟨hdistinct, hassigned, hunreserved⟩ := CodeUnit.scoped_of_compile hu
  have hsplit : Node.occurrencesOfAll body =
      [.introduction "n", .introduction "a", .introduction "s", .introduction "s"] ++
        .assignment (.ident ⟨1, 55⟩ "n") ::
          [.introduction "add", .assignment (.ident ⟨1, 76⟩ "n")] := rfl
  refine ⟨⟨u, hu⟩, rfl, hdistinct, _, _, hsplit, ?_, ?_⟩
  · obtain ⟨pos, x, hx, hearlier⟩ := hassigned _ _ _ hsplit
    cases hx
    exact hearlier.resolve_right (by decide)
  · refine hunreserved (.assignment (.ident ⟨1, 55⟩ "n")) ?_ _ rfl
    rw [hsplit]
    simp

end ReusedName

end UnitScript
