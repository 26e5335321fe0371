import UnitScript.Proofs.Lowering.Assembly
import UnitScript.Proofs.Machine.Data

/-!
# String constants and imports

The literals of a program are added to the data without a look at what is there, while the data of an
imported unit and of a function's body are merged. Of the entries of a name a machine takes the last.
So every literal is loaded as it is written, in functions too, whatever is imported, and a constant of
an imported unit is loaded as that unit has it unless a literal of the program with another text has
got its name.
-/

namespace UnitScript

namespace Lowering

open Instruction Datum

variable {ctx : Context} {live : Live} {st mid st' : State} {c d code : Code} {place src : Operand}
  {i : Instruction} {k l : Nat} {name : Name} {names more : List Name} {texts rest : List Bytes}

/-! ## What statements collect in the data -/

def Context.Unnumbered (ctx : Context) (k l : Nat) (name : Name) : Prop :=
  ∀ i, k ≤ i → i < l → name ≠ stringName ctx i

theorem Context.Unnumbered.mono {k' l' : Nat} (h : ctx.Unnumbered k l name) (hk : k ≤ k')
    (hl : l' ≤ l) : ctx.Unnumbered k' l' name :=
  fun i hi hi' => h i (Nat.le_trans hk hi) (Nat.lt_of_lt_of_le hi' hl)

theorem unnumbered_stringName {j : Nat} (h : j < k ∨ l ≤ j) :
    ctx.Unnumbered k l (stringName ctx j) := by
  rintro i hi hi' heq
  have := stringName_injective heq
  omega

/-- From `st` to `st'` the texts were numbered and added to the data, and what the imports of the names
give was merged. Entries of names that were not numbered agree as before and count as before. -/
structure Collects (ctx : Context) (names : List Name) (texts : List Bytes) (st st' : State) :
    Prop where
  strings : st'.strings = st.strings + texts.length
  grows : st.data ⊆ st'.data
  agree : ∀ name, ctx.Unnumbered st.strings st'.strings name → Agree st.data name →
    Agree st'.data name
  last : ∀ name s, ctx.Unnumbered st.strings st'.strings name → last? st.data name = some s →
    last? st'.data name = some s
  own : (∀ i, st.strings ≤ i → Agree st.data (stringName ctx i)) → ∀ j text,
    texts[j]? = some text → last? st'.data (stringName ctx (st.strings + j)) = some text
  imported : ∀ v, ctx.Imports names v → v.data ⊆ st'.data

theorem Collects.refl (ctx : Context) (st : State) : Collects ctx [] [] st st where
  strings := rfl
  grows := List.Subset.refl _
  agree _ _ h := h
  last _ _ _ h := h
  own _ j text hj := by simp at hj
  imported := by
    rintro v ⟨_, _, _, hname, _⟩
    cases hname

theorem Collects.trans (h : Collects ctx names texts st mid) (g : Collects ctx more rest mid st') :
    Collects ctx (names ++ more) (texts ++ rest) st st' := by
  have hstrings := h.strings
  have gstrings := g.strings
  refine ⟨?_, List.Subset.trans h.grows g.grows, ?_, ?_, ?_, ?_⟩
  · rw [gstrings, hstrings, List.length_append, Nat.add_assoc]
  · intro name hname hagree
    exact g.agree name (hname.mono (by omega) (Nat.le_refl _))
      (h.agree name (hname.mono (Nat.le_refl _) (by omega)) hagree)
  · intro name s hname hlast
    exact g.last name s (hname.mono (by omega) (Nat.le_refl _))
      (h.last name s (hname.mono (Nat.le_refl _) (by omega)) hlast)
  · intro hfresh j text hj
    by_cases hlt : j < texts.length
    · rw [List.getElem?_append_left hlt] at hj
      exact g.last _ _ (unnumbered_stringName (.inl (by omega))) (h.own hfresh j text hj)
    · rw [List.getElem?_append_right (by omega)] at hj
      have hmid : ∀ i, mid.strings ≤ i → Agree mid.data (stringName ctx i) := fun i hi =>
        h.agree _ (unnumbered_stringName (.inr hi)) (hfresh i (by omega))
      have hlast := g.own hmid (j - texts.length) text hj
      rwa [show mid.strings + (j - texts.length) = st.strings + j by omega] at hlast
  · rintro v ⟨includer, name, hinc, hname, hv⟩
    rcases List.mem_append.1 hname with hname | hname
    · exact List.Subset.trans (h.imported v ⟨includer, name, hinc, hname, hv⟩) g.grows
    · exact g.imported v ⟨includer, name, hinc, hname, hv⟩

theorem Collects.of_same {u v : State} (h : Collects ctx names texts u v) (hu : SameStrings st u)
    (hv : SameStrings v st') : Collects ctx names texts st st' := by
  obtain ⟨hu₁, hu₂⟩ := hu
  obtain ⟨hv₁, hv₂⟩ := hv
  obtain ⟨hstrings, hgrows, hagree, hlast, hown, himported⟩ := h
  rw [hu₁, ← hv₁] at hstrings hagree hlast
  rw [hu₂, ← hv₂] at hgrows hagree hlast
  rw [hu₁, hu₂, ← hv₂] at hown
  rw [← hv₂] at himported
  exact ⟨hstrings, hgrows, hagree, hlast, hown, himported⟩

/-- The body of a function numbers its literals as the stream around it does, and imports alike. -/
theorem Collects.of_inner (h : Collects ctx.inner names texts st st') :
    Collects ctx names texts st st' :=
  ⟨h.strings, h.grows, h.agree, h.last, h.own, h.imported⟩

theorem collects_withString (ctx : Context) (st : State) (value : Bytes) :
    Collects ctx [] [value] st (withString ctx st value) := by
  have hother : ∀ name, ctx.Unnumbered st.strings (st.strings + 1) name →
      nextString ctx st ≠ name :=
    fun name hname heq => hname st.strings (Nat.le_refl _) (Nat.lt_succ_self _) heq.symm
  refine ⟨rfl, List.subset_append_left _ _, ?_, ?_, ?_, ?_⟩
  · exact fun name hname hagree => agree_append hagree (hother name hname)
  · intro name s hname hlast
    rw [withString, last?_append, if_neg (hother name hname)]
    exact hlast
  · intro _ j text hj
    obtain ⟨rfl, rfl⟩ : j = 0 ∧ value = text := by
      cases j with
      | zero => exact ⟨rfl, Option.some.inj hj⟩
      | succ j => simp at hj
    rw [withString, last?_append]
    exact if_pos rfl
  · rintro v ⟨_, _, _, hname, _⟩
    cases hname

/-- The body of a function is compiled with data of its own. What its literals are named is new there,
so all entries of such a name agree when the data are merged. -/
theorem Collects.merge {first last : State} (h : Collects ctx names texts first last)
    (hdata : first.data = []) (hstrings : first.strings = st.strings)
    (hmerge : Datum.merge st.data last.data = (st'.data, none))
    (hlast : st'.strings = last.strings) : Collects ctx names texts st st' := by
  refine ⟨?_, subset_of_merge hmerge, ?_, ?_, ?_, ?_⟩
  · rw [hlast, h.strings, hstrings]
  · exact fun _ _ hagree => hagree.merge hmerge
  · exact fun _ _ _ hs => last?_of_merge hmerge hs
  · intro hfresh j text hj
    have hinner := h.own (fun i _ => by rw [hdata]; exact agree_nil _) j text hj
    rw [hstrings] at hinner
    have hmem := more_subset_of_merge hmerge (mem_of_last? hinner)
    exact ((hfresh _ (Nat.le_add_right _ _)).merge hmerge).last? hmem
  · exact fun v hv => List.Subset.trans (h.imported v hv) (more_subset_of_merge hmerge)

theorem collects_splice {v : CodeUnit} {includer : Includer} (hinc : ctx.includer = some includer)
    (hv : includer name = .ok v) (hmerge : Datum.merge st.data v.data = (st'.data, none))
    (hstrings : st'.strings = st.strings) : Collects ctx [name] [] st st' := by
  refine ⟨hstrings, subset_of_merge hmerge, ?_, ?_, ?_, ?_⟩
  · exact fun _ _ hagree => hagree.merge hmerge
  · exact fun _ _ _ hs => last?_of_merge hmerge hs
  · intro _ j text hj
    simp at hj
  · rintro w ⟨other, name', hother, hname, hw⟩
    rw [hinc] at hother
    cases hother
    rw [List.mem_singleton.1 hname, hv] at hw
    cases hw
    exact more_subset_of_merge hmerge

/-! ## Compiled code -/

/-- What the compilation of a node that has the texts and imports the names does to the data, and
what it gives. -/
structure Compiles (ctx : Context) (names : List Name) (texts : List Bytes) (st st' : State)
    (c : Code) : Prop where
  collects : Collects ctx names texts st st'
  spells : Spells ctx st.strings names texts c

theorem Textless.compiles (h : Textless c) : Compiles ctx [] [] st st c := ⟨.refl ctx st, h.spells⟩

theorem Compiles.append (hc : Compiles ctx names texts st mid c)
    (hd : Compiles ctx more rest mid st' d) :
    Compiles ctx (names ++ more) (texts ++ rest) st st' (c ++ d) := by
  refine ⟨hc.collects.trans hd.collects, hc.spells.append ?_⟩
  rw [← hc.collects.strings]
  exact hd.spells

theorem Compiles.of_same {u v : State} (h : Compiles ctx names texts u v c) (hu : SameStrings st u)
    (hv : SameStrings v st') : Compiles ctx names texts st st' c := by
  refine ⟨h.collects.of_same hu hv, ?_⟩
  rw [← hu.1]
  exact h.spells

theorem Compiles.scope (h : Compiles ctx names texts st st' c) :
    Compiles ctx names texts st st' [.scope c] :=
  ⟨h.collects, h.spells.scope⟩

theorem compiles_function {first last : State} {record : FunctionRecord}
    (h : Compiles ctx.inner names texts first last c) (hdata : first.data = [])
    (hfirst : first.strings = st.strings)
    (hmerge : Datum.merge st.data last.data = (st'.data, none))
    (hstrings : st'.strings = last.strings) (hbody : Encoding.code c = .ok record.body) :
    Compiles ctx names texts st st' [.function record] := by
  refine ⟨h.collects.of_inner.merge hdata hfirst hmerge hstrings, ?_⟩
  have hspells := h.spells
  rw [hfirst] at hspells
  exact hspells.function hbody

theorem compiles_assembly : Assembly Compiles where
  textless := Textless.compiles
  literal hscope hfunc hnames := ⟨collects_withString _ _ _, spells_data hscope hfunc hnames⟩
  append := Compiles.append
  of_same := Compiles.of_same
  scope := Compiles.scope
  function h hdata hfirst hmerge hstrings hbody _ :=
    compiles_function h hdata hfirst hmerge hstrings hbody
  splice {_ _ _ name _ includer} hinc hv hmerge hstrings :=
    ⟨collects_splice hinc hv hmerge hstrings,
      spells_splice ⟨includer, name, hinc, List.mem_singleton_self name, hv⟩⟩

theorem stmts_compiles (ns : List Node) (h : stmts ctx ns st = .ok (code, st')) :
    Compiles ctx (Node.importsOfAll ns) (Node.literalsOfAll ns) st st' code :=
  compiles_assembly.of_lowers (lowers_of_stmts ns h)

/-- In the end a constant of an imported unit counts unless a literal with another text has its
name. -/
theorem Collects.last?_imported (h : Collects ctx names texts st st') (hdata : st.data = [])
    (hstrings : st.strings = 0) {v : CodeUnit} (hv : ctx.Imports names v) {s : Bytes}
    (hs : find? v.data name = some s) :
    last? st'.data name = some s ↔
      ∀ k text, texts[k]? = some text → name = stringName ctx k → text = s := by
  have hagree : ∀ name, Agree st.data name := fun name => by
    rw [hdata]
    exact agree_nil name
  have hown : ∀ k text, texts[k]? = some text →
      last? st'.data (stringName ctx k) = some text := by
    intro k text hk
    have hlast := h.own (fun i _ => hagree _) k text hk
    rwa [hstrings, Nat.zero_add] at hlast
  constructor
  · rintro hlast k text hk rfl
    rw [hown k text hk] at hlast
    exact Option.some.inj hlast
  · intro hclash
    by_cases hnumbered : ∃ k text, texts[k]? = some text ∧ name = stringName ctx k
    · obtain ⟨k, text, hk, rfl⟩ := hnumbered
      rw [← hclash k text hk rfl]
      exact hown k text hk
    · have hother : ctx.Unnumbered st.strings st'.strings name := by
        intro i _ hi heq
        have hlt : i < texts.length := by
          have := h.strings
          omega
        exact hnumbered ⟨i, texts[i], List.getElem?_eq_getElem hlt, heq⟩
      exact (h.agree name hother (hagree name)).last? (h.imported v hv (mem_of_find? hs))

end Lowering

/-- The unit is what an import in the program gives, at the top or inside of a statement. -/
def CompileOptions.Provides (o : CompileOptions) (body : List Node) (v : CodeUnit) : Prop :=
  ∃ includer name, o.includer = some includer ∧ name ∈ Node.importsOfAll body ∧
    includer name = .ok v

/-- In runs of a compiled unit, with or without the scratch cells declared in front, the data operands
of the program's own code are loaded as the string literals of the program, one after the other, in
functions as well. A constant of an imported unit is loaded as that unit has it if and only if no
literal of the program with another text has got the same name. -/
theorem CodeUnit.constants_loaded {o : CompileOptions} {body : List Node} {u w : CodeUnit}
    (hcompile : compile o (.program body) = .ok u) (hw : w = u ∨ w = u.declareScratch o.scratch) :
    Renders w.Loads (o.Provides body) (Node.literalsOfAll body) u.code ∧
    ∀ v, o.Provides body v → ∀ name s, Datum.find? v.data name = some s →
      (w.Loads name s ↔ ∀ k text, (Node.literalsOfAll body)[k]? = some text →
        name = u.name ++ ".str" ++ Bytes.ofNat k → text = s) := by
  obtain ⟨ctx, -, hinc, -, -, st, hstmts, hdata, -, hname⟩ := compile_eq_ok hcompile
  have hwdata : w.data = st.data := by
    rw [← hdata]
    rcases hw with rfl | rfl <;> rfl
  have himports : ∀ v, ctx.Imports (Node.importsOfAll body) v ↔ o.Provides body v := by
    intro v
    unfold Lowering.Context.Imports CompileOptions.Provides
    rw [hinc]
  have hcompiles := Lowering.stmts_compiles body hstmts
  refine ⟨hcompiles.spells ?_ fun v hv => (himports v).1 hv, ?_⟩
  · intro k text hk
    rw [CodeUnit.loads_iff, hwdata]
    exact hcompiles.collects.own (fun i _ => Datum.agree_nil _) k text hk
  · intro v hv name s hs
    rw [CodeUnit.loads_iff, hwdata, hname]
    exact hcompiles.collects.last?_imported rfl rfl ((himports v).2 hv) hs

/-! ## A literal with the name of an imported constant -/

open Machine

/-- Prints its string constant, which is named `lib.str0`. -/
def greetingUnit : CodeUnit :=
  (CodeUnit.compile { name := "lib", prelude := Builtin.prelude }
    (.program (Program.ofSource "io.println(\"hello\");").1)).toOption.getD { name := [] }

/-- For a program that bears the name of what it imports. -/
def clashingOptions : CompileOptions :=
  { name := "lib", prelude := Builtin.prelude, includer := some fun _ => .ok greetingUnit }

/-- The first literal gets the name `lib.str0`, and the one in the function the name `lib.str1`. -/
def clashingBody : List Node :=
  (Program.ofSource ("import lib; let x = \"world\"; " ++
    "func f(): string \x7b return \"again\"; \x7d return 0;")).1

def clashingUnit : CodeUnit :=
  (CodeUnit.compile clashingOptions (.program clashingBody)).toOption.getD { name := [] }

/-- The imported unit has `hello` under the name, the operand in its code is loaded as `world`, and
that is what the run prints. -/
theorem clashing_constants_loaded :
    CodeUnit.compile clashingOptions (.program clashingBody) = .ok clashingUnit ∧
    Renders (clashingUnit.declareScratch {}).Loads (clashingOptions.Provides clashingBody)
      ["world", "again"] clashingUnit.code ∧
    clashingOptions.Provides clashingBody greetingUnit ∧
    Datum.find? greetingUnit.data "lib.str0" = some "hello" ∧
    ¬(clashingUnit.declareScratch {}).Loads "lib.str0" "hello" ∧
    (runWithin 30 {} (clashingUnit.declareScratch {})
      (ofUnit (clashingUnit.declareScratch {}) (some {}))).2.console.map (·.output.toList) =
        some "world\n" := by
  have hchecks : (CodeUnit.compile clashingOptions (.program clashingBody)).isOk = true ∧
      Node.literalsOfAll clashingBody = ["world", "again"] ∧
      Datum.find? greetingUnit.data "lib.str0" = some "hello" ∧
      (runWithin 30 {} (clashingUnit.declareScratch {})
        (ofUnit (clashingUnit.declareScratch {}) (some {}))).2.console.map (·.output.toList) =
          some "world\n" := by
    decide +kernel
  obtain ⟨hok, hliterals, hhello, houtput⟩ := hchecks
  have hcompile : CodeUnit.compile clashingOptions (.program clashingBody) = .ok clashingUnit :=
    eq_ok_of_isOk hok _
  have hprovides : clashingOptions.Provides clashingBody greetingUnit :=
    ⟨_, "lib", rfl, by decide +kernel, rfl⟩
  obtain ⟨hrenders, hiff⟩ := CodeUnit.constants_loaded hcompile (.inr rfl)
  rw [hliterals] at hrenders
  refine ⟨hcompile, hrenders, hprovides, hhello, fun hloads => ?_, houtput⟩
  have hclash := (hiff _ hprovides _ _ hhello).1 hloads 0 "world"
  rw [hliterals] at hclash
  exact absurd (hclash rfl (by decide +kernel)) (by decide)

end UnitScript
