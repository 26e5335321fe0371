import UnitScript.Proofs.Lowering.Literals
import UnitScript.Proofs.Lowering.ReadBack

/-!
# How code with string literals is put together

The code of a program is put together from instructions without data operands, from instructions for
single literals, from scopes, from functions and from the code of imported units. What holds of these
parts and is kept when they are joined holds of all compiled code; the induction over the syntax is made
here once for all such properties.
-/

namespace UnitScript.Lowering

open Instruction

/-- A property of compilations that relates the imported names and the literals of some source, the
states in front of it and behind it, and its code. It holds of the parts that code is put together from,
and is kept when they are joined. -/
structure Assembly
    (P : Context → List Name → List Bytes → State → State → Code → Prop) : Prop where
  textless {ctx st c} : Textless c → P ctx [] [] st st c
  literal {ctx st i value} : i.op ≠ .scope → i.op ≠ .func → i.dataNames = [nextString ctx st] →
    P ctx [] [value] st (withString ctx st value) [i]
  append {ctx names more texts rest st mid st' c d} : P ctx names texts st mid c →
    P ctx more rest mid st' d → P ctx (names ++ more) (texts ++ rest) st st' (c ++ d)
  /-- Only the strings and the data count. -/
  of_same {ctx names texts st u v st' c} : P ctx names texts u v c → SameStrings st u →
    SameStrings v st' → P ctx names texts st st' c
  scope {ctx names texts st st' c} : P ctx names texts st st' c →
    P ctx names texts st st' [.scope c]
  /-- The body of a function is compiled with data of its own, which are merged behind it. -/
  function {ctx names texts st st' first last c record} : P ctx.inner names texts first last c →
    first.data = [] → first.strings = st.strings →
    Datum.merge st.data last.data = (st'.data, none) → st'.strings = last.strings →
    Encoding.code c = .ok record.body → (ctx.ImportsHave Formed names → Throughout Formed c) →
    P ctx names texts st st' [.function record]
  splice {ctx st st' name v} {includer : Includer} : ctx.includer = some includer →
    includer name = .ok v → Datum.merge st.data v.data = (st'.data, none) →
    st'.strings = st.strings → P ctx [name] [] st st' v.code

variable {ctx : Context} {live : Live} {st mid st' : State} {c d code : Code} {place src : Operand}
  {i : Instruction} {name : Name} {names more : List Name} {texts rest : List Bytes}
  {f : Operand → Instruction} {dst : Operand}

/-! ## Instructions without literals -/

theorem Context.IsPlace.dataName? (h : ctx.IsPlace place) : place.dataName? = none := by
  rcases h with rfl | rfl <;> rfl

theorem dataName?_of_operand? {n : Node} {o : Operand} (h : n.operand? = some o) :
    o.dataName? = none := by
  cases n with
  | number | ident =>
    cases h
    rfl
  | _ => cases h

/-- The instructions that a value is handed over with: they have no data operand but that one. -/
structure HandsOver (f : Operand → Instruction) : Prop where
  plain : ∀ src, (f src).op ≠ .scope ∧ (f src).op ≠ .func
  names : ∀ src, (f src).dataNames = src.dataName?.toList

theorem HandsOver.textless (hf : HandsOver f) (h : src.dataName? = none) : Textless [f src] := by
  intro i hi
  obtain rfl := List.mem_singleton.1 hi
  refine ⟨(hf.plain src).1, (hf.plain src).2, ?_⟩
  rw [hf.names, h]
  rfl

theorem dataNames_cons {o : Operand} {args : List Operand} (hi : i.args = o :: args)
    (hargs : ∀ a ∈ args, a.dataName? = none) : i.dataNames = o.dataName?.toList := by
  have hrest : args.filterMap Operand.dataName? = [] := List.filterMap_eq_nil_iff.2 hargs
  rw [dataNames, hi, List.filterMap_cons, hrest]
  cases o.dataName? <;> rfl

theorem handsOver_push : HandsOver .push :=
  ⟨fun _ => by simp [push], fun _ => dataNames_cons rfl (by simp)⟩

theorem handsOver_ret : HandsOver fun src => .ret [src] :=
  ⟨fun _ => by simp [ret], fun _ => dataNames_cons rfl (by simp)⟩

theorem handsOver_mov (h : dst.dataName? = none) : HandsOver fun src => .mov src dst :=
  ⟨fun _ => by simp [mov], fun _ => dataNames_cons rfl (by simpa using h)⟩

theorem handsOver_pmov {ptr index : Operand} (hptr : ptr.dataName? = none)
    (hindex : index.dataName? = none) : HandsOver fun src => .pmov src ptr index :=
  ⟨fun _ => by simp [pmov], fun _ => dataNames_cons rfl (by simp [hptr, hindex])⟩

theorem textless_mov (hsrc : src.dataName? = none) (hdst : dst.dataName? = none) :
    Textless [.mov src dst] :=
  (handsOver_mov hdst).textless hsrc

theorem textless_combine {a b : Operand} (op : Operator) (ha : a.dataName? = none)
    (hb : b.dataName? = none) (hdst : dst.dataName? = none) : Textless [combine op a b dst] := by
  have hargs : (combine op a b dst).args = [a, b, dst] := by cases op <;> rfl
  apply textless_single
  · cases op <;> simp [combine, arith, Instruction.cmp]
  · rw [hargs]
    simp [ha, hb, hdst]

theorem textless_var (storage : Storage) (name : Name) : Textless [.var storage name] :=
  textless_single (by simp [var]) (by simp [var])

theorem textless_cellDeclaration (ctx : Context) (role : Role) (used : Nat) :
    Textless (ctx.cellDeclaration role used) := by
  unfold Context.cellDeclaration
  split
  · exact textless_nil
  · exact textless_var _ _

theorem textless_declarations (s : Scratch) : Textless s.declarations := by
  intro i hi
  obtain ⟨r, -, rfl⟩ := List.mem_map.1 hi
  exact textless_var _ _ _ (List.mem_singleton_self _)

theorem textless_callOf (ctx : Context) (st : State) (name : Name) :
    Textless (callOf ctx st name).1 := by
  have hcall : ∀ {o : Operand}, o.dataName? = none → Textless [.call o] := fun h =>
    textless_single (by simp [call]) (by simpa [call] using h)
  have hpop : ∀ {o : Operand}, o.dataName? = none → Textless [.pop o] := fun h =>
    textless_single (by simp [pop]) (by simpa [pop] using h)
  have hnop : Textless [.nop] := textless_single (by simp [nop]) (by simp [nop])
  have htarget : (if (st.callKind name).isCallback then Operand.cell name
      else .func name).dataName? = none := by
    split <;> rfl
  refine (hcall htarget).append (d := (popResult ctx (st.callKind name).returned).1) ?_
  unfold popResult
  split
  · exact hpop rfl
  · exact hpop rfl
  · exact hnop
  · exact hnop
  · exact hpop rfl

/-! ## Joining code -/

namespace Assembly

variable {P : Context → List Name → List Bytes → State → State → Code → Prop}

section

variable (hP : Assembly P)
include hP

theorem before (h : P ctx names texts st st' c) (hd : Textless d) :
    P ctx names texts st st' (c ++ d) := by
  simpa using hP.append h (hP.textless hd)

theorem behind (h : P ctx names texts st st' d) (hc : Textless c) :
    P ctx names texts st st' (c ++ d) :=
  hP.append (hP.textless hc) h

theorem handed (hf : HandsOver f) (st : State) (value : Bytes) :
    P ctx [] [value] st (withString ctx st value) [f (.data (nextString ctx st))] :=
  hP.literal (hf.plain _).1 (hf.plain _).2 (hf.names _)

/-- A node whose value is handed over: a literal goes straight into the instruction. -/
theorem reach {n : Node} (h : Reach ctx live n st st' c src) (hf : HandsOver f)
    (hexpr : ∀ {c o}, expr ctx live n st = .ok ((c, o), st') → P ctx [] n.literals st st' c) :
    P ctx [] n.literals st st' (c ++ [f src]) := by
  cases h with
  | operand ho hst =>
    rw [hst, Node.literals_of_operand? ho]
    exact hP.textless (hf.textless (dataName?_of_operand? ho))
  | string hn hst =>
    rw [hst, hn, Node.literals]
    exact hP.handed hf st _
  | computed he => exact hP.before (hexpr he) (hf.textless (expr_computing n he).1.dataName?)

/-! ## Expressions -/

theorem of_hands {f : Nat → Operand → Instruction} {k : Nat} {ns : List Node}
    (h : Hands ctx live f k ns st st' code) (hf : ∀ k, HandsOver (f k))
    (hns : ∀ n ∈ ns, ∀ {st st' c o}, expr ctx live n st = .ok ((c, o), st') →
      P ctx [] n.literals st st' c) : P ctx [] (Node.literalsOfAll ns) st st' code := by
  induction h with
  | nil =>
    rw [Node.literalsOfAll]
    exact hP.textless textless_nil
  | cons hr _ ih =>
    rw [List.forall_mem_cons] at hns
    rw [Node.literalsOfAll]
    exact hP.append (hP.reach hr (hf _) hns.1) (ih hns.2)

theorem of_expr (n : Node) (h : expr ctx live n st = .ok ((code, place), st')) :
    P ctx [] n.literals st st' code := by
  induction n using Node.induction_value generalizing live st st' code place with
  | number =>
    obtain ⟨rfl, rfl, rfl⟩ := expr_number_eq_ok h
    rw [Node.literals]
    exact hP.textless (textless_mov rfl rfl)
  | string =>
    obtain ⟨rfl, rfl, rfl⟩ := expr_string_eq_ok h
    rw [Node.literals]
    exact hP.handed (handsOver_mov rfl) st _
  | ident =>
    obtain ⟨hplace, rfl, rfl⟩ := expr_ident_eq_ok h
    rw [Node.literals]
    exact hP.textless (textless_mov rfl (Context.IsPlace.dataName? hplace))
  | binary _ op left right _ ihl ihr =>
    obtain ⟨-, -, hform⟩ := expr_binary_eq_ok h
    rw [Node.literals]
    cases hform with
    | direct ha hb hst =>
      rw [hst, Node.literals_of_operand? ha, Node.literals_of_operand? hb]
      exact hP.textless
        (textless_combine op (dataName?_of_operand? ha) (dataName?_of_operand? hb) rfl)
    | onRight ha _ hr =>
      rw [Node.literals_of_operand? ha]
      exact hP.before (ihr hr) (textless_combine op (dataName?_of_operand? ha) rfl rfl)
    | onLeft _ hb hl =>
      rw [Node.literals_of_operand? hb, List.append_nil]
      exact hP.before (ihl hl) (textless_combine op rfl (dataName?_of_operand? hb) rfl)
    | onBoth _ _ hl hr =>
      have hdeclare := textless_cellDeclaration ctx .secondary live.secondary
      have hkeep : Textless [.mov ctx.primary (.cell (ctx.cellName .secondary live.secondary))] :=
        textless_mov rfl rfl
      have hleft := hP.before (hP.before (ihl hl) hdeclare) hkeep
      exact hP.before (hP.append hleft (ihr hr)) (textless_combine op rfl rfl rfl)
  | index _ name _ ih =>
    obtain ⟨-, c, hc, rfl⟩ := expr_index_eq_ok h
    have hadd : Textless [.arith .add (.cell name) ctx.primary ctx.primary] :=
      textless_combine .add rfl rfl rfl
    have hread : Textless [.deref ctx.primary ctx.primary] :=
      textless_single (by simp [deref]) (by simp [deref, Context.primary])
    rw [Node.literals]
    exact hP.before (ih hc) (hadd.append hread)
  | array _ elements ih =>
    obtain ⟨-, stores, hs, rfl⟩ := expr_array_eq_ok h
    have halloc : Textless [.alloc .i64 (Int64.ofNat elements.length)
        (.cell (ctx.cellName .aggregate live.aggregate))] :=
      textless_single (by simp [alloc]) (by simp [alloc])
    have hfront := (textless_cellDeclaration ctx .aggregate live.aggregate).append halloc
    rw [Node.literals]
    have hstores := hP.of_hands (hands_of_storeAll hs) (fun _ => handsOver_pmov rfl rfl)
      fun n hn => ih n hn
    exact hP.before (hP.behind hstores hfront) (textless_mov rfl rfl)
  | call _ callee args ih =>
    obtain ⟨name, pushes, hname, hp, rfl, -⟩ := expr_call_form h
    rw [Node.literals, Node.literals_of_uncalled hname]
    have hpushes := hP.of_hands (hands_of_pushAll hp 0) (fun _ => handsOver_push) fun n hn => ih n hn
    exact hP.before hpushes (textless_callOf ctx _ name)
  | property _ object member ih =>
    cases expr_property_form h with
    | call hname hp =>
      rw [Node.literals_of_pathName? hname]
      have hpushes := hP.of_hands (hands_of_pushAll hp 0) (fun _ => handsOver_push)
        fun n hn => ih n hn
      exact hP.before hpushes (textless_callOf ctx _ _)
    | cell hname hplace hst =>
      rw [hst, Node.literals_of_uncalled hname]
      exact hP.textless (textless_mov rfl (Context.IsPlace.dataName? hplace))
  | other n hn =>
    rw [isValue_of_expr h] at hn
    cases hn

theorem of_reach {n : Node} (h : Reach ctx live n st st' c src)
    (hf : HandsOver f) : P ctx [] n.literals st st' (c ++ [f src]) :=
  hP.reach h hf fun he => hP.of_expr n he

/-! ## Statements -/

theorem block (h : P ctx names texts st.entered st' c) : P ctx names texts st st'.left c :=
  hP.of_same h ⟨rfl, rfl⟩ ⟨rfl, rfl⟩

theorem condScope (hplace : place.dataName? = none) (hyes : P ctx names texts st mid c)
    (hno : P ctx more rest mid st' d) :
    P ctx (names ++ more) (texts ++ rest) st st' [condScope place c d] := by
  have hjeq : Textless [.jeq place (.imm 0) 3] :=
    textless_single (by simp [jeq]) (by simp [jeq, hplace])
  have hjmp : Textless [.jmp 4] := textless_single (by simp [jmp]) (by simp [jmp])
  have hbranches := hP.append (hP.before (hP.scope hyes) hjmp) (hP.scope hno)
  exact hP.scope (hP.behind hbranches hjeq)

theorem loopScope (hplace : place.dataName? = none) (htest : P ctx names texts st mid c)
    (hbody : P ctx more rest mid st' d) :
    P ctx (names ++ more) (texts ++ rest) st st' [loopScope c place d] := by
  have hjeq : Textless [.jeq place (.imm 0) 4] :=
    textless_single (by simp [jeq]) (by simp [jeq, hplace])
  have hjmp : Textless [.jmp 0] := textless_single (by simp [jmp]) (by simp [jmp])
  have hround := hP.append (hP.before (hP.scope htest) hjeq) (hP.scope hbody)
  exact hP.scope (hP.before hround hjmp)

/-- What is kept when code is joined holds of the code of all statements. -/
theorem of_lowers {ns : List Node} (h : Lowers ctx ns st st' code) :
    P ctx (Node.importsOfAll ns) (Node.literalsOfAll ns) st st' code := by
  have hstore : ∀ name, HandsOver fun src => .mov src (.cell name) := fun _ => handsOver_mov rfl
  induction h with
  | nil =>
    rw [Node.importsOfAll, Node.literalsOfAll]
    exact hP.textless textless_nil
  | cons _ _ ih ih' =>
    simp only [Node.importsOfAll, Node.literalsOfAll, List.append_nil] at ih ⊢
    exact hP.append ih ih'
  | @value _ n _ _ _ _ hvalue he =>
    have hnone : Node.importsOfAll [n] = [] := by cases n <;> first | rfl | cases hvalue
    rw [hnone, Node.literalsOfAll, Node.literalsOfAll, List.append_nil]
    exact hP.of_expr n he
  | @declare _ _ _ name _ _ _ storage _ _ _ _ _ _ hd hr =>
    simp only [Node.importsOfAll, Node.imports, Node.literalsOfAll, Node.literals, List.append_nil]
    have hinit := hP.of_same (hP.of_reach hr (hstore name)) (declare_eq_ok hd) ⟨rfl, rfl⟩
    exact hP.behind hinit (textless_var storage name)
  | @assign _ _ _ name _ _ _ _ _ _ _ _ hr =>
    simp only [Node.importsOfAll, Node.imports, Node.literalsOfAll, Node.literals, List.append_nil]
    have hassign := hP.of_reach hr (hstore name)
    exact hassign
  | @cond _ _ test _ _ _ _ _ _ _ _ _ _ hc _ _ ih ih' =>
    simp only [Node.importsOfAll, Node.imports, Node.literalsOfAll, Node.literals, List.append_nil]
    have hbranches := hP.condScope (expr_computing test hc).1.dataName? (hP.block ih) (hP.block ih')
    have hwhole := hP.append (hP.of_expr test hc) hbranches
    exact hwhole
  | @loop _ _ test _ _ _ _ _ _ _ hc _ ih =>
    simp only [Node.importsOfAll, Node.imports, Node.literalsOfAll, Node.literals, List.append_nil]
    have hloop := hP.loopScope (expr_computing test hc).1.dataName? (hP.of_expr test hc) (hP.block ih)
    exact hloop
  | @func ctx _ _ _ _ body _ _ _ _ _ _ _ _ hslots hlowers hencode hmerge _ hstrings _ ih =>
    obtain ⟨hfirst, hdata⟩ := parameters_strings hslots
    simp only [Node.importsOfAll, Node.imports, Node.literalsOfAll, Node.literals, List.append_nil]
    refine hP.function (hP.behind ih (textless_declarations ctx.scratch)) hdata hfirst hmerge hstrings
      hencode fun himports => ?_
    have hinner : ctx.inner.ImportsHave Formed (Node.importsOfAll body) := himports
    exact (formed_declarations ctx.scratch).append (hlowers.formed hinner)
  | ret _ hr =>
    simp only [Node.importsOfAll, Node.imports, Node.literalsOfAll, Node.literals, List.append_nil]
    exact hP.of_reach hr handsOver_ret
  | leave => exact hP.textless (textless_single (by simp [ret]) (by simp [ret]))
  | splice h =>
    obtain ⟨includer, unit, hinc, hunit, rfl, hmerge, hstrings⟩ := splice_eq_ok h
    exact hP.splice hinc hunit hmerge hstrings
  | pass => exact hP.textless (textless_single (by simp [nop]) (by simp [nop]))

end

end Assembly

end UnitScript.Lowering
