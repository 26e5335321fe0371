import UnitScript.Proofs.Lowering.Signatures
import UnitScript.Proofs.Lowering.Standalone

/-!
# Compiled code and the stack

The code of an expression leaves the stack as deep as it found it: the arguments of a call are pushed
in front of it, the call takes them, and its result is taken from the stack behind it, if the kind that
is recorded for its target says that there is one. The kind is the right one when the program keeps to
its signatures. So statements leave the stack as it is, and so do the bodies of functions, apart from
the value that a return leaves.
-/

namespace UnitScript

namespace Kind

theorem tag_ne_other_of_parse? {text : Bytes} {t : Tag} (h : Tag.parse? text = some t) (c : Int) :
    t ≠ .other c := by
  rintro rfl
  unfold Tag.parse? at h
  repeat'
    split at h
  all_goals cases h

theorem tag_ofWritten_ne_other (t : Option TypeExpr) (c : Int) : (ofWritten t).tag ≠ .other c := by
  match t with
  | none | some (.callback _) | some (.callbackOf ..) => exact nofun
  | some (.named _ name) =>
    cases hp : Tag.parse? name with
    | none => simp [ofWritten, ofTypeExpr, hp]
    | some tag => simpa [ofWritten, ofTypeExpr, hp] using tag_ne_other_of_parse? hp c

theorem leaves_orNumber {t : Option TypeExpr} (h : (orNumber t).tag ≠ .callback) :
    (if Storage.ofKind (orNumber t) = .none then 0 else 1) = (orNumber t).leaves := by
  unfold orNumber at h ⊢
  split
  · rfl
  · next hdefined =>
    rw [if_neg hdefined] at h
    have hknown := tag_ofWritten_ne_other t
    generalize ofWritten t = k at h hdefined hknown
    obtain ⟨tag, result⟩ := k
    cases tag with
    | undefined => exact absurd rfl hdefined
    | callback => exact absurd rfl h
    | other c => exact absurd rfl (hknown c)
    | number | string | struct | null => rfl

end Kind

namespace Lowering

open Instruction

variable {ctx : Context} {live : Live} {st mid st' : State} {c code : Code} {place src : Operand}
  {i : Instruction} {sigs known : List Signature} {v : Option Nat} {d : Nat} {n : Node}

/-! ## Expressions -/

theorem shifts_plain (hlocal : i.op.isLocal = true) (hpush : i.op ≠ .push) (hpop : i.op ≠ .pop) :
    Shifts sigs v d [i] d :=
  .step (.plain hlocal hpush hpop) .nil

theorem shifts_combine (op : Operator) (a b dst : Operand) :
    Shifts sigs v d [combine op a b dst] d := by
  apply shifts_plain (Meaning.isLocal_combine op a b dst)
  · cases op <;> simp [combine, Instruction.arith, Instruction.cmp]
  · cases op <;> simp [combine, Instruction.arith, Instruction.cmp]

theorem shifts_mov (src dst : Operand) : Shifts sigs v d [.mov src dst] d :=
  shifts_plain rfl nofun nofun

theorem shifts_var (storage : Storage) (x : Name) : Shifts sigs v d [.var storage x] d :=
  shifts_plain rfl nofun nofun

theorem shifts_cellDeclaration (ctx : Context) (role : Role) (n : Nat) :
    Shifts sigs v d (ctx.cellDeclaration role n) d := by
  cases n with
  | zero => exact .nil
  | succ n => exact shifts_var _ _

/-- A call takes the arguments that are on the stack, and its result is taken from there behind it. -/
theorem shifts_callOf {s : Signature} (hs : s ∈ sigs) (hplain : s.result.tag ≠ .callback)
    (hkind : st.symbols.lookup? s.name = some s.result) :
    Shifts sigs v (d + s.arity) (callOf ctx st s.name).1 d := by
  have hcallKind : st.callKind s.name = s.result := by simp [State.callKind, hkind]
  have hdirect : s.result.isCallback = false := by simpa [Kind.isCallback] using hplain
  have hreturned : s.result.returned = s.result := by simp [Kind.returned, Kind.hasResult, hplain]
  have hpop : Shifts sigs v (d + s.result.leaves) (popResult ctx s.result).1 d := by
    unfold popResult Kind.leaves
    cases htag : s.result.tag with
    | callback => exact absurd htag hplain
    | null => exact shifts_plain rfl nofun nofun
    | string | struct | undefined | number | other => exact .step (.pop rfl) .nil
  simp only [callOf, hcallKind, hdirect, hreturned]
  exact .step (.call rfl rfl hs) hpop

theorem Reach.shifts (h : Reach ctx live n st st' c src)
    (hexpr : ∀ {c o}, expr ctx live n st = .ok ((c, o), st') → Shifts sigs v d c d) :
    Shifts sigs v d c d := by
  cases h with
  | operand | string => exact .nil
  | computed he => exact hexpr he

theorem shifts_knownCall (hsigs : ∀ s ∈ known, s ∈ sigs ∧ s.result.tag ≠ .callback)
    (hst : st.Agrees known) {name : Name} {count : Nat}
    (h : Node.isKnownCall known name count = true) :
    Shifts sigs v (d + count) (callOf ctx st name).1 d := by
  obtain ⟨s, hs, hmatch⟩ := List.any_eq_true.1 h
  obtain ⟨hname, harity⟩ : s.name = name ∧ s.arity = count := by simpa using hmatch
  subst hname harity
  exact shifts_callOf (hsigs s hs).1 (hsigs s hs).2 (hst s hs)

theorem Extends.agrees (h : Extends st st') (hst : st.Agrees known) : st'.Agrees known :=
  hst.of_kinds (by rw [h.symbols])

theorem Hands.shifts {f : Nat → Operand → Instruction} {k w : Nat} {ns : List Node}
    (h : Hands ctx live f k ns st st' c) (hst : st.Agrees known)
    (hf : ∀ k src d, Shifts sigs v d [f k src] (d + w))
    (hns : ∀ n ∈ ns, ∀ {d st st' c o}, st.Agrees known →
      expr ctx live n st = .ok ((c, o), st') → Shifts sigs v d c d) :
    Shifts sigs v d c (d + w * ns.length) := by
  induction h generalizing d with
  | nil => exact .nil
  | @cons _ _ rest _ _ _ first _ more hr _ ih =>
    rw [List.forall_mem_cons] at hns
    have hfirst : Shifts sigs v d first d := hr.shifts (hns.1 hst)
    have hmore : Shifts sigs v (d + w) more (d + w + w * rest.length) :=
      ih (hr.extends_of.agrees hst) hns.2
    rw [List.length_cons, Nat.mul_succ, Nat.add_comm (w * _), ← Nat.add_assoc]
    exact (hfirst.append (hf _ _ _)).append hmore

theorem pushAll_shifts {args : List Node} (hst : st.Agrees known)
    (hargs : ∀ n ∈ args, ∀ {d st st' c o}, st.Agrees known →
      expr ctx live n st = .ok ((c, o), st') → Shifts sigs v d c d)
    (h : pushAll ctx live args st = .ok (c, st')) : Shifts sigs v d c (d + args.length) := by
  have hpushes := (hands_of_pushAll h 0).shifts (d := d) hst (fun _ _ _ => .step (.push rfl) .nil) hargs
  rwa [Nat.one_mul] at hpushes

theorem expr_shifts (hsigs : ∀ s ∈ known, s ∈ sigs ∧ s.result.tag ≠ .callback) (n : Node)
    (hn : n.callsKnown known = true) (hst : st.Agrees known)
    (h : expr ctx live n st = .ok ((c, place), st')) : Shifts sigs v d c d := by
  induction n using Node.induction_value generalizing live st st' c place d with
  | number =>
    obtain ⟨-, rfl, -⟩ := expr_number_eq_ok h
    exact shifts_mov _ _
  | string =>
    obtain ⟨-, rfl, -⟩ := expr_string_eq_ok h
    exact shifts_mov _ _
  | ident =>
    obtain ⟨-, rfl, -⟩ := expr_ident_eq_ok h
    exact shifts_mov _ _
  | binary _ op left right _ ihl ihr =>
    obtain ⟨-, -, hform⟩ := expr_binary_eq_ok h
    rw [Node.callsKnown, Bool.and_eq_true] at hn
    cases hform with
    | direct => exact shifts_combine op _ _ _
    | onRight _ _ hr => exact (ihr hn.2 hst hr).append (shifts_combine op _ _ _)
    | onLeft _ _ hl => exact (ihl hn.1 hst hl).append (shifts_combine op _ _ _)
    | @onBoth leftCode rightCode mid _ _ hl hr =>
      have hleft : Shifts sigs v d leftCode d := ihl hn.1 hst hl
      have hright : Shifts sigs v d rightCode d :=
        ihr hn.2 ((expr_extends left hl).agrees hst) hr
      have hdeclared := hleft.append (shifts_cellDeclaration ctx .secondary live.secondary)
      exact ((hdeclared.append (shifts_mov _ _)).append hright).append (shifts_combine op _ _ _)
  | index _ _ _ ih =>
    obtain ⟨-, c, hc, rfl⟩ := expr_index_eq_ok h
    have hindex : Shifts sigs v d c d := ih hn hst hc
    exact hindex.append ((shifts_combine .add _ _ _).append (shifts_plain rfl nofun nofun))
  | array _ elements ih =>
    obtain ⟨-, stores, hs, rfl⟩ := expr_array_eq_ok h
    have hall := Node.allCallsKnown_iff.1 hn
    have hstores := (hands_of_storeAll hs).shifts (d := d) (v := v) (w := 0) hst
      (fun _ _ _ => shifts_plain rfl (by rintro ⟨⟩) (by rintro ⟨⟩))
      fun n hn _ _ _ _ _ => ih n hn (hall n hn)
    rw [Nat.zero_mul] at hstores
    have halloc : Shifts sigs v d (ctx.cellDeclaration .aggregate live.aggregate ++
        [.alloc .i64 (Int64.ofNat elements.length)
          (.cell (ctx.cellName .aggregate live.aggregate))]) d :=
      (shifts_cellDeclaration ctx _ _).append (shifts_plain rfl nofun nofun)
    exact (halloc.append hstores).append (shifts_mov _ _)
  | call _ callee args ih =>
    obtain ⟨name, pushes, hname, hp, rfl, -⟩ := expr_call_form h
    rw [Node.callsKnown, hname, Bool.and_eq_true] at hn
    have hall := Node.allCallsKnown_iff.1 hn.2
    exact (pushAll_shifts hst (fun n hn _ _ _ _ _ => ih n hn (hall n hn)) hp).append
      (shifts_knownCall hsigs ((pushAll_extends args hp).agrees hst) hn.1)
  | property _ _ member ih =>
    rw [Node.callsKnown, Bool.and_eq_true] at hn
    cases expr_property_form h with
    | call hname hp =>
      rw [hname] at hn
      have hall := Node.forall_mem_pathArgs (P := fun n => n.pathCallsKnown known = true) (fun h => h)
        Node.allCallsKnown_iff.1 hn.2
      exact (pushAll_shifts hst (fun n hn _ _ _ _ _ => ih n hn (hall n hn)) hp).append
        (shifts_knownCall hsigs ((pushAll_extends _ hp).agrees hst) hn.1)
    | cell => exact shifts_mov _ _
  | other n hvalue =>
    rw [isValue_of_expr h] at hvalue
    cases hvalue

end Lowering

/-! ## Statements that keep to the signatures -/

namespace Node

variable {v w : Option Nat} {n : Node} {rest inside : List Node}

/-- The blocks of a statement, each with what its returns are to leave. -/
def blocks (v : Option Nat) : Node → List (Option Nat × List Node)
  | cond _ _ yes no => [(v, yes), (v, no)]
  | loop _ _ body => [(v, body)]
  | func _ _ _ result body => [(some (Kind.orNumber result).leaves, body)]
  | _ => []

/-- Statements that import nothing and declare no name twice, whose functions do not have too many
parameters, and whose returns leave what they are to leave. -/
structure Orderly (v : Option Nat) (ns : List Node) : Prop where
  alone : importsOfAll ns = []
  dotless : ∀ n ∈ ns, n.Dotless
  few : AllFewParams ns
  returns : allReturnsMatch v ns = true
  distinct : (introducedAll ns).Nodup

theorem returnsMatch_ret {pos : Position} (h : (ret pos n).returnsMatch v = true) {k : Nat}
    (hv : v = some k) : (n = missing → k = 0) ∧ (n ≠ missing → k = 1) := by
  subst hv
  constructor
  · rintro rfl
    simpa [returnsMatch] using h
  · intro hn
    rw [returnsMatch.eq_2 _ _ _ hn] at h
    simpa using h

theorem Orderly.cons (h : Orderly v (n :: rest)) : Orderly v [n] ∧ Orderly v rest := by
  have halone := List.append_eq_nil_iff.1 h.alone
  have hdotless := List.forall_mem_cons.1 h.dotless
  have hreturns := (Bool.and_eq_true _ _).mp h.returns
  have hdistinct := List.nodup_append.1 h.distinct
  constructor
  · exact ⟨by simp [importsOfAll, halone.1], by simpa using hdotless.1, ⟨h.few.1, trivial⟩,
      by simp [allReturnsMatch, hreturns.1], by simpa [introducedAll] using hdistinct.1⟩
  · exact ⟨halone.2, hdotless.2, h.few.2, hreturns.2, hdistinct.2.1⟩

theorem Orderly.block (h : Orderly v [n]) (hb : (w, inside) ∈ n.blocks v) : Orderly w inside := by
  have hdotless : n.Dotless := h.dotless n (by simp)
  have halone : n.imports = [] := by simpa [importsOfAll] using h.alone
  have hreturns : n.returnsMatch v = true := by simpa [allReturnsMatch] using h.returns
  have hdistinct : n.introduced.Nodup := by simpa [introducedAll] using h.distinct
  have hfew : n.FewParams := h.few.1
  cases n with
  | cond _ test yes no =>
    have hreturn := (Bool.and_eq_true _ _).mp hreturns
    have hnames := List.nodup_append.1 hdistinct
    have himports := List.append_eq_nil_iff.1 halone
    rcases List.mem_cons.1 hb with hyes | hno
    · cases hyes
      exact ⟨himports.1, hdotless.of_names fun x hx => by simp [names, hx], hfew.1, hreturn.1, hnames.1⟩
    · cases List.mem_singleton.1 hno
      exact ⟨himports.2, hdotless.of_names fun x hx => by simp [names, hx], hfew.2, hreturn.2,
        hnames.2.1⟩
  | loop =>
    cases List.mem_singleton.1 hb
    exact ⟨halone, hdotless.of_names fun x hx => by simp [names, hx], hfew, hreturns, hdistinct⟩
  | func =>
    cases List.mem_singleton.1 hb
    have hbody := (List.nodup_append.1 hdistinct).1
    exact ⟨halone, hdotless.of_names fun x hx => by simp [names, hx], hfew.2, hreturns,
      (List.nodup_append.1 hbody).2.1⟩
  | _ => cases hb

end Node

namespace Lowering

open Instruction

variable {ctx : Context} {st mid st' : State} {c code : Code} {place src : Operand}
  {i : Instruction} {sigs known : List Signature} {v : Option Nat} {d : Nat} {n : Node}

/-- Orderly statements that keep to the signatures: those that are known in front of them, and those of
their own functions. They are compiled from a state that agrees with what is known. -/
structure Regular (sigs known : List Signature) (v : Option Nat) (ctx : Context) (st : State)
    (ns : List Node) : Prop where
  defaults : ctx.scratch.withDefaults = ctx.scratch
  orderly : Node.Orderly v ns
  calls : Node.blockCallsKnown known ns = true
  fresh : ∀ s ∈ known, s.name ∉ Node.introducedAll ns
  agrees : st.Agrees known
  listed : ∀ s ∈ known ++ Node.functionsAll ns, s ∈ sigs ∧ s.result.tag ≠ .callback

namespace Regular

variable {pos : Position} {test : Node} {yes no body rest ns : List Node} {name : Name}
  {params : List Param} {result : Option TypeExpr} {slots : List Slot}

theorem known_listed (h : Regular sigs known v ctx st ns) :
    ∀ s ∈ known, s ∈ sigs ∧ s.result.tag ≠ .callback :=
  fun s hs => h.listed s (List.mem_append_left _ hs)

theorem first (h : Regular sigs known v ctx st (n :: rest)) : Regular sigs known v ctx st [n] := by
  have hcalls := (Bool.and_eq_true _ _).mp h.calls
  refine ⟨h.defaults, h.orderly.cons.1, by simp [Node.blockCallsKnown, hcalls.1], ?_, h.agrees, ?_⟩
  · intro s hs hmem
    exact h.fresh s hs (List.mem_append_left _ (by simpa [Node.introducedAll] using hmem))
  · intro s hs
    apply h.listed s
    simp only [Node.functionsAll, List.append_nil, List.mem_append] at hs ⊢
    exact hs.imp_right .inl

theorem next (h : Regular sigs known v ctx st (n :: rest)) (hc : Lowers ctx [n] st mid c) :
    Regular sigs (known ++ n.functions) v ctx mid rest := by
  obtain ⟨entries, hrecords⟩ := hc.records
  simp only [Node.introducedAll, Node.functionsAll, List.append_nil] at hrecords
  obtain ⟨hagrees, hfresh⟩ := hrecords.behind h.orderly.distinct h.fresh h.agrees
  refine ⟨h.defaults, h.orderly.cons.2, ((Bool.and_eq_true _ _).mp h.calls).2, hfresh, hagrees, ?_⟩
  intro s hs
  apply h.listed s
  rwa [Node.functionsAll, ← List.append_assoc]

/-! What holds of a statement by itself. -/

theorem callsKnown (h : Regular sigs known v ctx st [n]) : n.callsKnown known = true := by
  simpa [Node.blockCallsKnown] using h.calls

theorem notIntroduced (h : Regular sigs known v ctx st [n]) :
    ∀ s ∈ known, s.name ∉ n.introduced := by
  simpa [Node.introducedAll] using h.fresh

theorem functions_listed (h : Regular sigs known v ctx st [n]) :
    ∀ s ∈ known ++ n.functions, s ∈ sigs ∧ s.result.tag ≠ .callback := by
  have hlisted := h.listed
  rwa [Node.functionsAll, Node.functionsAll, List.append_nil] at hlisted

theorem block {w : Option Nat} {known' : List Signature} {ctx' : Context}
    (h : Regular sigs known v ctx st [n]) (hctx : ctx'.scratch = ctx.scratch)
    (hb : (w, ns) ∈ n.blocks v) (hcalls : Node.blockCallsKnown known' ns = true)
    (hfresh : ∀ s ∈ known', s.name ∉ Node.introducedAll ns) (hagrees : mid.Agrees known')
    (hlisted : ∀ s ∈ known' ++ Node.functionsAll ns, s ∈ known ++ n.functions) :
    Regular sigs known' w ctx' mid ns := by
  refine ⟨?_, h.orderly.block hb, hcalls, hfresh, hagrees, fun s hs => ?_⟩
  · rw [hctx]
    exact h.defaults
  · exact h.functions_listed s (hlisted s hs)

theorem cond_yes (h : Regular sigs known v ctx st [.cond pos test yes no]) (hmid : Extends st mid) :
    Regular sigs known v ctx mid.entered yes := by
  have hcalls := (Bool.and_eq_true _ _).mp h.callsKnown
  have hcalls' := (Bool.and_eq_true _ _).mp hcalls.1
  have hagrees : mid.entered.Agrees known := (hmid.agrees h.agrees).of_kinds rfl
  refine h.block rfl List.mem_cons_self hcalls'.2 ?_ hagrees ?_
  · exact fun s hs hmem => h.notIntroduced s hs (List.mem_append_left _ hmem)
  · simp only [Node.functions, List.mem_append]
    exact fun s hs => hs.imp_right .inl

theorem cond_no {mid' : State} (h : Regular sigs known v ctx st [.cond pos test yes no])
    (hmid : Extends st mid) (hyes : Lowers ctx yes mid.entered mid' c) :
    Regular sigs (known ++ Node.functionsAll yes) v ctx mid'.left.entered no := by
  have hcalls := (Bool.and_eq_true _ _).mp h.callsKnown
  obtain ⟨entries, hrecords⟩ := hyes.records
  have hdistinct : (Node.introducedAll yes ++ Node.introducedAll no).Nodup := by
    simpa [Node.introducedAll, Node.introduced] using h.orderly.distinct
  obtain ⟨hagrees, hfresh⟩ := hrecords.block.behind hdistinct h.notIntroduced (hmid.agrees h.agrees)
  refine h.block rfl (.tail _ (.head _)) hcalls.2 hfresh (hagrees.of_kinds rfl) ?_
  intro s hs
  rwa [Node.functions, ← List.append_assoc]

theorem loop_body (h : Regular sigs known v ctx st [.loop pos test body]) (hmid : Extends st mid) :
    Regular sigs known v ctx mid.entered body := by
  have hcalls := (Bool.and_eq_true _ _).mp h.callsKnown
  have hagrees : mid.entered.Agrees known := (hmid.agrees h.agrees).of_kinds rfl
  exact h.block rfl List.mem_cons_self hcalls.2 h.notIntroduced hagrees fun s hs => hs

theorem func_body (h : Regular sigs known v ctx st [.func pos name params result body])
    (hslots : parameters ctx.inner params st.inner = .ok (slots, mid)) :
    Regular sigs known (some (Kind.orNumber result).leaves) ctx.inner mid body := by
  obtain ⟨entries, hentries, hnames⟩ := parameters_records hslots
  have hrecords : RecordsOf st.inner mid (params.map (·.name)) [] entries := ⟨hentries, hnames, nofun⟩
  have hdistinct : (params.map (·.name) ++ Node.introducedAll body ++ [name]).Nodup := by
    simpa [Node.introducedAll, Node.introduced] using h.orderly.distinct
  have hfresh : ∀ s ∈ known, s.name ∉ params.map (·.name) ++ Node.introducedAll body :=
    fun s hs hmem => h.notIntroduced s hs (List.mem_append_left _ hmem)
  obtain ⟨hagrees, hbody⟩ := hrecords.behind (List.nodup_append.1 hdistinct).1 hfresh
    (h.agrees.of_kinds rfl)
  rw [List.append_nil] at hagrees hbody
  refine h.block rfl List.mem_cons_self h.callsKnown hbody hagrees ?_
  simp only [Node.functions, List.mem_append]
  exact fun s hs => hs.imp_right .inl

end Regular

/-! ## The code of statements -/

/-- Code without jumps that leaves the stack as it is, unless it returns. -/
structure Neutral (sigs : List Signature) (v : Option Nat) (c : Code) : Prop where
  noJump : NoJump c
  shifts : Shifts sigs v 0 c 0

theorem neutral_nil : Neutral sigs v [] := ⟨by simp [NoJump], .nil⟩

theorem Neutral.append {more : Code} (hc : Neutral sigs v c) (hmore : Neutral sigs v more) :
    Neutral sigs v (c ++ more) :=
  ⟨hc.noJump.append hmore.noJump, hc.shifts.append hmore.shifts⟩

theorem neutral_single (hjump : i.op.isJump = false) (h : Shifts sigs v 0 [i] 0) :
    Neutral sigs v [i] :=
  ⟨by simpa [NoJump] using hjump, h⟩

theorem neutral_expr {live : Live} (hsigs : ∀ s ∈ known, s ∈ sigs ∧ s.result.tag ≠ .callback)
    (hn : n.callsKnown known = true) (hst : st.Agrees known)
    (h : expr ctx live n st = .ok ((c, place), st')) : Neutral sigs v c :=
  ⟨(expr_computing n h).2.lowered.noJump, expr_shifts hsigs n hn hst h⟩

theorem Reach.neutral {live : Live} (hsigs : ∀ s ∈ known, s ∈ sigs ∧ s.result.tag ≠ .callback)
    (hn : n.callsKnown known = true) (hst : st.Agrees known)
    (h : Reach ctx live n st st' c src) : Neutral sigs v c :=
  ⟨h.of_expr.lowered.noJump, h.shifts fun he => expr_shifts hsigs n hn hst he⟩

theorem Neutral.scope (h : Neutral sigs v c) : Shifts sigs v 0 [.scope c] 0 :=
  .scope rfl h.noJump h.shifts .nil

theorem neutral_branches (h : ∀ i ∈ c, Shifts sigs v 0 [i] 0) : Neutral sigs v [.scope c] :=
  neutral_single rfl (.branches rfl (shifts_drop h) .nil)

theorem neutral_condScope {no : Code} (hyes : Neutral sigs v c) (hno : Neutral sigs v no) :
    Neutral sigs v [condScope place c no] := by
  apply neutral_branches
  simp only [List.forall_mem_cons]
  exact ⟨.jump rfl .nil, hyes.scope, .jump rfl .nil, hno.scope, List.forall_mem_nil _⟩

theorem neutral_loopScope {body : Code} (htest : Neutral sigs v c) (hbody : Neutral sigs v body) :
    Neutral sigs v [loopScope c place body] := by
  apply neutral_branches
  simp only [List.forall_mem_cons]
  exact ⟨htest.scope, .jump rfl .nil, hbody.scope, .jump rfl .nil, List.forall_mem_nil _⟩

theorem neutral_declarations (s : Scratch) : Neutral sigs v s.declarations := by
  have h : ∀ roles : List Role,
      Neutral sigs v (roles.map fun r => .var r.storage (s.withDefaults.name r)) := by
    intro roles
    induction roles with
    | nil => exact neutral_nil
    | cons r rest ih => exact (neutral_single rfl (shifts_var _ _)).append ih
  exact h Role.all

theorem neutral_function {record : FunctionRecord} {s : Signature} (hs : s ∈ sigs)
    (hrecord : s.Describes record) (hread : Decoding.runCode record.body = .ok c)
    (h : Neutral sigs (some record.leaves) c) : Neutral sigs v [.function record] := by
  have heq : ∀ f body, (Instruction.function record).func = some f →
      Decoding.runCode f.body = .ok body → f = record ∧ body = c := by
    intro f body hf hbody
    cases hf
    rw [hread] at hbody
    exact ⟨rfl, (Except.ok.inj hbody).symm⟩
  apply neutral_single rfl
  refine .func rfl (fun f hf => ?_) (fun f body hf hbody => ?_) (fun f body hf hbody => ?_) .nil
  · cases hf
    exact ⟨s, hs, hrecord⟩
  · obtain ⟨rfl, rfl⟩ := heq f body hf hbody
    exact h.noJump
  · obtain ⟨rfl, rfl⟩ := heq f body hf hbody
    exact h.shifts

theorem Lowers.neutral {ns : List Node} (h : Lowers ctx ns st st' c)
    (hns : Regular sigs known v ctx st ns) (hroom : Throughout Roomy c) : Neutral sigs v c := by
  induction h generalizing known v with
  | nil => exact neutral_nil
  | cons hc _ ih ih' =>
    obtain ⟨hroom₁, hroom₂⟩ := throughout_append.1 hroom
    exact (ih hns.first hroom₁).append (ih' (hns.next hc) hroom₂)
  | value _ he => exact neutral_expr hns.known_listed hns.callsKnown hns.agrees he
  | @declare _ _ _ name _ _ kind storage _ mid _ c _ _ hd hr =>
    -- the value is computed when the variable is there already, under a name that nothing known has
    have hone : RecordsOf _ mid ([name] ++ []) [] [(name, kind)] := ⟨records_of_declare hd, rfl, nofun⟩
    have hmid := (hone.behind (by simp) hns.notIntroduced hns.agrees).1
    rw [List.append_nil] at hmid
    have hvalue : Neutral sigs v c :=
      hr.neutral hns.known_listed ((Bool.and_eq_true _ _).mp hns.callsKnown).2 hmid
    exact (neutral_single rfl (shifts_var storage name)).append
      (hvalue.append (neutral_single rfl (shifts_mov _ _)))
  | @assign _ _ _ _ _ _ _ _ c _ _ _ hr =>
    have hvalue : Neutral sigs v c :=
      hr.neutral hns.known_listed ((Bool.and_eq_true _ _).mp hns.callsKnown).2 hns.agrees
    exact hvalue.append (neutral_single rfl (shifts_mov _ _))
  | @cond _ _ test _ _ _ _ _ _ c _ _ _ hc hyes _ ih ih' =>
    have hmid := expr_extends test hc
    have hcalls := (Bool.and_eq_true _ _).mp ((Bool.and_eq_true _ _).mp hns.callsKnown).1
    have htest : Neutral sigs v c := neutral_expr hns.known_listed hcalls.1 hns.agrees hc
    have hinner := (throughout_append.1 hroom).2.children rfl
    have hyesCode := ih (hns.cond_yes hmid) (hinner.tail.first.children rfl)
    have hnoCode := ih' (hns.cond_no hmid hyes) (hinner.tail.tail.tail.children rfl)
    exact htest.append (neutral_condScope hyesCode hnoCode)
  | @loop _ _ test _ _ _ _ c _ _ hc _ ih =>
    have hcalls := (Bool.and_eq_true _ _).mp hns.callsKnown
    have htest : Neutral sigs v c := neutral_expr hns.known_listed hcalls.1 hns.agrees hc
    have hinner := hroom.children rfl
    exact neutral_loopScope htest
      (ih (hns.loop_body (expr_extends test hc)) (hinner.tail.tail.first.children rfl))
  | @func ctx _ name params result _ _ _ _ _ _ _ _ _ hslots hlowers hencode _ _ _ _ ih =>
    have hlen := hroom.head rfl _ rfl
    have hrooms := (throughout_append.1 (Decoding.roomy_of_encode hencode hlen)).2
    have hbody := hns.func_body hslots
    -- the machine gets the body from its written form, which reads back as it was compiled
    have hlowered := hlowers.lowered_alone hbody.defaults hbody.orderly.alone hbody.orderly.dotless
      hbody.orderly.few hrooms
    have hshaped := ((lowered_declarations ctx.scratch).append hlowered).shaped
    have hread := Decoding.runCode_of_encode hshaped hencode hlen
    have hlisted := hns.functions_listed ⟨name, params.length, .orNumber result⟩
      (by simp [Node.functions])
    have hleaves := Kind.leaves_orNumber hlisted.2
    refine neutral_function hlisted.1 ⟨rfl, parameters_eq_ok hslots, hleaves⟩ hread ?_
    apply (neutral_declarations ctx.scratch).append
    have hneutral := ih hbody hrooms
    rwa [← hleaves] at hneutral
  | @ret _ pos n _ _ c _ hmissing hr =>
    have hreturns : (Node.ret pos n).returnsMatch v = true := by
      simpa [Node.allReturnsMatch] using hns.orderly.returns
    have hcalls : n.callsKnown _ = true := hns.callsKnown
    have hvalue : Neutral sigs v c := hr.neutral hns.known_listed hcalls hns.agrees
    exact hvalue.append (neutral_single rfl
      (.ret rfl (fun k hk => (Node.returnsMatch_ret hreturns hk).2 hmissing) .nil))
  | @leave _ pos =>
    have hreturns : (Node.ret pos .missing).returnsMatch v = true := by
      simpa [Node.allReturnsMatch] using hns.orderly.returns
    exact neutral_single rfl (.ret rfl (fun k hk => (Node.returnsMatch_ret hreturns hk).1 rfl) .nil)
  | splice => cases hns.orderly.alone
  | pass => exact neutral_single rfl (shifts_plain rfl nofun nofun)

end Lowering

end UnitScript
