import UnitScript.Proofs.Lowering.Operations
import UnitScript.Proofs.Lowering.Standalone
import UnitScript.Proofs.Machine.Failure
import UnitScript.Proofs.Syntax.Spelling

/-!
# Compiled code is in order

The code of an expression reads cells of the program, base cells, and spill cells behind their
declarations. A statement adds scopes, whose jumps stay within them, and functions, whose bodies are
read back as they were compiled and whose data end up in the unit. So compiled code is in order at all
its levels.
-/

namespace UnitScript

/-- The operand can be read where the cells in `D` are declared, unless it is a cell that is not in
`own`. -/
def Operand.Ready (own known D : Name → Prop) : Operand → Prop
  | imm _ | func _ => True
  | cell x => own x → D x
  | data name => known name
  | unknown _ => False

namespace Node

/-- The trees directly below a node. -/
def parts : Node → List Node
  | array _ elements => elements
  | binary _ _ left right _ => [left, right]
  | index _ _ i => [i]
  | property _ object member => [object, member]
  | call _ callee args => callee :: args
  | cond _ test yes no => test :: (yes ++ no)
  | loop _ test body => test :: body
  | ret _ value => [value]
  | func _ _ _ _ body | program body => body
  | number .. | string .. | ident .. | pass _ | importUnit .. | param _ | type _ | missing => []

theorem Built.part {W : Name → Prop} {N : Nat} {n m : Node} (h : n.Built W N) (hm : m ∈ n.parts) :
    m.Built W N := by
  constructor
  · intro x hx
    apply h.names x
    cases n <;> simp only [parts, List.mem_cons, List.mem_append, List.not_mem_nil] at hm <;>
      simp only [Node.names, List.mem_cons, List.mem_append, mem_namesAll] <;> grind
  · intro k hk
    apply h.sizes k
    cases n <;> simp only [parts, List.mem_cons, List.mem_append, List.not_mem_nil] at hm <;>
      simp only [Node.sizes, List.mem_cons, List.mem_append, mem_sizesAll] <;> grind

theorem Built.dotless {N : Nat} {n : Node} (h : n.Built Bytes.IsWord N) : n.Dotless :=
  fun x hx => (h.names x hx).1

theorem path?_eq_some : ∀ {n : Node} {p : List Name × Bool}, n.path? = some p →
    p.1 ≠ [] ∧ ∀ x ∈ p.1, x ∈ n.names
  | .ident _ name, p, h => by
    cases h
    simp [names]
  | .call _ callee _, p, h => by
    cases callee with
    | ident _ name =>
      cases h
      simp [names]
    | _ => cases h
  | .property _ object member, p, h => by
    cases object with
    | ident _ name =>
      obtain ⟨q, hq, rfl⟩ := Option.map_eq_some_iff.1 h
      have hmember := path?_eq_some hq
      refine ⟨by simp, fun x hx => ?_⟩
      rcases List.mem_cons.1 hx with rfl | hx
      · simp [names]
      · simp [names, hmember.2 x hx]
    | _ => cases h
  | .number .., _, h | .string .., _, h | .array .., _, h | .binary .., _, h | .index .., _, h
  | .cond .., _, h | .loop .., _, h | .ret .., _, h | .pass _, _, h | .func .., _, h
  | .importUnit .., _, h | .param _, _, h | .type _, _, h | .program _, _, h | .missing, _, h => by
    cases h

end Node

namespace Scratch

variable {s : Scratch} {x : Name}

theorem Temporary.base_of_path (hs : s.Separate) {parts : List Name} (hne : parts ≠ [])
    (hparts : ∀ p ∈ parts, Bytes.IsWord p) (h : s.Temporary (Bytes.join "." parts)) :
    s.Base (Bytes.join "." parts) := by
  obtain ⟨r, n, hx⟩ := h
  by_cases hn : n = 0
  · rw [if_pos hn] at hx
    exact ⟨r, hx⟩
  rw [if_neg hn] at hx
  exfalso
  have hspill : s.name r ++ "." ++ Bytes.ofNat n = s.name r ++ 46 :: Bytes.ofNat n :=
    List.append_assoc _ _ _
  rw [hspill] at hx
  match parts with
  | [] => exact hne rfl
  | [a] =>
    have hdot : 46 ∈ a := by
      rw [show a = _ from hx]
      simp
    exact (hparts a (by simp)).1 hdot
  | a :: b :: rest =>
    have hjoin : Bytes.join "." (a :: b :: rest) = a ++ 46 :: Bytes.join "." (b :: rest) :=
      List.append_assoc _ _ _
    rw [hjoin] at hx
    have hsplit := (List.append_cons_inj_of_notMem (hs.dotless r) (Bytes.dot_notMem_ofNat n)).1
      hx.symm
    have htail := hsplit.2.2.symm
    cases rest with
    | nil => exact (hparts b (by simp)).ne_ofNat n htail
    | cons c rest =>
      have hdot : 46 ∈ Bytes.join "." (b :: c :: rest) := by
        have hmore : Bytes.join "." (b :: c :: rest) = b ++ 46 :: Bytes.join "." (c :: rest) :=
          List.append_assoc _ _ _
        rw [hmore]
        simp
      rw [htail] at hdot
      exact Bytes.dot_notMem_ofNat n hdot

end Scratch

namespace Lowering

open Instruction

variable {ctx : Context} {live : Live} {st st' : State} {c d code : Code} {place src : Operand}
  {i : Instruction} {own known known' D E : Name → Prop} {x : Name} {N : Nat} {n : Node}

/-! ## Code that is in order wherever it stands -/

/-- Code for any place at which the cells in `D` are declared: its instructions are well formed
wherever they stand, the levels below them are in order, and cells in `own` are declared before they
are used. -/
structure Arranged (own known D : Name → Prop) (c : Code) : Prop where
  formed : ∀ i ∈ c, ∀ scope size, WellFormed known scope size i
  below : ∀ i ∈ c, Below (InOrder own known) i
  declares : DeclaresFirst own D c

theorem arranged_nil : Arranged own known D [] := ⟨by simp, by simp, .nil⟩

theorem Arranged.append_behind (hc : Arranged own known D c)
    (hd : Arranged own known (fun x => D x ∨ ∃ i ∈ c, i.declares? = some x) d) :
    Arranged own known D (c ++ d) :=
  ⟨List.forall_mem_append.2 ⟨hc.formed, hd.formed⟩, List.forall_mem_append.2 ⟨hc.below, hd.below⟩,
    hc.declares.append hd.declares⟩

theorem Arranged.mono (h : Arranged own known D c) (hknown : ∀ x, known x → known' x)
    (hDE : ∀ x, D x → E x) : Arranged own known' E c := by
  refine ⟨fun i hi scope size => (h.formed i hi scope size).mono hknown, fun i hi => ?_,
    h.declares.mono hDE⟩
  apply (h.below i hi).imp
  exact fun scope c hc => ⟨fun j hj => (hc.formed j hj).mono hknown, hc.declares⟩

theorem Arranged.of_known (h : Arranged own known D c) (hknown : ∀ x, known x → known' x) :
    Arranged own known' D c :=
  h.mono hknown fun _ hx => hx

theorem Arranged.append (hc : Arranged own known D c) (hd : Arranged own known D d) :
    Arranged own known D (c ++ d) :=
  hc.append_behind (hd.mono (fun _ hx => hx) fun _ hx => .inl hx)

/-- Code that is well formed everywhere has no jumps. -/
theorem Arranged.noJump (h : Arranged own known D c) : NoJump c := by
  intro i hi
  cases hjump : i.op.isJump with
  | false => rfl
  | true => cases ((h.formed i hi false 0).jump hjump).1

theorem Arranged.inOrder (h : Arranged own known (fun _ => False) c) (scope : Bool) :
    InOrder own known scope c :=
  ⟨fun i hi => h.formed i hi scope c.length, fun _ => h.declares⟩

/-! ## Single instructions -/

theorem arranged_plain (hknown : i.op.isKnown = true) (hscope : i.op ≠ .scope ∧ i.op ≠ .func)
    (hjump : i.op.isJump = false) (hrelation : i.relation.isKnown = true)
    (hcount : i.op.accepts i.args.length = true) (hargs : ∀ o ∈ i.args, o.Ready own known D)
    (hdst : ∀ o, i.destination? = some o → ∃ x, o = .cell x)
    (hsize : i.op = .alloc → ∃ n dst, i.args = [.imm n, dst] ∧ 0 ≤ n)
    (hcallee : i.op = .call → ∃ x, i.args = [.cell x] ∨ i.args = [.func x]) :
    Arranged own known D [i] := by
  refine ⟨?_, ?_, declaresFirst_single hscope.1 fun x hx => hargs _ hx.2⟩
  · intro j hj scope size
    rw [List.mem_singleton.1 hj]
    refine ⟨hknown, hrelation, hcount, fun w hw => hargs _ hw, hdst, ?_,
      fun name hname => hargs _ hname, hsize, hcallee, fun hfunc => absurd hfunc hscope.2⟩
    intro h
    rw [hjump] at h
    cases h
  · intro j hj
    rw [List.mem_singleton.1 hj]
    exact below_plain hscope.1 hscope.2

theorem arranged_local (hlocal : i.op.isLocal = true) (halloc : i.op ≠ .alloc)
    (hrelation : i.relation.isKnown = true) (hcount : i.op.accepts i.args.length = true)
    (hargs : ∀ o ∈ i.args, o.Ready own known D)
    (hdst : ∀ o, i.destination? = some o → ∃ x, o = .cell x) : Arranged own known D [i] := by
  apply arranged_plain _ (not_scope_of_plain (.inl hlocal)) (not_isJump_of_isLocal hlocal)
    hrelation hcount hargs hdst (fun h => absurd h halloc)
  · intro h
    rw [h] at hlocal
    cases hlocal
  · cases hop : i.op <;> rw [hop] at hlocal <;> first | rfl | cases hlocal

theorem arranged_var (storage : Storage) (x : Name) : Arranged own known D [.var storage x] := by
  refine ⟨?_, ?_, declaresFirst_single nofun fun y hy => absurd rfl hy.1⟩
  · intro j hj scope size
    rw [List.mem_singleton.1 hj]
    refine ⟨rfl, rfl, rfl, ?_, ?_, nofun, ?_, nofun, nofun, nofun⟩
    · simp [var]
    · rintro o ⟨⟩
      exact ⟨x, rfl⟩
    · simp [var]
  · intro j hj
    rw [List.mem_singleton.1 hj]
    exact below_plain nofun nofun

theorem arranged_mov (hsrc : src.Ready own known D) (hx : own x → D x) :
    Arranged own known D [.mov src (.cell x)] := by
  apply arranged_local rfl (by simp [mov]) rfl rfl
  · simpa [mov, Operand.Ready] using ⟨hsrc, hx⟩
  · rintro o ⟨⟩
    exact ⟨x, rfl⟩

theorem arranged_combine {op : Operator} (hop : (op.isArithmetic || op.isComparison) = true)
    {a b : Operand} (ha : a.Ready own known D) (hb : b.Ready own known D) (hx : own x → D x) :
    Arranged own known D [combine op a b (.cell x)] := by
  have hlocal := Meaning.isLocal_combine op a b (.cell x)
  have hargs : (combine op a b (.cell x)).args = [a, b, .cell x] := by cases op <;> rfl
  apply arranged_local hlocal
  · cases op <;> simp [combine, Instruction.arith, Instruction.cmp]
  · cases op <;> rfl
  · cases op <;> first | rfl | cases hop
  · rw [hargs]
    simpa [Operand.Ready] using ⟨ha, hb, hx⟩
  · intro o ho
    refine ⟨x, ?_⟩
    cases op <;> first | (cases ho; rfl) | cases hop

theorem arranged_push (hsrc : src.Ready own known D) : Arranged own known D [.push src] := by
  apply arranged_local rfl (by simp [push]) rfl rfl
  · simpa [push] using hsrc
  · rintro o ⟨⟩

theorem arranged_pmov {ptr index : Operand} (hsrc : src.Ready own known D)
    (hptr : ptr.Ready own known D) (hindex : index.Ready own known D) :
    Arranged own known D [.pmov src ptr index] := by
  apply arranged_local rfl (by simp [pmov]) rfl rfl
  · simpa [pmov] using ⟨hsrc, hptr, hindex⟩
  · rintro o ⟨⟩

theorem arranged_pop (hx : own x → D x) : Arranged own known D [.pop (.cell x)] := by
  apply arranged_local rfl (by simp [pop]) rfl rfl
  · simpa [pop, Operand.Ready] using hx
  · rintro o ⟨⟩
    exact ⟨x, rfl⟩

theorem arranged_deref (hsrc : src.Ready own known D) (hx : own x → D x) :
    Arranged own known D [.deref src (.cell x)] := by
  apply arranged_local rfl (by simp [deref]) rfl rfl
  · simpa [deref, Operand.Ready] using ⟨hsrc, hx⟩
  · rintro o ⟨⟩
    exact ⟨x, rfl⟩

theorem arranged_nop : Arranged own known D [.nop] := by
  apply arranged_local rfl (by simp [nop]) rfl rfl
  · simp [nop]
  · rintro o ⟨⟩

theorem arranged_alloc (storage : Storage) {count : Int64} (hcount : 0 ≤ count) (hx : own x → D x) :
    Arranged own known D [.alloc storage count (.cell x)] := by
  apply arranged_plain rfl (not_scope_of_plain (.inl rfl)) rfl rfl rfl
  · simpa [alloc, Operand.Ready] using hx
  · rintro o ⟨⟩
    exact ⟨x, rfl⟩
  · exact fun _ => ⟨count, .cell x, rfl, hcount⟩
  · intro h
    cases h

theorem arranged_call (htarget : ∃ x, src = .cell x ∨ src = .func x)
    (hsrc : src.Ready own known D) : Arranged own known D [.call src] := by
  apply arranged_plain rfl (not_scope_of_plain (.inr rfl)) rfl rfl rfl
  · simpa [call] using hsrc
  · rintro o ⟨⟩
  · intro h
    cases h
  · intro _
    obtain ⟨x, rfl | rfl⟩ := htarget
    · exact ⟨x, .inl rfl⟩
    · exact ⟨x, .inr rfl⟩

theorem arranged_ret {args : List Operand} (hlength : args.length ≤ 1)
    (hargs : ∀ o ∈ args, o.Ready own known D) : Arranged own known D [.ret args] := by
  apply arranged_plain rfl ⟨(by simp [ret]), (by simp [ret])⟩ rfl rfl
  · exact decide_eq_true hlength
  · exact hargs
  · rintro o ⟨⟩
  · intro h
    cases h
  · intro h
    cases h

/-! ## Expressions -/

def State.Knows (st : State) (name : Name) : Prop := ∃ d ∈ st.data, d.name = name

theorem Extends.knows (h : Extends st st') {name : Name} (hname : st.Knows name) :
    st'.Knows name := by
  obtain ⟨d, hd, rfl⟩ := hname
  exact ⟨d, h.data.subset hd, rfl⟩

theorem knows_nextString (ctx : Context) (st : State) (value : Bytes) :
    (withString ctx st value).Knows (nextString ctx st) :=
  ⟨⟨nextString ctx st, value⟩, by simp [withString], rfl⟩

/-- The code is arranged where the base cells are declared, with the string constants of the state. -/
abbrev Context.Arranges (ctx : Context) (st : State) (c : Code) : Prop :=
  Arranged ctx.scratch.Temporary st.Knows ctx.scratch.Base c

theorem Extends.arranges (h : Extends st st') (hc : ctx.Arranges st c) : ctx.Arranges st' c :=
  hc.of_known fun _ => h.knows

theorem Context.IsPlace.base (hp : ctx.IsPlace place) :
    ∃ x, place = .cell x ∧ ctx.scratch.Base x := by
  rcases hp with rfl | rfl
  · exact ⟨_, rfl, .primary, rfl⟩
  · exact ⟨_, rfl, .struct, rfl⟩

theorem Context.IsPlace.ready (hp : ctx.IsPlace place) :
    place.Ready own known ctx.scratch.Base := by
  obtain ⟨x, rfl, hx⟩ := hp.base
  exact fun _ => hx

theorem ready_mono (h : src.Ready own known D) (hDE : ∀ x, D x → E x) : src.Ready own known E := by
  cases src with
  | cell x => exact fun hown => hDE x (h hown)
  | _ => exact h

theorem arranges_mov (hsrc : src.Ready ctx.scratch.Temporary st.Knows ctx.scratch.Base)
    (hp : ctx.IsPlace place) : ctx.Arranges st [.mov src place] := by
  obtain ⟨x, rfl, hx⟩ := hp.base
  exact arranged_mov hsrc fun _ => hx

theorem ready_path (hs : ctx.scratch.Separate) (hn : n.Built Bytes.IsWord N) {called : Bool}
    (h : n.pathName? = some (x, called)) :
    (Operand.cell x).Ready ctx.scratch.Temporary known ctx.scratch.Base := by
  obtain ⟨p, hp, hx⟩ := Option.map_eq_some_iff.1 h
  cases hx
  obtain ⟨hne, hmem⟩ := Node.path?_eq_some hp
  exact fun htemp => htemp.base_of_path hs hne fun y hy => hn.names y (hmem y hy)

theorem ready_word (hs : ctx.scratch.Separate) (hx : Bytes.IsWord x) :
    (Operand.cell x).Ready ctx.scratch.Temporary known ctx.scratch.Base :=
  fun htemp =>
    have hpath : ctx.scratch.Temporary (Bytes.join "." [x]) := htemp
    hpath.base_of_path hs (by simp) (by simpa using hx)

theorem ready_operand (hs : ctx.scratch.Separate) (hn : n.Built Bytes.IsWord N)
    (h : n.operand? = some src) : src.Ready ctx.scratch.Temporary known ctx.scratch.Base := by
  cases n with
  | number =>
    cases h
    trivial
  | ident pos name =>
    cases h
    exact ready_word hs (hn.names name (by simp [Node.names]))
  | _ => cases h

theorem Reach.ready (hs : ctx.scratch.Separate) (hn : n.Built Bytes.IsWord N)
    (h : Reach ctx live n st st' c src) :
    src.Ready ctx.scratch.Temporary st'.Knows ctx.scratch.Base := by
  cases h with
  | operand ho => exact ready_operand hs hn ho
  | string _ hst =>
    rw [hst]
    exact knows_nextString ctx st _
  | computed he => exact (expr_computing n he).1.ready

theorem Reach.arranges (h : Reach ctx live n st st' c src)
    (hexpr : ∀ {c o}, expr ctx live n st = .ok ((c, o), st') → ctx.Arranges st' c) :
    ctx.Arranges st' c := by
  cases h with
  | operand | string => exact arranged_nil
  | computed he => exact hexpr he

theorem arranges_callOf {st₀ : State} {name : Name}
    (hname : (Operand.cell name).Ready ctx.scratch.Temporary st.Knows ctx.scratch.Base) :
    ctx.Arranges st (callOf ctx st₀ name).1 := by
  have hcall : ctx.Arranges st
      [.call (if (st₀.callKind name).isCallback then .cell name else .func name)] := by
    split
    · exact arranged_call ⟨name, .inl rfl⟩ hname
    · exact arranged_call ⟨name, .inr rfl⟩ trivial
  have hpop : ctx.Arranges st (popResult ctx (st₀.callKind name).returned).1 := by
    unfold popResult
    split
    · exact arranged_pop fun _ => ⟨.struct, rfl⟩
    · exact arranged_pop fun _ => ⟨.struct, rfl⟩
    · exact arranged_nop
    · exact arranged_nop
    · exact arranged_pop fun _ => ⟨.primary, rfl⟩
  exact hcall.append hpop

theorem arranged_held (role : Role) (n : Nat)
    (h : Arranged own known (fun x => ctx.scratch.Base x ∨ x = ctx.cellName role n) c) :
    Arranged own known ctx.scratch.Base (ctx.cellDeclaration role n ++ c) := by
  cases n with
  | zero =>
    apply h.mono fun _ hx => hx
    rintro x (hx | rfl)
    · exact hx
    · exact ⟨role, rfl⟩
  | succ n =>
    apply (arranged_var role.storage (ctx.cellName role (n + 1))).append_behind
    apply h.mono fun _ hx => hx
    rintro x (hx | rfl)
    · exact .inl hx
    · exact .inr ⟨_, List.mem_singleton.2 rfl, rfl⟩

theorem Hands.arranges (hs : ctx.scratch.Separate) {f : Nat → Operand → Instruction} {k : Nat}
    {ns : List Node} {D : Name → Prop} (h : Hands ctx live f k ns st st' c)
    (hns : Node.AllBuilt Bytes.IsWord N ns) (hD : ∀ x, ctx.scratch.Base x → D x)
    (hf : ∀ {known} k src, src.Ready ctx.scratch.Temporary known D →
      Arranged ctx.scratch.Temporary known D [f k src])
    (hexpr : ∀ n ∈ ns, ∀ {st st' c o}, expr ctx live n st = .ok ((c, o), st') →
      ctx.Arranges st' c) : Arranged ctx.scratch.Temporary st'.Knows D c := by
  induction h with
  | nil => exact arranged_nil
  | @cons k _ _ _ _ _ _ src _ hr hmore ih =>
    rw [Node.AllBuilt, List.forall_mem_cons] at hns
    rw [List.forall_mem_cons] at hexpr
    have hfirst := (hr.arranges hexpr.1).mono (fun _ hx => hx) hD
    have hhanded := hfirst.append (hf k src (ready_mono (hr.ready hs hns.1) hD))
    have hgrown := hhanded.of_known fun _ => ((extends_steady ctx).hands hmore).knows
    exact hgrown.append (ih hns.2 hexpr.2)

theorem pushAll_arranges (hs : ctx.scratch.Separate) {args : List Node}
    (hargs : Node.AllBuilt Bytes.IsWord N args)
    (hexpr : ∀ n ∈ args, ∀ {st st' c o}, expr ctx live n st = .ok ((c, o), st') → ctx.Arranges st' c)
    (h : pushAll ctx live args st = .ok (c, st')) : ctx.Arranges st' c :=
  (hands_of_pushAll h 0).arranges hs hargs (fun _ hx => hx) (fun _ _ => arranged_push) hexpr

/-- The code of every expression is arranged, and relies only on string constants that have been
recorded. -/
theorem expr_arranges (hs : ctx.scratch.Separate) (hN : N < 2 ^ 63) (n : Node)
    (hn : n.Built Bytes.IsWord N) (h : expr ctx live n st = .ok ((c, place), st')) :
    ctx.Arranges st' c := by
  have hprimary : ctx.IsPlace ctx.primary := .inl rfl
  have hdst : ctx.scratch.Base ctx.scratch.primary := ⟨.primary, rfl⟩
  induction n using Node.induction_value generalizing live st st' c place with
  | number =>
    obtain ⟨-, rfl, -⟩ := expr_number_eq_ok h
    exact arranges_mov trivial (.inl rfl)
  | string =>
    obtain ⟨-, rfl, rfl⟩ := expr_string_eq_ok h
    exact arranges_mov (knows_nextString ctx _ _) (.inr rfl)
  | ident _ name =>
    obtain ⟨hp, rfl, -⟩ := expr_ident_eq_ok h
    exact arranges_mov (ready_word hs (hn.names name (by simp [Node.names]))) hp
  | binary _ op left right _ ihl ihr =>
    obtain ⟨hop, -, hform⟩ := expr_binary_eq_ok h
    have hleft : left.Built Bytes.IsWord N := hn.part (by simp [Node.parts])
    have hright : right.Built Bytes.IsWord N := hn.part (by simp [Node.parts])
    cases hform with
    | direct ha hb =>
      exact arranged_combine hop (ready_operand hs hleft ha) (ready_operand hs hright hb) fun _ => hdst
    | onRight ha _ hr =>
      apply (ihr hright hr).append
      exact arranged_combine hop (ready_operand hs hleft ha) hprimary.ready fun _ => hdst
    | onLeft _ hb hl =>
      apply (ihl hleft hl).append
      exact arranged_combine hop hprimary.ready (ready_operand hs hright hb) fun _ => hdst
    | @onBoth leftCode rightCode mid _ _ hl hr =>
      have hfirst := (expr_extends right hr).arranges (ihl hleft hl)
      have hsecond := ihr hright hr
      simp only [List.append_assoc]
      apply hfirst.append
      apply arranged_held
      refine (arranged_mov (ready_mono hprimary.ready fun x hx => .inl hx) fun _ => .inr rfl).append ?_
      apply (hsecond.mono (fun _ hx => hx) fun x hx => .inl hx).append
      exact arranged_combine hop (fun _ => .inr rfl) (ready_mono hprimary.ready fun x hx => .inl hx)
        fun _ => .inl hdst
  | index _ name i ih =>
    obtain ⟨-, c, hc, rfl⟩ := expr_index_eq_ok h
    have hindex : i.Built Bytes.IsWord N := hn.part (by simp [Node.parts])
    have hadd : ctx.Arranges st' [combine .add (.cell name) ctx.primary ctx.primary] :=
      arranged_combine rfl (ready_word hs (hn.names name (by simp [Node.names]))) hprimary.ready
        fun _ => hdst
    have hderef : ctx.Arranges st' [.deref ctx.primary ctx.primary] :=
      arranged_deref hprimary.ready fun _ => hdst
    exact (ih hindex hc).append (hadd.append hderef)
  | array _ elements ih =>
    obtain ⟨-, stores, hstores, rfl⟩ := expr_array_eq_ok h
    have hall : Node.AllBuilt Bytes.IsWord N elements :=
      fun m hm => hn.part (by simp [Node.parts, hm])
    have hcount : 0 ≤ Int64.ofNat elements.length := by
      have hlength := hn.sizes elements.length (by simp [Node.sizes])
      rw [Int64.le_iff_toInt_le, Int64.toInt_ofNat_of_lt (by omega)]
      simp
    simp only [List.append_assoc]
    apply arranged_held
    refine (arranged_alloc _ hcount fun _ => .inr rfl).append ?_
    refine Arranged.append ((hands_of_storeAll hstores).arranges hs hall (fun x hx => .inl hx)
      (fun _ _ hsrc => arranged_pmov hsrc (fun _ => .inr rfl) trivial)
      fun n hn => ih n hn (hall n hn)) ?_
    exact arranged_mov (fun _ => .inr rfl) fun _ => .inl ⟨.primary, rfl⟩
  | call _ callee args ih =>
    obtain ⟨name, pushes, hname, hp, rfl, -⟩ := expr_call_form h
    have hcallee : callee.Built Bytes.IsWord N := hn.part (by simp [Node.parts])
    have hargs : Node.AllBuilt Bytes.IsWord N args :=
      fun m hm => hn.part (by simp [Node.parts, hm])
    exact (pushAll_arranges hs hargs (fun n hn => ih n hn (hargs n hn)) hp).append
      (arranges_callOf (ready_path hs hcallee hname))
  | property _ _ member ih =>
    have hmember : member.Built Bytes.IsWord N := hn.part (by simp [Node.parts])
    cases expr_property_form h with
    | call hname hp =>
      have hargs : Node.AllBuilt Bytes.IsWord N member.pathArgs :=
        Node.forall_mem_pathArgs (P := Node.Built Bytes.IsWord N)
          (fun h => h.part (by simp [Node.parts]))
          (fun h m hm => h.part (by simp [Node.parts, hm])) hmember
      exact (pushAll_arranges hs hargs (fun n hn => ih n hn (hargs n hn)) hp).append
        (arranges_callOf (ready_path hs hn hname))
    | cell hname hp => exact arranges_mov (ready_path hs hn hname) hp
  | other n hvalue =>
    rw [isValue_of_expr h] at hvalue
    cases hvalue

theorem Reach.arranged (hs : ctx.scratch.Separate) (hN : N < 2 ^ 63)
    (hn : n.Built Bytes.IsWord N) (h : Reach ctx live n st st' c src) : ctx.Arranges st' c :=
  h.arranges fun he => expr_arranges hs hN n hn he

end Lowering

end UnitScript
