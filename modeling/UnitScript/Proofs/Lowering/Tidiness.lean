import UnitScript.Module.Imports
import UnitScript.Proofs.Code.Bodies
import UnitScript.Proofs.Lowering.Derivations
import UnitScript.Proofs.Lowering.Scratch
import UnitScript.Proofs.Machine.Discipline
import UnitScript.Proofs.Meaning.Operators
import UnitScript.Proofs.Syntax.Names

/-!
# Compiled code keeps to its own cells

The cells of compiled code are those with a dot in their name and the four base names. The code of
an expression writes only cells that are not in use, each base cell as it is and each spill cell
after its declaration. A statement adds stores into cells of the program, which are no cells of the
compiled code, scopes, and functions that declare the base cells for themselves. So compiled code is
tidy, and since its instructions are of a good shape its functions read back as they were compiled.
-/

namespace UnitScript

namespace Scratch

def Base (s : Scratch) (x : Name) : Prop := ∃ r, x = s.name r

def Own (s : Scratch) (x : Name) : Prop := 46 ∈ x ∨ s.Base x

variable {s : Scratch} {x : Name}

theorem not_own (hs : s.withDefaults = s) (hdot : 46 ∉ x) (hx : s.isReserved x = false) :
    ¬s.Own x := by
  rintro (h | ⟨r, rfl⟩)
  · exact hdot h
  · have hres : s.isReserved (s.name r) = true := isReserved_iff.2 ⟨r, by rw [hs]⟩
    rw [hres] at hx
    cases hx

end Scratch

namespace Node

theorem Dotless.of_names {n : Node} {ns : List Node} (h : n.Dotless)
    (hns : ∀ x ∈ namesAll ns, x ∈ n.names) : ∀ m ∈ ns, m.Dotless :=
  fun m hm x hx => h x (hns x (mem_namesAll.2 ⟨m, hm, hx⟩))

mutual

/-- No function has more parameters than the binary form has room for. -/
def FewParams : Node → Prop
  | func _ _ params _ body => params.length ≤ 0xFFFF ∧ AllFewParams body
  | cond _ _ yes no => AllFewParams yes ∧ AllFewParams no
  | loop _ _ body => AllFewParams body
  | _ => True

def AllFewParams : List Node → Prop
  | [] => True
  | n :: rest => n.FewParams ∧ AllFewParams rest

end

mutual

def decideFewParams : ∀ n : Node, Decidable n.FewParams
  | func _ _ params _ body =>
    have := decideAllFewParams body
    inferInstanceAs (Decidable (params.length ≤ 0xFFFF ∧ AllFewParams body))
  | cond _ _ yes no =>
    have := decideAllFewParams yes
    have := decideAllFewParams no
    inferInstanceAs (Decidable (AllFewParams yes ∧ AllFewParams no))
  | loop _ _ body => decideAllFewParams body
  | number .. | string .. | ident .. | array .. | binary .. | index .. | property .. | call ..
  | ret .. | pass _ | importUnit .. | param _ | type _ | program _ | missing => .isTrue trivial

def decideAllFewParams : ∀ ns : List Node, Decidable (AllFewParams ns)
  | [] => .isTrue trivial
  | n :: rest =>
    have := decideFewParams n
    have := decideAllFewParams rest
    inferInstanceAs (Decidable (n.FewParams ∧ AllFewParams rest))

end

instance (ns : List Node) : Decidable (AllFewParams ns) := decideAllFewParams ns

end Node

namespace Lowering

open Instruction

variable {ctx : Context} {live : Live} {st st' : State} {c d code : Code} {place : Operand}
  {i : Instruction} {P : Instruction → Prop} {D : Name → Prop} {ns : List Node} {op : Operator}

theorem Context.own_cellName (ctx : Context) (r : Role) (n : Nat) :
    ctx.scratch.Own (ctx.cellName r n) := by
  cases n with
  | zero => exact .inr ⟨r, rfl⟩
  | succ n => exact .inl (dot_mem_cellName_succ ctx r n)

/-! ## Shapes of instructions -/

theorem shaped_of (hknown : i.op.isKnown = true) (htrim : i.trimmed = i)
    (hargs : i.args.length.ble 255 = true) (htarget : i.target = 0) (hfunc : i.func = none) :
    i.Shaped := by
  refine ⟨hknown, htrim, Nat.le_of_ble_eq_true hargs, ?_, fun f hf => ?_⟩
  · rw [htarget]
    decide
  · rw [hfunc] at hf
    cases hf

theorem shaped_combine (hop : (op.isArithmetic || op.isComparison) = true)
    (a b dst : Operand) : (combine op a b dst).Shaped := by
  cases op <;> first | exact shaped_of rfl rfl rfl rfl rfl | cases hop

theorem stores?_combine (hop : (op.isArithmetic || op.isComparison) = true)
    (a b : Operand) (x : Name) : (combine op a b (.cell x)).stores? = some x := by
  cases op <;> first | rfl | cases hop

theorem declares?_of_op (hop : i.op ≠ .var) : i.declares? = none := by
  unfold declares?
  split
  · next h _ => exact absurd h hop
  · rfl

/-! ## Expressions -/

/-- What is known of the code that computes an expression when `live` cells are in use. -/
structure Computing (ctx : Context) (live : Live) (c : Code) : Prop where
  plain : ∀ i ∈ c, i.op.isLocal = true ∨ i.op = .call
  shaped : ∀ i ∈ c, i.Shaped
  writes : ∀ i ∈ c, ∀ x, i.declares? = some x ∨ i.stores? = some x → ctx.Writes live x
  tidy : Tidy ctx.scratch.Own ctx.scratch.Base c

theorem computing_nil (ctx : Context) (live : Live) : Computing ctx live [] :=
  ⟨by simp, by simp, by simp, .nil⟩

theorem Computing.append (hc : Computing ctx live c) (hd : Computing ctx live d) :
    Computing ctx live (c ++ d) := by
  refine ⟨?_, ?_, ?_, hc.tidy.append hd.tidy⟩
  · exact List.forall_mem_append.2 ⟨hc.plain, hd.plain⟩
  · exact List.forall_mem_append.2 ⟨hc.shaped, hd.shaped⟩
  · exact List.forall_mem_append.2 ⟨hc.writes, hd.writes⟩

theorem Computing.mono {live' : Live} (h : Computing ctx live' c)
    (hsec : live.secondary ≤ live'.secondary) (hagg : live.aggregate ≤ live'.aggregate) :
    Computing ctx live c :=
  ⟨h.plain, h.shaped, fun i hi x hx => (h.writes i hi x hx).mono hsec hagg, h.tidy⟩

theorem not_scope_of_plain (h : i.op.isLocal = true ∨ i.op = .call) :
    i.op ≠ .scope ∧ i.op ≠ .func := by
  constructor <;> intro hop <;> rw [hop] at h <;> rcases h with h | h <;> cases h

theorem isStep_of_plain (h : i.op.isLocal = true ∨ i.op = .call) : i.op.isStep = true := by
  rcases h with h | h
  · exact isStep_of_isLocal h
  · rw [h]
    rfl

/-- An instruction that overwrites at most the cell that a result is left in. -/
theorem computing_single (hplain : i.op.isLocal = true ∨ i.op = .call) (hshaped : i.Shaped)
    (hd : i.declares? = none)
    (hs : ∀ x, i.stores? = some x → x = ctx.scratch.primary ∨ x = ctx.scratch.struct) :
    Computing ctx live [i] := by
  obtain ⟨hscope, hfunc⟩ := not_scope_of_plain hplain
  have hbase : ∀ x, i.stores? = some x → ctx.scratch.Own x → ctx.scratch.Base x := by
    intro x hx _
    rcases hs x hx with rfl | rfl
    · exact ⟨.primary, rfl⟩
    · exact ⟨.struct, rfl⟩
  refine ⟨by simpa using hplain, by simpa using hshaped, ?_, .plain hscope hfunc hbase .nil⟩
  intro j hj x hx
  rw [List.mem_singleton.1 hj, hd] at hx
  rcases hx with hx | hx
  · cases hx
  · exact (hs x hx).elim .inl fun h => .inr (.inl h)

theorem computing_held {role : Role} {n : Nat} (hlocal : i.op.isLocal = true) (hshaped : i.Shaped)
    (hd : i.declares? = none) (hs : i.stores? = some (ctx.cellName role n))
    (hw : ctx.Writes live (ctx.cellName role n)) :
    Computing ctx live (ctx.cellDeclaration role n ++ [i]) := by
  obtain ⟨hscope, hfunc⟩ := not_scope_of_plain (.inl hlocal)
  have hwrites : ∀ x, i.declares? = some x ∨ i.stores? = some x → ctx.Writes live x := by
    intro x hx
    rw [hd, hs] at hx
    rcases hx with hx | hx
    · cases hx
    · rwa [← Option.some.inj hx]
  cases n with
  | zero =>
    refine ⟨by simpa [Context.cellDeclaration] using .inl hlocal,
      by simpa [Context.cellDeclaration] using hshaped,
      by simpa [Context.cellDeclaration] using hwrites, ?_⟩
    refine .plain hscope hfunc (fun x hx _ => ?_) .nil
    rw [hs] at hx
    exact ⟨role, (Option.some.inj hx).symm⟩
  | succ k =>
    have hdecl : ctx.cellDeclaration role (k + 1) ++ [i] =
        [.var role.storage (ctx.cellName role (k + 1)), i] := rfl
    rw [hdecl]
    refine ⟨?_, ?_, ?_, ?_⟩
    · simpa using ⟨.inl rfl, .inl hlocal⟩
    · simpa using ⟨shaped_of rfl rfl rfl rfl rfl, hshaped⟩
    · intro j hj x hx
      rcases List.mem_pair.1 hj with rfl | rfl
      · rcases hx with hx | hx
        · rwa [← Option.some.inj hx]
        · cases hx
      · exact hwrites x hx
    · refine .plain nofun nofun nofun ?_
      refine .plain hscope hfunc (fun x hx _ => .inr ?_) .nil
      rw [hs] at hx
      exact hx

theorem Computing.throughout (h : Computing ctx live c) (hP : ∀ i ∈ c, P i) : Throughout P c := by
  have hplain := h.plain
  clear h
  induction c with
  | nil => exact throughout_nil
  | cons i c ih =>
    rw [List.forall_mem_cons] at hplain hP
    refine (throughout_single hP.1 fun hop => ?_).cons (ih hP.2 hplain.2)
    exact absurd hop (not_scope_of_plain hplain.1).1

def Context.IsPlace (ctx : Context) (o : Operand) : Prop := o = ctx.primary ∨ o = ctx.structSlot

theorem computing_result (hlocal : i.op.isLocal = true) (hshaped : i.Shaped)
    (hd : i.declares? = none) (hp : ctx.IsPlace place)
    (hs : ∀ x, place = .cell x → i.stores? = some x) :
    Computing ctx live [i] := by
  apply computing_single (.inl hlocal) hshaped hd
  intro x hx
  rcases hp with hp | hp
  · rw [hs _ hp] at hx
    exact .inl (Option.some.inj hx).symm
  · rw [hs _ hp] at hx
    exact .inr (Option.some.inj hx).symm

theorem computing_mov (src : Operand) (hp : ctx.IsPlace place) :
    Computing ctx live [.mov src place] := by
  apply computing_result rfl (shaped_of rfl rfl rfl rfl rfl) rfl hp
  rintro x rfl
  rfl

theorem computing_combine (hop : (op.isArithmetic || op.isComparison) = true)
    (a b : Operand) : Computing ctx live [combine op a b ctx.primary] := by
  have hlocal := Meaning.isLocal_combine op a b ctx.primary
  have hdeclares : (combine op a b ctx.primary).declares? = none := by
    apply declares?_of_op
    cases op <;> exact Opcode.noConfusion
  apply computing_result hlocal (shaped_combine hop a b _) hdeclares (.inl rfl)
  rintro x ⟨⟩
  exact stores?_combine hop a b _

theorem computing_element (name : Name) : Computing ctx live
    [.arith .add (.cell name) ctx.primary ctx.primary, .deref ctx.primary ctx.primary] := by
  have hadd : Computing ctx live [combine .add (.cell name) ctx.primary ctx.primary] :=
    computing_combine rfl _ _
  refine hadd.append ?_
  apply computing_result rfl (shaped_of rfl rfl rfl rfl rfl) rfl (.inl rfl)
  rintro x ⟨⟩
  rfl

theorem computing_alloc (size : Int64) : Computing ctx live (ctx.cellDeclaration .aggregate live.aggregate ++
    [.alloc .i64 size (.cell (ctx.cellName .aggregate live.aggregate))]) :=
  computing_held rfl (shaped_of rfl rfl rfl rfl rfl) rfl rfl
    (.inr (.inr (.inr ⟨_, Nat.le_refl _, rfl⟩)))

theorem computing_push (src : Operand) : Computing ctx live [.push src] :=
  computing_single (.inl rfl) (shaped_of rfl rfl rfl rfl rfl) rfl nofun

theorem computing_pmov (src ptr index : Operand) : Computing ctx live [.pmov src ptr index] :=
  computing_single (.inl rfl) (shaped_of rfl rfl rfl rfl rfl) rfl nofun

theorem computing_pop (hp : ctx.IsPlace place) : Computing ctx live [.pop place] := by
  apply computing_result rfl (shaped_of rfl rfl rfl rfl rfl) rfl hp
  rintro x rfl
  rfl

theorem CallCode.isPlace (h : CallCode ctx c place) : ctx.IsPlace place := by
  cases h with
  | pops _ hp => exact hp
  | leaves => exact .inl rfl

theorem CallCode.computing (h : CallCode ctx c place) : Computing ctx live c := by
  have hcall : ∀ target, Computing ctx live [.call target] := fun target =>
    computing_single (.inr rfl) (shaped_of rfl rfl rfl rfl rfl) rfl nofun
  cases h with
  | pops target hp => exact (hcall target).append (computing_pop hp)
  | leaves target =>
    refine (hcall target).append ?_
    exact computing_single (.inl rfl) (shaped_of rfl rfl rfl rfl rfl) rfl nofun

theorem Reach.computing {n : Node} {src : Operand} (h : Reach ctx live n st st' c src)
    (hexpr : ∀ {c o}, expr ctx live n st = .ok ((c, o), st') → Computing ctx live c) :
    Computing ctx live c := by
  cases h with
  | operand | string => exact computing_nil ctx live
  | computed he => exact hexpr he

theorem Hands.computing {f : Nat → Operand → Instruction} {k : Nat}
    (h : Hands ctx live f k ns st st' code) (hf : ∀ k src, Computing ctx live [f k src])
    (hns : ∀ n ∈ ns, ∀ {st st' c o}, expr ctx live n st = .ok ((c, o), st') →
      Computing ctx live c) : Computing ctx live code := by
  induction h with
  | nil => exact computing_nil _ _
  | cons hr _ ih =>
    rw [List.forall_mem_cons] at hns
    exact ((hr.computing hns.1).append (hf _ _)).append (ih hns.2)

/-- The code of every expression keeps to cells that are not in use, and leaves the value in one of
the two cells for results. -/
theorem expr_computing (n : Node) (h : expr ctx live n st = .ok ((code, place), st')) :
    ctx.IsPlace place ∧ Computing ctx live code := by
  induction n using Node.induction_value generalizing live st st' code place with
  | number =>
    obtain ⟨rfl, rfl, -⟩ := expr_number_eq_ok h
    exact ⟨.inl rfl, computing_mov _ (.inl rfl)⟩
  | string =>
    obtain ⟨rfl, rfl, -⟩ := expr_string_eq_ok h
    exact ⟨.inr rfl, computing_mov _ (.inr rfl)⟩
  | ident =>
    obtain ⟨hp, rfl, -⟩ := expr_ident_eq_ok h
    exact ⟨hp, computing_mov _ hp⟩
  | binary _ op left right _ ihl ihr =>
    obtain ⟨hop, rfl, hform⟩ := expr_binary_eq_ok h
    refine ⟨.inl rfl, ?_⟩
    cases hform with
    | direct => exact computing_combine hop _ _
    | onRight _ _ hr => exact (ihr hr).2.append (computing_combine hop _ _)
    | onLeft _ _ hl => exact (ihl hl).2.append (computing_combine hop _ _)
    | onBoth _ _ hl hr =>
      rw [List.append_assoc _ (ctx.cellDeclaration _ _)]
      refine (((ihl hl).2.append ?_).append ?_).append (computing_combine hop _ _)
      · refine computing_held rfl (shaped_of rfl rfl rfl rfl rfl) rfl rfl ?_
        exact .inr (.inr (.inl ⟨_, Nat.le_refl _, rfl⟩))
      · exact (ihr hr).2.mono (Nat.le_succ _) (Nat.le_refl _)
  | index _ name _ ih =>
    obtain ⟨rfl, c, hc, rfl⟩ := expr_index_eq_ok h
    exact ⟨.inl rfl, (ih hc).2.append (computing_element name)⟩
  | array _ elements ih =>
    obtain ⟨rfl, stores, hs, rfl⟩ := expr_array_eq_ok h
    refine ⟨.inl rfl, Computing.append (.append ?_ ?_) (computing_mov _ (.inl rfl))⟩
    · exact computing_alloc _
    · have hstores := (hands_of_storeAll hs).computing (fun _ _ => computing_pmov _ _ _)
        fun n hn _ _ _ _ he => (ih n hn he).2
      exact hstores.mono (Nat.le_refl _) (Nat.le_succ _)
  | call _ _ args ih =>
    obtain ⟨pushes, calls, hp, hc, rfl⟩ := expr_call_eq_ok h
    have hpushes := (hands_of_pushAll hp 0).computing (fun _ => computing_push)
      fun n hn _ _ _ _ he => (ih n hn he).2
    exact ⟨hc.isPlace, hpushes.append hc.computing⟩
  | property _ _ member ih =>
    cases expr_property_eq_ok h with
    | call hp hc =>
      have hpushes := (hands_of_pushAll hp 0).computing (fun _ => computing_push)
        fun n hn _ _ _ _ he => (ih n hn he).2
      exact ⟨hc.isPlace, hpushes.append hc.computing⟩
    | cell name hp => exact ⟨hp, computing_mov _ hp⟩
  | other n hn =>
    rw [isValue_of_expr h] at hn
    cases hn

theorem Reach.of_expr {n : Node} {src : Operand} (h : Reach ctx live n st st' c src) :
    Computing ctx live c :=
  h.computing fun he => (expr_computing n he).2

/-! ## Statements -/

/-- What is known of compiled code that stands where the base cells are declared. -/
structure Lowered (s : Scratch) (c : Code) : Prop where
  noJump : NoJump c
  shaped : Throughout Shaped c
  tidy : Tidy s.Own s.Base c

variable {s : Scratch}

theorem lowered_nil (s : Scratch) : Lowered s [] := ⟨by simp [NoJump], throughout_nil, .nil⟩

theorem Lowered.append (hc : Lowered s c) (hd : Lowered s d) : Lowered s (c ++ d) :=
  ⟨hc.noJump.append hd.noJump, hc.shaped.append hd.shaped, hc.tidy.append hd.tidy⟩

theorem Computing.lowered (h : Computing ctx live c) : Lowered ctx.scratch c := by
  refine ⟨fun i hi => ?_, h.throughout h.shaped, h.tidy⟩
  rcases h.plain i hi with hop | hop
  · exact not_isJump_of_isLocal hop
  · rw [hop]
    rfl

theorem lowered_single (hjump : i.op.isJump = false) (hscope : i.op ≠ .scope ∧ i.op ≠ .func)
    (hshaped : i.Shaped) (hs : ∀ x, i.stores? = some x → ¬s.Own x) : Lowered s [i] := by
  refine ⟨by simpa [NoJump] using hjump,
    throughout_single hshaped fun hop => absurd hop hscope.1, ?_⟩
  exact .plain hscope.1 hscope.2 (fun x hx hown => absurd hown (hs x hx)) .nil

theorem tidy_drop {own : Name → Prop} (h : ∀ i ∈ c, Tidy own D [i]) (k : Nat) :
    Tidy own D (c.drop k) := by
  induction c generalizing k with
  | nil =>
    rw [List.drop_nil]
    exact .nil
  | cons i c ih =>
    rw [List.forall_mem_cons] at h
    cases k with
    | zero => exact h.1.append (d := c) (ih h.2 0)
    | succ k => exact ih h.2 k

theorem shaped_scope (c : Code) : (Instruction.scope c).Shaped :=
  shaped_of rfl rfl rfl rfl rfl

theorem shaped_jeq (a b : Operand) {t : Nat} (ht : t < 2 ^ 31) :
    (Instruction.jeq a b t).Shaped := by
  refine ⟨rfl, rfl, by simp [jeq], ?_, fun f hf => by cases hf⟩
  simp only [jeq]
  omega

theorem shaped_jmp {t : Nat} (ht : t < 2 ^ 31) : (Instruction.jmp t).Shaped := by
  refine ⟨rfl, rfl, by simp [jmp], ?_, fun f hf => by cases hf⟩
  simp only [jmp]
  omega

section Throughout

variable {P : Instruction → Prop} (hplain : ∀ i : Instruction, i.Shaped → i.op ≠ .func → P i)
include hplain

theorem throughout_plain (hi : i.Shaped) (hop : (i.op == .scope || i.op == .func) = false) :
    Throughout P [i] := by
  rw [Bool.or_eq_false_iff, beq_eq_false_iff_ne, beq_eq_false_iff_ne] at hop
  exact throughout_single (hplain i hi hop.2) fun h => absurd h hop.1

theorem throughout_scope (h : Throughout P c) : Throughout P [.scope c] :=
  throughout_single (hplain _ (shaped_scope c) nofun) fun _ => h

theorem throughout_condScope (test : Operand) (hyes : Throughout P c) (hno : Throughout P d) :
    Throughout P [condScope test c d] := by
  have hjeq : Throughout P [.jeq test (.imm 0) 3] :=
    throughout_plain hplain (shaped_jeq _ _ (by decide)) rfl
  have hjmp : Throughout P [.jmp 4] :=
    throughout_plain hplain (shaped_jmp (by decide)) rfl
  apply throughout_scope hplain
  exact hjeq.cons ((throughout_scope hplain hyes).cons (hjmp.cons (throughout_scope hplain hno)))

theorem throughout_loopScope (test : Operand) (htest : Throughout P c) (hbody : Throughout P d) :
    Throughout P [loopScope c test d] := by
  have hjeq : Throughout P [.jeq test (.imm 0) 4] :=
    throughout_plain hplain (shaped_jeq _ _ (by decide)) rfl
  have hjmp : Throughout P [.jmp 0] :=
    throughout_plain hplain (shaped_jmp (by decide)) rfl
  apply throughout_scope hplain
  exact (throughout_scope hplain htest).cons
    (hjeq.cons ((throughout_scope hplain hbody).cons hjmp))

end Throughout

theorem lowered_branches (hshaped : Throughout Shaped [.scope c])
    (h : ∀ i ∈ c, Tidy s.Own s.Base [i]) : Lowered s [.scope c] :=
  ⟨by simp [NoJump, scope, Opcode.isJump], hshaped, .branches rfl (tidy_drop h) .nil⟩

theorem Lowered.scope (h : Lowered s c) : Lowered s [.scope c] :=
  ⟨by simp [NoJump, Instruction.scope, Opcode.isJump],
    throughout_scope (fun _ h _ => h) h.shaped, .scope rfl h.noJump h.tidy .nil⟩

theorem tidy_jump {own : Name → Prop} (hop : i.op.isJump = true) : Tidy own D [i] := by
  refine .plain ?_ ?_ (fun x hx => ?_) .nil
  · intro h
    rw [h] at hop
    cases hop
  · intro h
    rw [h] at hop
    cases hop
  · rw [not_isJump_of_isLocal (isLocal_of_stores? hx)] at hop
    cases hop

theorem lowered_condScope (test : Operand) (hyes : Lowered s c) (hno : Lowered s d) :
    Lowered s [condScope test c d] := by
  apply lowered_branches (throughout_condScope (fun _ h _ => h) test hyes.shaped hno.shaped)
  simp only [List.forall_mem_cons]
  exact ⟨tidy_jump rfl, hyes.scope.tidy, tidy_jump rfl, hno.scope.tidy, List.forall_mem_nil _⟩

theorem lowered_loopScope (test : Operand) (htest : Lowered s c) (hbody : Lowered s d) :
    Lowered s [loopScope c test d] := by
  apply lowered_branches (throughout_loopScope (fun _ h _ => h) test htest.shaped hbody.shaped)
  simp only [List.forall_mem_cons]
  exact ⟨htest.scope.tidy, tidy_jump rfl, hbody.scope.tidy, tidy_jump rfl, List.forall_mem_nil _⟩

theorem lowered_store (src : Operand) {x : Name} (hx : ¬s.Own x) :
    Lowered s [.mov src (.cell x)] := by
  refine lowered_single rfl (not_scope_of_plain (.inl rfl)) (shaped_of rfl rfl rfl rfl rfl) ?_
  intro y hy
  rwa [← Option.some.inj hy]

theorem lowered_var (storage : Storage) (x : Name) : Lowered s [.var storage x] :=
  lowered_single rfl (not_scope_of_plain (.inl rfl)) (shaped_of rfl rfl rfl rfl rfl) nofun

theorem lowered_ret {args : List Operand} (h : args.length ≤ 1) : Lowered s [.ret args] := by
  have hargs : args.length ≤ 255 := Nat.le_trans h (by decide)
  have hshaped : (Instruction.ret args).Shaped :=
    shaped_of rfl rfl (Nat.ble_eq_true_of_le hargs) rfl rfl
  exact lowered_single rfl ⟨nofun, nofun⟩ hshaped nofun

theorem lowered_nop (s : Scratch) : Lowered s [.nop] :=
  lowered_single rfl ⟨nofun, nofun⟩ (shaped_of rfl rfl rfl rfl rfl) nofun

/-- Behind the declarations of the base cells, code that relies on them is tidy by itself. -/
theorem tidy_declarations (hs : s.withDefaults = s) (h : Tidy s.Own s.Base c) :
    Tidy s.Own D (s.declarations ++ c) := by
  have hdecl : s.declarations = Role.all.map fun r => .var r.storage (s.name r) := by
    unfold Scratch.declarations
    rw [hs]
  rw [hdecl]
  refine .plain nofun nofun nofun (.plain nofun nofun nofun (.plain nofun nofun nofun
    (.plain nofun nofun nofun (h.mono ?_))))
  rintro x ⟨r, rfl⟩
  cases r with
  | primary => exact .inl (.inl (.inl (.inr rfl)))
  | secondary => exact .inl (.inl (.inr rfl))
  | aggregate => exact .inl (.inr rfl)
  | struct => exact .inr rfl

theorem lowered_declarations (s : Scratch) : Lowered s s.declarations := by
  have h : ∀ roles : List Role,
      Lowered s (roles.map fun r => .var r.storage (s.withDefaults.name r)) := by
    intro roles
    induction roles with
    | nil => exact lowered_nil s
    | cons r rest ih => exact (lowered_var _ _).append ih
  exact h Role.all

theorem lowered_function (hs : s.withDefaults = s) {record : FunctionRecord}
    (hparams : record.params.length ≤ 0xFFFF) (hbody : record.body.length ≤ 2 ^ 28)
    (hc : Lowered s c) (h : Encoding.code (s.declarations ++ c) = .ok record.body) :
    Lowered s [.function record] := by
  have hwhole := (lowered_declarations s).append hc
  have hread := Decoding.runCode_of_encode hwhole.shaped h hbody
  have heq : ∀ f body, (Instruction.function record).func = some f →
      Decoding.runCode f.body = .ok body → body = s.declarations ++ c := by
    intro f body hf hb
    rw [← Option.some.inj hf, hread] at hb
    exact (Except.ok.inj hb).symm
  refine ⟨by simp [NoJump, Instruction.function, Opcode.isJump], throughout_single ?_ nofun, ?_⟩
  · refine ⟨rfl, rfl, by simp [Instruction.function], by simp [Instruction.function],
      fun f hf => ?_⟩
    rwa [← Option.some.inj hf]
  · refine .func rfl (fun f body hf hb => ?_) (fun f body hf hb => ?_) .nil
    · rw [heq f body hf hb]
      exact hwhole.noJump
    · rw [heq f body hf hb]
      exact tidy_declarations hs hc.tidy

/-- A setting whose base names are in effect and whose units under the given names are compiled for
them. -/
structure Context.Ready (ctx : Context) (names : List Name) : Prop where
  defaults : ctx.scratch.withDefaults = ctx.scratch
  included : ∀ includer, ctx.includer = some includer → ∀ name ∈ names, ∀ u, includer name = .ok u →
    Lowered ctx.scratch u.code

theorem Context.Ready.mono {names more : List Name} (h : ctx.Ready more)
    (hnames : ∀ name ∈ names, name ∈ more) : ctx.Ready names :=
  ⟨h.defaults, fun includer hinc name hname => h.included includer hinc name (hnames name hname)⟩

theorem Lowers.lowered (h : Lowers ctx ns st st' code)
    (hctx : ctx.Ready (Node.importsOfAll ns)) (hdot : ∀ n ∈ ns, n.Dotless)
    (hfew : Node.AllFewParams ns) (hroom : Throughout Roomy code) : Lowered ctx.scratch code := by
  induction h with
  | nil => exact lowered_nil _
  | cons _ _ ih ih' =>
    rw [List.forall_mem_cons] at hdot
    obtain ⟨hroom₁, hroom₂⟩ := throughout_append.1 hroom
    have hfirst := ih (hctx.mono fun x hx => by simp_all [Node.importsOfAll]) (by simpa using hdot.1)
      ⟨hfew.1, trivial⟩ hroom₁
    exact hfirst.append
      (ih' (hctx.mono fun x hx => by simp [Node.importsOfAll, hx]) hdot.2 hfew.2 hroom₂)
  | value _ he => exact (expr_computing _ he).2.lowered
  | @declare _ _ _ name _ _ _ _ _ _ _ _ src hres _ hr =>
    rw [List.forall_mem_singleton] at hdot
    have hown := Scratch.not_own hctx.defaults (hdot name (by simp [Node.names])) hres
    exact (lowered_var _ _).append (hr.of_expr.lowered.append (lowered_store src hown))
  | @assign _ _ _ name _ _ _ _ _ src hres _ hr =>
    rw [List.forall_mem_singleton] at hdot
    have hown := Scratch.not_own hctx.defaults (hdot name (by simp [Node.names])) hres
    exact hr.of_expr.lowered.append (lowered_store src hown)
  | @cond _ _ _ _ _ _ _ _ _ _ place _ _ hc _ _ ih ih' =>
    rw [List.forall_mem_singleton] at hdot
    have hinner := (throughout_append.1 hroom).2.children rfl
    have hyes := ih (hctx.mono fun x hx => by simp [Node.importsOfAll, Node.imports, hx])
      (hdot.of_names fun x hx => by simp [Node.names, hx]) hfew.1.1
      (hinner.tail.first.children rfl)
    have hno := ih' (hctx.mono fun x hx => by simp [Node.importsOfAll, Node.imports, hx])
      (hdot.of_names fun x hx => by simp [Node.names, hx]) hfew.1.2
      (hinner.tail.tail.tail.children rfl)
    exact (expr_computing _ hc).2.lowered.append (lowered_condScope place hyes hno)
  | @loop _ _ _ _ _ _ _ _ place _ hc _ ih =>
    rw [List.forall_mem_singleton] at hdot
    have hinner := hroom.children rfl
    have hbody := ih (hctx.mono fun x hx => by simp [Node.importsOfAll, Node.imports, hx])
      (hdot.of_names fun x hx => by simp [Node.names, hx]) hfew.1
      (hinner.tail.tail.first.children rfl)
    exact lowered_loopScope place (expr_computing _ hc).2.lowered hbody
  | func _ hslots _ hencode _ _ _ _ ih =>
    rw [List.forall_mem_singleton] at hdot
    have hlen := hroom.head rfl _ rfl
    have himports := hctx.mono fun x hx => by simpa [Node.importsOfAll, Node.imports] using hx
    have hbody := ih ⟨himports.defaults, himports.included⟩
      (hdot.of_names fun x hx => by simp [Node.names, hx]) hfew.1.2
      (throughout_append.1 (Decoding.roomy_of_encode hencode hlen)).2
    exact lowered_function hctx.defaults (by rw [parameters_eq_ok hslots]; exact hfew.1.1) hlen hbody
      hencode
  | ret _ hr => exact hr.of_expr.lowered.append (lowered_ret (Nat.le_refl 1))
  | leave => exact lowered_ret (Nat.zero_le 1)
  | splice h =>
    obtain ⟨includer, unit, hinc, hunit, rfl, -⟩ := splice_eq_ok h
    exact hctx.included includer hinc _ (by simp [Node.importsOfAll, Node.imports]) unit hunit
  | pass => exact lowered_nop _

/-- The units that a setting provides under the given names have the property throughout. -/
def Context.ImportsHave (ctx : Context) (P : Instruction → Prop) (names : List Name) : Prop :=
  ∀ includer, ctx.includer = some includer → ∀ name ∈ names, ∀ u, includer name = .ok u →
    Throughout P u.code

theorem Context.ImportsHave.mono {names more : List Name}
    (h : ctx.ImportsHave P more) (hnames : ∀ name ∈ names, name ∈ more) : ctx.ImportsHave P names :=
  fun includer hinc name hname => h includer hinc name (hnames name hname)

/-- What all instructions of a good shape have but for functions is had throughout the code of
statements, if the functions and the imports that they come with have it. -/
theorem Lowers.throughout (h : Lowers ctx ns st st' code)
    (hplain : ∀ i : Instruction, i.Shaped → i.op ≠ .func → P i)
    (hfunc : Node.outerFunctionsOfAll ns ≠ [] → ∀ record, P (.function record))
    (himp : ctx.ImportsHave P (Node.importsOfAll ns)) : Throughout P code := by
  have hcomputing : ∀ {ctx live c}, Computing ctx live c → Throughout P c := fun h =>
    h.throughout fun i hi => hplain i (h.shaped i hi) (not_scope_of_plain (h.plain i hi)).2
  induction h with
  | nil => exact throughout_nil
  | cons _ _ ih ih' =>
    have hfirst := ih (fun h => hfunc fun hnil => h (by simp_all [Node.outerFunctionsOfAll]))
      (himp.mono fun x hx => by simp_all [Node.importsOfAll])
    exact hfirst.append (ih' (fun h => hfunc fun hnil => h (by simp_all [Node.outerFunctionsOfAll]))
      (himp.mono fun x hx => by simp [Node.importsOfAll, hx]))
  | value _ he => exact hcomputing (expr_computing _ he).2
  | declare _ _ hr =>
    refine Throughout.cons ?_ ((hcomputing hr.of_expr).append ?_) <;>
      exact throughout_plain hplain (shaped_of rfl rfl rfl rfl rfl) rfl
  | assign _ _ hr | ret _ hr =>
    apply (hcomputing hr.of_expr).append
    exact throughout_plain hplain (shaped_of rfl rfl rfl rfl rfl) rfl
  | cond hc _ _ ih ih' =>
    simp only [Node.outerFunctionsOfAll, Node.outerFunctions, Node.importsOfAll, Node.imports,
      List.append_nil] at hfunc himp
    have hyes := ih (fun h => hfunc fun hnil => h (List.append_eq_nil_iff.1 hnil).1)
      (himp.mono fun x hx => List.mem_append_left _ hx)
    have hno := ih' (fun h => hfunc fun hnil => h (List.append_eq_nil_iff.1 hnil).2)
      (himp.mono fun x hx => List.mem_append_right _ hx)
    exact (hcomputing (expr_computing _ hc).2).append (throughout_condScope hplain _ hyes hno)
  | loop hc _ ih =>
    simp only [Node.outerFunctionsOfAll, Node.outerFunctions, Node.importsOfAll, Node.imports,
      List.append_nil] at hfunc himp
    exact throughout_loopScope hplain _ (hcomputing (expr_computing _ hc).2) (ih hfunc himp)
  | func =>
    exact throughout_single (hfunc (by simp [Node.outerFunctionsOfAll, Node.outerFunctions]) _)
      (by rintro ⟨⟩)
  | splice h =>
    obtain ⟨includer, unit, hinc, hunit, rfl, -⟩ := splice_eq_ok h
    exact himp includer hinc _ (by simp [Node.importsOfAll, Node.imports]) unit hunit
  | leave | pass => exact throughout_plain hplain (shaped_of rfl rfl rfl rfl rfl) rfl

end Lowering

end UnitScript
