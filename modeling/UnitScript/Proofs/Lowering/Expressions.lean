import UnitScript.Proofs.Lowering.Forms
import UnitScript.Proofs.Lowering.Scratch
import UnitScript.Proofs.Lowering.Strings
import UnitScript.Proofs.Machine.Course
import UnitScript.Proofs.Meaning.Operators

/-!
# Compiled expressions compute their values

The machine mirrors direct evaluation when the program's own cells and the heap are the same in
both. From a machine that does, the code of an expression leaves the value of the expression in the
cell that the compiler names, or fails where the expression has no value. Besides the cells that
results are left in it writes only scratch cells that are not in use.
-/

namespace UnitScript

def Machine.put (m : Machine) (x : Name) (v : Value) : Machine :=
  { m with globals := m.globals.insert x v }

theorem Machine.frame_of_top {m : Machine} (h : m.frames = []) : m.frame = m.globals := by
  unfold Machine.frame
  rw [h]
  rfl

theorem Machine.setFrame_of_top {m : Machine} (h : m.frames = []) (f : Frame) :
    m.setFrame f = { m with globals := f } := by
  unfold Machine.setFrame
  rw [h]

namespace Lowering

open Machine

/-- The machine, at the top level, has the cells and the heap of direct evaluation, and its scratch
cells are declared. -/
structure Mirrors (ctx : Context) (strings : NameMap Bytes) (cells : NameMap Value) (heap : Heap)
    (m : Machine) : Prop where
  frames : m.frames = []
  functions : m.functions = .empty
  data : m.data = strings
  result : m.result = .null
  heap_eq : m.heap = heap
  user : ∀ x, ctx.IsUser x → m.globals.get? x = cells.get? x
  scratch : ∀ r, (m.globals.get? (ctx.scratch.name r)).isSome = true

def Holds (m : Machine) (place : Operand) (v : Value) : Prop :=
  ∃ x, place = .cell x ∧ m.globals.get? x = some v

/-- Cells of the top level that an expression may not write are the same in both machines. -/
def Keeps (ctx : Context) (live : Live) (m m' : Machine) : Prop :=
  ∀ x, ¬ctx.Writes live x → m'.globals.get? x = m.globals.get? x

variable {ctx : Context} {strings : NameMap Bytes} {cells : NameMap Value} {heap heap' : Heap}
  {m m₁ m' : Machine} {live live' : Live} {x : Name} {v : Value} {src : Operand} {p : Name}

theorem Keeps.refl (ctx : Context) (live : Live) (m : Machine) : Keeps ctx live m m :=
  fun _ _ => rfl

theorem Keeps.trans (h : Keeps ctx live m m₁) (g : Keeps ctx live m₁ m') : Keeps ctx live m m' :=
  fun x hx => (g x hx).trans (h x hx)

theorem Keeps.of_later (h : Keeps ctx live' m m') (hsec : live.secondary ≤ live'.secondary)
    (hagg : live.aggregate ≤ live'.aggregate) : Keeps ctx live m m' :=
  fun x hx => h x fun hw => hx (hw.mono hsec hagg)

theorem keeps_put (hx : ctx.Writes live x) : Keeps ctx live m (m.tick.put x v) := by
  intro y hy
  have hne : x ≠ y := by
    rintro rfl
    exact hy hx
  exact (NameMap.get?_insert m.globals x y v).trans (if_neg hne)

theorem holds_put (m : Machine) (x : Name) (v : Value) : Holds (m.put x v) (.cell x) v :=
  ⟨x, rfl, by simp [Machine.put]⟩

namespace Mirrors

theorem tick (h : Mirrors ctx strings cells heap m) : Mirrors ctx strings cells heap m.tick :=
  ⟨h.frames, h.functions, h.data, h.result, h.heap_eq, h.user, h.scratch⟩

theorem put (h : Mirrors ctx strings cells heap m) (hx : ¬ctx.IsUser x) :
    Mirrors ctx strings cells heap (m.put x v) := by
  refine ⟨h.frames, h.functions, h.data, h.result, h.heap_eq, fun y hy => ?_, fun r => ?_⟩
  · have hne : x ≠ y := by
      rintro rfl
      exact hx hy
    simp [Machine.put, hne, h.user y hy]
  · have hr := h.scratch r
    by_cases hxr : x = ctx.scratch.name r <;> simp [Machine.put, hxr, hr]

theorem put_user (h : Mirrors ctx strings cells heap m) (hx : ctx.IsUser x) :
    Mirrors ctx strings (cells.insert x v) heap (m.put x v) := by
  refine ⟨h.frames, h.functions, h.data, h.result, h.heap_eq, fun y hy => ?_, fun r => ?_⟩
  · simp [Machine.put, h.user y hy]
  · have hr := h.scratch r
    simp [Machine.put, hx.2 r, hr]

theorem assign?_eq (h : Mirrors ctx strings cells heap m) (x : Name) (v : Value) :
    m.assign? (.cell x) v = if (m.globals.get? x).isSome then some (m.put x v) else none := by
  simp only [Machine.assign?, Machine.frame_of_top h.frames, Machine.setFrame_of_top h.frames]
  by_cases hx : m.globals.contains x = true
  · rw [if_pos hx]
    exact (if_pos hx).symm
  · rw [if_neg hx, if_neg hx]
    exact (if_neg hx).symm

theorem lookup?_of_some (h : Mirrors ctx strings cells heap m) (hx : m.globals.get? x = some v) :
    m.lookup? x = some v := by
  unfold Machine.lookup?
  rw [Machine.frame_of_top h.frames, hx]

theorem find?_eq_none (hx : 46 ∉ x) : Builtin.find? x = none := by
  refine List.find?_eq_none.2 fun b _ hb => hx ?_
  have hname : b.name = x := by simpa using hb
  subst hname
  cases b <;> decide

theorem value?_user (h : Mirrors ctx strings cells heap m) (hx : ctx.IsUser x) :
    m.value? (.cell x) = cells.get? x := by
  change m.lookup? x = _
  rw [← h.user x hx]
  unfold Machine.lookup?
  rw [Machine.frame_of_top h.frames, h.functions, find?_eq_none hx.1]
  cases m.globals.get? x <;> rfl

theorem value?_of_holds (h : Mirrors ctx strings cells heap m) {place : Operand}
    (hv : Holds m place v) : m.value? place = some v := by
  obtain ⟨x, rfl, hx⟩ := hv
  exact h.lookup?_of_some hx

end Mirrors

/-- Code with a value: it runs to its end in a state that fits the value, or fails without one. -/
def Yields {α : Type} (limits : Limits) (c : Code) (m : Machine) (o : Option α)
    (P : α → Machine → Prop) : Prop :=
  match o with
  | some a => ∃ m', Follows limits c m (.passes m') ∧ P a m'
  | none => Follows limits c m .fails

namespace Yields

variable {α β : Type} {limits : Limits} {c d : Code} {o : Option α} {P Q : α → Machine → Prop}

theorem bind {g : α → Option β} {R : β → Machine → Prop} (h : Yields limits c m o P)
    (hd : ∀ a m', o = some a → P a m' → Yields limits d m' (g a) R) :
    Yields limits (c ++ d) m (o.bind g) R := by
  cases o with
  | none =>
    have hc : Follows limits c m .fails := h
    exact hc.stop trivial d
  | some a =>
    obtain ⟨m₁, hc, hP⟩ := h
    have hd := hd a m₁ rfl hP
    rw [Option.bind_some]
    cases hg : g a with
    | none =>
      rw [hg] at hd
      have hd : Follows limits d m₁ .fails := hd
      exact hc.append hd
    | some b =>
      rw [hg] at hd
      obtain ⟨m', hd, hR⟩ := hd
      exact ⟨m', hc.append hd, hR⟩

theorem after (hc : Follows limits c m (.passes m₁)) (h : Yields limits d m₁ o P) :
    Yields limits (c ++ d) m o P := by
  cases o with
  | none =>
    have hd : Follows limits d m₁ .fails := h
    exact hc.append hd
  | some a =>
    obtain ⟨m', hd, hP⟩ := h
    exact ⟨m', hc.append hd, hP⟩

theorem passing (h : Yields limits c m o P)
    (hd : ∀ a m₁, P a m₁ → ∃ m', Follows limits d m₁ (.passes m') ∧ Q a m') :
    Yields limits (c ++ d) m o Q := by
  cases o with
  | none =>
    have hc : Follows limits c m .fails := h
    exact hc.stop trivial d
  | some a =>
    obtain ⟨m₁, hc, hP⟩ := h
    obtain ⟨m', hd, hQ⟩ := hd a m₁ hP
    exact ⟨m', hc.append hd, hQ⟩

theorem mono (h : Yields limits c m o P) (hPQ : ∀ a m', P a m' → Q a m') :
    Yields limits c m o Q := by
  cases o with
  | none => exact h
  | some a =>
    obtain ⟨m', hc, hP⟩ := h
    exact ⟨m', hc, hPQ a m' hP⟩

theorem map {f : α → β} {R : β → Machine → Prop} (h : Yields limits c m o P)
    (hPR : ∀ a m', P a m' → R (f a) m') : Yields limits c m (o.map f) R := by
  cases o with
  | none => exact h
  | some a =>
    obtain ⟨m', hc, hP⟩ := h
    exact ⟨m', hc, hPR a m' hP⟩

end Yields

section Instructions

variable {limits : Limits} (hl : limits.steps ≤ 0) {i : Instruction} {o : Option Value}
include hl

theorem yields_put (hm : Mirrors ctx strings cells heap m) (hop : i.op.isLocal = true)
    (hx : (m.globals.get? x).isSome = true)
    (he : m.tick.effect? i = o.bind fun v => m.tick.assign? (.cell x) v) :
    Yields limits [i] m o fun v m' => m' = m.tick.put x v := by
  cases o with
  | none => exact follows_local_fails hl hop he
  | some v =>
    refine ⟨m.tick.put x v, follows_local hl hop ?_, rfl⟩
    rw [he, Option.bind_some, hm.tick.assign?_eq]
    exact if_pos hx

theorem yields_mov (hm : Mirrors ctx strings cells heap m) (src : Operand)
    (hx : (m.globals.get? x).isSome = true) :
    Yields limits [.mov src (.cell x)] m (m.value? src) fun v m' => m' = m.tick.put x v :=
  yields_put hl hm rfl hx rfl

theorem follows_var (hf : m.frames = []) (storage : Storage) (x : Name) :
    Follows limits [.var storage x] m (.passes (m.tick.put x (zero storage))) := by
  have htop : m.tick.frames = [] := hf
  refine follows_local hl rfl ?_
  change some (m.tick.setFrame (m.tick.frame.insert x (zero storage))) = _
  rw [Machine.setFrame_of_top htop, Machine.frame_of_top htop]
  rfl

theorem follows_cellDeclaration (hm : Mirrors ctx strings cells heap m)
    (role : Role) (n : Nat) :
    ∃ m', Follows limits (ctx.cellDeclaration role n) m (.passes m') ∧
      Mirrors ctx strings cells heap m' ∧
      (m'.globals.get? (ctx.cellName role n)).isSome = true ∧
      ∀ x, x ≠ ctx.cellName role n → m'.globals.get? x = m.globals.get? x := by
  cases n with
  | zero => exact ⟨m, follows_nil limits m, hm, hm.scratch role, fun _ _ => rfl⟩
  | succ n =>
    refine ⟨_, follows_var hl hm.frames role.storage (ctx.cellName role (n + 1)), ?_, ?_, ?_⟩
    · exact hm.tick.put fun hu => hu.ne_cellName role (n + 1) rfl
    · simp [Machine.put]
    · intro x hx
      exact (NameMap.get?_insert m.globals _ x _).trans (if_neg fun h => hx h.symm)

end Instructions

/-! ## The value of an expression -/

open Meaning (Formula)

/-- From every machine that mirrors direct evaluation, the code leaves the value of the expression
in the place, or fails where the expression has none. -/
def Computes (ctx : Context) (limits : Limits) (strings : NameMap Bytes) (live : Live) (n : Node)
    (code : Code) (place : Operand) : Prop :=
  ∀ cells heap m, Mirrors ctx strings cells heap m →
    Yields limits code m (Meaning.expr cells n heap) fun r m' =>
      Mirrors ctx strings cells r.2 m' ∧ Holds m' place r.1 ∧ Keeps ctx live m m'

def IsResult (ctx : Context) (p : Name) : Prop := p = ctx.scratch.primary ∨ p = ctx.scratch.struct

theorem IsResult.writes (hp : IsResult ctx p) (live : Live) : ctx.Writes live p := by
  rcases hp with hp | hp
  · exact .inl hp
  · exact .inr (.inl hp)

theorem IsResult.declared (hp : IsResult ctx p) (hm : Mirrors ctx strings cells heap m) :
    (m.globals.get? p).isSome = true := by
  rcases hp with rfl | rfl
  · exact hm.scratch .primary
  · exact hm.scratch .struct

theorem isResult_primary (ctx : Context) : IsResult ctx ctx.scratch.primary := .inl rfl

theorem put_result (live : Live) (hp : IsResult ctx p)
    (hm : Mirrors ctx strings cells heap m) :
    Mirrors ctx strings cells heap (m.tick.put p v) ∧ Holds (m.tick.put p v) (.cell p) v ∧
      Keeps ctx live m (m.tick.put p v) :=
  ⟨hm.tick.put fun hu => hu.not_writes live (hp.writes live), holds_put _ _ _,
    keeps_put (hp.writes live)⟩

theorem expr_operand (hm : Mirrors ctx strings cells heap m) {n : Node} {o : Operand}
    (hn : Formula ctx.IsUser n) (ho : n.operand? = some o) (h : Heap) :
    Meaning.expr cells n h = (m.value? o).map (·, h) := by
  cases hn with
  | number pos v =>
    cases ho
    rw [Meaning.expr]
    rfl
  | ident pos hx =>
    cases ho
    rw [Meaning.expr, hm.value?_user hx]
    cases cells.get? _ <;> rfl
  | string | binary | index | array => cases ho

section Cases

variable {limits : Limits} (hl : limits.steps ≤ 0) {n left right : Node} {code : Code}
include hl

theorem computes_mov (hp : IsResult ctx p)
    (hsrc : ∀ cells heap m, Mirrors ctx strings cells heap m →
      Meaning.expr cells n heap = (m.value? src).map (·, heap)) :
    Computes ctx limits strings live n [.mov src (.cell p)] (.cell p) := by
  intro cells heap m hm
  rw [hsrc cells heap m hm]
  refine (yields_mov hl hm src (hp.declared hm)).map ?_
  rintro v m' rfl
  exact put_result live hp hm

theorem yields_combine (op : Operator) (hop : (op.isArithmetic || op.isComparison) = true)
    (hm : Mirrors ctx strings cells heap m) (a b : Operand) :
    Yields limits [combine op a b ctx.primary] m
      ((m.value? a).bind fun x => (m.value? b).bind fun y => Meaning.operation op x y)
      fun v m' => m' = m.tick.put ctx.scratch.primary v := by
  refine yields_put hl hm (Meaning.isLocal_combine op _ _ _) ((isResult_primary ctx).declared hm) ?_
  rw [Meaning.effect?_combine hop]
  cases ha : m.value? a with
  | none => simp [show m.tick.value? a = none from ha]
  | some x =>
    cases hb : m.value? b with
    | none => simp [show m.tick.value? a = some x from ha, show m.tick.value? b = none from hb]
    | some y =>
      simp [show m.tick.value? a = some x from ha, show m.tick.value? b = some y from hb,
        Context.primary]

variable {op : Operator} (hop : (op.isArithmetic || op.isComparison) = true) {a b : Operand}
  (pos : Position) (type : Option TypeExpr)
include hop

theorem computes_direct (hleft : Formula ctx.IsUser left) (hright : Formula ctx.IsUser right)
    (ha : left.operand? = some a) (hb : right.operand? = some b) :
    Computes ctx limits strings live (.binary pos op left right type)
      [combine op a b ctx.primary] ctx.primary := by
  intro cells heap m hm
  have heval : Meaning.expr cells (.binary pos op left right type) heap =
      ((m.value? a).bind fun x => (m.value? b).bind fun y => Meaning.operation op x y).map
        (·, heap) := by
    rw [Meaning.expr_binary, expr_operand hm hleft ha]
    simp only [expr_operand hm hright hb]
    cases m.value? a with
    | none => rfl
    | some x => cases m.value? b <;> rfl
  rw [heval]
  refine (yields_combine hl op hop hm a b).map ?_
  rintro v m' rfl
  exact put_result live (isResult_primary ctx) hm

/-- The value of a left operand that stands for itself is the same before and after the right side
is computed. -/
theorem computes_onRight (hleft : Formula ctx.IsUser left) (ha : left.operand? = some a)
    (hcode : Computes ctx limits strings live right code ctx.primary) :
    Computes ctx limits strings live (.binary pos op left right type)
      (code ++ [combine op a ctx.primary ctx.primary]) ctx.primary := by
  intro cells heap m hm
  have heval : Meaning.expr cells (.binary pos op left right type) heap =
      (Meaning.expr cells right heap).bind fun r =>
        ((m.value? a).bind fun x => Meaning.operation op x r.1).map (·, r.2) := by
    rw [Meaning.expr_binary, expr_operand hm hleft ha]
    cases m.value? a with
    | none => cases Meaning.expr cells right heap <;> rfl
    | some x => rfl
  rw [heval]
  refine (hcode cells heap m hm).bind ?_
  rintro ⟨y, heap'⟩ m₁ - ⟨hm₁, hy, hkeeps⟩
  have ha₁ : m₁.value? a = m.value? a := by
    have h := (expr_operand hm₁ hleft ha heap).symm.trans (expr_operand hm hleft ha heap)
    exact Option.map_injective (fun _ _ h => (Prod.mk.inj h).1) h
  have hy₁ : m₁.value? ctx.primary = some y := hm₁.value?_of_holds hy
  have hcomb := yields_combine hl op hop hm₁ a ctx.primary
  rw [ha₁, hy₁] at hcomb
  refine hcomb.map ?_
  rintro v m' rfl
  obtain ⟨hm', hv, hk⟩ := put_result live (isResult_primary ctx) hm₁
  exact ⟨hm', hv, hkeeps.trans hk⟩

theorem computes_onLeft (hright : Formula ctx.IsUser right) (hb : right.operand? = some b)
    (hcode : Computes ctx limits strings live left code ctx.primary) :
    Computes ctx limits strings live (.binary pos op left right type)
      (code ++ [combine op ctx.primary b ctx.primary]) ctx.primary := by
  intro cells heap m hm
  rw [Meaning.expr_binary]
  refine (hcode cells heap m hm).bind ?_
  rintro ⟨x, heap'⟩ m₁ - ⟨hm₁, hx, hkeeps⟩
  have hx₁ : m₁.value? ctx.primary = some x := hm₁.value?_of_holds hx
  have hcomb := yields_combine hl op hop hm₁ ctx.primary b
  rw [hx₁, Option.bind_some] at hcomb
  have heval : ((Meaning.expr cells right heap').bind fun r =>
      (Meaning.operation op x r.1).map (·, r.2)) =
      ((m₁.value? b).bind fun y => Meaning.operation op x y).map (·, heap') := by
    rw [expr_operand hm₁ hright hb]
    cases m₁.value? b <;> rfl
  rw [heval]
  refine hcomb.map ?_
  rintro v m' rfl
  obtain ⟨hm', hv, hk⟩ := put_result live (isResult_primary ctx) hm₁
  exact ⟨hm', hv, hkeeps.trans hk⟩

/-- The left value waits in a secondary cell, which the code of the right side does not write. -/
theorem computes_onBoth (hs : ctx.scratch.Separate) {leftCode rightCode : Code}
    (hleft : Computes ctx limits strings live left leftCode ctx.primary)
    (hright : Computes ctx limits strings live.withSecondary right rightCode ctx.primary) :
    Computes ctx limits strings live (.binary pos op left right type)
      (leftCode ++ ctx.cellDeclaration .secondary live.secondary ++
        [.mov ctx.primary (.cell (ctx.cellName .secondary live.secondary))] ++ rightCode ++
        [combine op (.cell (ctx.cellName .secondary live.secondary)) ctx.primary ctx.primary])
      ctx.primary := by
  intro cells heap m hm
  have hwrites : ctx.Writes live (ctx.cellName .secondary live.secondary) :=
    .inr (.inr (.inl ⟨_, Nat.le_refl _, rfl⟩))
  have hprimary : ctx.scratch.primary ≠ ctx.cellName .secondary live.secondary := by
    intro h
    exact absurd (Context.cellName_injective hs ((Context.cellName_zero ctx .primary).trans h)).1
      (by decide)
  -- after the first three parts the left value stands in the secondary cell
  have hsaved : Yields limits
      (leftCode ++ (ctx.cellDeclaration .secondary live.secondary ++
        [.mov ctx.primary (.cell (ctx.cellName .secondary live.secondary))])) m
      (Meaning.expr cells left heap) fun r m' => Mirrors ctx strings cells r.2 m' ∧
        Holds m' (.cell (ctx.cellName .secondary live.secondary)) r.1 ∧ Keeps ctx live m m' := by
    refine (hleft cells heap m hm).passing ?_
    rintro ⟨x, heap'⟩ m₁ ⟨hm₁, ⟨p, hp, hx⟩, hkeeps⟩
    obtain ⟨m₂, hdecl, hm₂, hsome, hsame⟩ :=
      follows_cellDeclaration hl hm₁ .secondary live.secondary
    cases hp
    have hx₂ : m₂.value? ctx.primary = some x :=
      hm₂.lookup?_of_some ((hsame _ hprimary).trans hx)
    have hmov := yields_mov hl hm₂ ctx.primary hsome
    rw [hx₂] at hmov
    obtain ⟨m₃, hmov, rfl⟩ := hmov
    refine ⟨_, hdecl.append hmov, hm₂.tick.put fun hu => hu.not_writes live hwrites,
      holds_put _ _ _, hkeeps.trans (Keeps.trans ?_ (keeps_put hwrites))⟩
    intro y hy
    exact hsame y fun h => hy (h ▸ hwrites)
  have hcode : leftCode ++ ctx.cellDeclaration .secondary live.secondary ++
      [.mov ctx.primary (.cell (ctx.cellName .secondary live.secondary))] ++ rightCode ++
      [combine op (.cell (ctx.cellName .secondary live.secondary)) ctx.primary ctx.primary] =
      (leftCode ++ (ctx.cellDeclaration .secondary live.secondary ++
        [.mov ctx.primary (.cell (ctx.cellName .secondary live.secondary))])) ++ (rightCode ++
      [combine op (.cell (ctx.cellName .secondary live.secondary)) ctx.primary ctx.primary]) := by
    simp only [List.append_assoc]
  rw [hcode, Meaning.expr_binary]
  refine hsaved.bind ?_
  rintro ⟨x, heap₁⟩ m₁ - ⟨hm₁, ⟨p, hp, hx⟩, hkeeps₁⟩
  cases hp
  refine (hright cells heap₁ m₁ hm₁).bind ?_
  rintro ⟨y, heap₂⟩ m₂ - ⟨hm₂, hy, hkeeps₂⟩
  have hx₂ : m₂.value? (.cell (ctx.cellName .secondary live.secondary)) = some x := by
    refine hm₂.lookup?_of_some ((hkeeps₂ _ ?_).trans hx)
    exact Context.not_writes_secondary hs (Nat.lt_succ_self _)
  have hy₂ : m₂.value? ctx.primary = some y := hm₂.value?_of_holds hy
  have hcomb :=
    yields_combine hl op hop hm₂ (.cell (ctx.cellName .secondary live.secondary)) ctx.primary
  rw [hx₂, hy₂] at hcomb
  refine hcomb.map ?_
  rintro v m' rfl
  obtain ⟨hm', hv, hk⟩ := put_result live (isResult_primary ctx) hm₂
  have hkeeps₂ : Keeps ctx live m₁ m₂ := hkeeps₂.of_later (Nat.le_succ _) (Nat.le_refl _)
  exact ⟨hm', hv, hkeeps₁.trans (hkeeps₂.trans hk)⟩

end Cases

section Reaching

variable {limits : Limits} {n : Node} {code : Code}

/-- A node is within reach of an operand: the code runs to its end and the operand then stands for
the value, if there is one; or the code fails where there is no value. -/
def Reaches (ctx : Context) (limits : Limits) (strings : NameMap Bytes) (live : Live) (n : Node)
    (code : Code) (src : Operand) : Prop :=
  ∀ cells heap m, Mirrors ctx strings cells heap m →
    (Meaning.expr cells n heap = none ∧ Follows limits code m .fails) ∨
    ∃ heap' m', Follows limits code m (.passes m') ∧ Mirrors ctx strings cells heap' m' ∧
      Keeps ctx live m m' ∧ Meaning.expr cells n heap = (m'.value? src).map (·, heap')

theorem Reach.reaches {st st' : State} (h : Reach ctx live n st st' code src)
    (hn : Formula ctx.IsUser n) (hcover : Covers strings st')
    (hexpr : ∀ {code place}, expr ctx live n st = .ok ((code, place), st') →
      Computes ctx limits strings live n code place) :
    Reaches ctx limits strings live n code src := by
  intro cells heap m hm
  cases h with
  | operand ho _ =>
    exact .inr ⟨heap, m, follows_nil limits m, hm, .refl ctx live m, expr_operand hm hn ho heap⟩
  | @string pos value hstr hst =>
    subst hstr hst
    refine .inr ⟨heap, m, follows_nil limits m, hm, .refl ctx live m, ?_⟩
    have hd : strings.get? (nextString ctx st) = some value :=
      hcover ⟨nextString ctx st, value⟩ (by simp [withString])
    simp [Meaning.expr, Machine.value?, hm.data, hd]
  | computed he =>
    have hc := hexpr he cells heap m hm
    cases hv : Meaning.expr cells n heap with
    | none =>
      rw [hv] at hc
      exact .inl ⟨rfl, hc⟩
    | some r =>
      rw [hv] at hc
      obtain ⟨m', hf, hm', hplace, hkeeps⟩ := hc
      refine .inr ⟨r.2, m', hf, hm', hkeeps, ?_⟩
      rw [hm'.value?_of_holds hplace]
      rfl

theorem Reaches.bind {β : Type} {d : Code} {g : Value × Heap → Option β}
    {R : β → Machine → Prop} (h : Reaches ctx limits strings live n code src)
    (hm : Mirrors ctx strings cells heap m)
    (hd : ∀ heap' m', Mirrors ctx strings cells heap' m' → Keeps ctx live m m' →
      Meaning.expr cells n heap = (m'.value? src).map (·, heap') →
      Yields limits d m' ((m'.value? src).bind fun v => g (v, heap')) R) :
    Yields limits (code ++ d) m ((Meaning.expr cells n heap).bind g) R := by
  rcases h cells heap m hm with ⟨hnone, hf⟩ | ⟨heap', m', hf, hm', hkeeps, hval⟩
  · rw [hnone]
    exact hf.stop trivial d
  · have hd := hd heap' m' hm' hkeeps hval
    have heq : ((m'.value? src).map (·, heap')).bind g =
        (m'.value? src).bind fun v => g (v, heap') := by
      cases m'.value? src <;> rfl
    rw [hval, heq]
    cases ho : (m'.value? src).bind fun v => g (v, heap') with
    | none =>
      rw [ho] at hd
      have hd : Follows limits d m' .fails := hd
      exact hf.append hd
    | some b =>
      rw [ho] at hd
      obtain ⟨m₂, hd, hR⟩ := hd
      exact ⟨m₂, hf.append hd, hR⟩

end Reaching

end Lowering

end UnitScript
