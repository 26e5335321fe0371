import UnitScript.Proofs.Lowering.Expressions

/-!
# Compiled arrays, and all expressions

An array is allocated before its elements are computed, and its pointer waits in an aggregate cell
while they are stored one by one. With this every form of expression is covered: the code of a
formula computes the value that direct evaluation gives.
-/

namespace UnitScript.Lowering

open Machine
open Meaning (Formula)

variable {ctx : Context} {strings : NameMap Bytes} {cells : NameMap Value} {heap heap' : Heap}
  {m m' : Machine} {live : Live} {x : Name} {v : Value}

theorem Mirrors.withHeap (hm : Mirrors ctx strings cells heap m) (h : Heap) :
    Mirrors ctx strings cells h { m with heap := h } :=
  ⟨hm.frames, hm.functions, hm.data, hm.result, rfl, hm.user, hm.scratch⟩

theorem storeThrough?_eq {block k : Nat} (hk : k < Meaning.maxCells) :
    m.storeThrough? v (.ptr block 0) (.int (Int64.ofNat k)) =
      (Meaning.write? m.heap block k v).map fun h => { m with heap := h } := by
  obtain ⟨hneg, hplace⟩ := Meaning.ofNat_cell hk
  simp only [Machine.storeThrough?, Value.move, Value.address, Int64.zero_add, hneg, hplace,
    Meaning.write?]
  by_cases hsize : k < m.heap.blockSize block
  · have hle : ¬m.heap.blockSize block ≤ k := by omega
    simp [hsize, hle]
  · have hle : m.heap.blockSize block ≤ k := by omega
    simp [hsize, hle]

section Arrays

variable {limits : Limits} (hl : limits.steps ≤ 0) {n : Node} {code : Code}
include hl

theorem yields_deref (hm : Mirrors ctx strings cells heap m) {p : Value}
    (hp : m.value? ctx.primary = some p) :
    Yields limits [.deref ctx.primary ctx.primary] m (Meaning.fetch? heap p)
      fun v m' => m' = m.tick.put ctx.scratch.primary v := by
  refine yields_put hl hm rfl ((isResult_primary ctx).declared hm) ?_
  change ((m.tick.value? ctx.primary).bind fun q => (m.heap.read q).toOption.bind fun v =>
    m.tick.assign? ctx.primary v) = _
  rw [show m.tick.value? ctx.primary = some p from hp, Option.bind_some, Meaning.toOption_read,
    hm.heap_eq]
  rfl

theorem computes_index (pos : Position) {name : Name} {index : Node} (hname : ctx.IsUser name)
    (hcode : Computes ctx limits strings live index code ctx.primary) :
    Computes ctx limits strings live (.index pos name index)
      (code ++ [.arith .add (.cell name) ctx.primary ctx.primary,
        .deref ctx.primary ctx.primary]) ctx.primary := by
  intro cells heap m hm
  rw [Meaning.expr_index]
  refine (hcode cells heap m hm).bind ?_
  rintro ⟨i, heap'⟩ m₁ - ⟨hm₁, hi, hkeeps⟩
  have hadd := yields_combine hl .add rfl hm₁ (.cell name) ctx.primary
  rw [hm₁.value?_user hname, hm₁.value?_of_holds hi] at hadd
  have hread := hadd.bind (d := [.deref ctx.primary ctx.primary]) (g := Meaning.fetch? heap')
    (R := fun v m' => Mirrors ctx strings cells heap' m' ∧ Holds m' ctx.primary v ∧
      Keeps ctx live m m') ?_
  · exact hread.map fun v m' h => h
  · rintro p m₂ - rfl
    obtain ⟨hm₂, hp, hk⟩ := put_result (v := p) live (isResult_primary ctx) hm₁
    refine (yields_deref hl hm₂ (hm₂.value?_of_holds hp)).mono ?_
    rintro v m' rfl
    obtain ⟨hm', hv, hk'⟩ := put_result live (isResult_primary ctx) hm₂
    exact ⟨hm', hv, hkeeps.trans (hk.trans hk')⟩

theorem yields_pmov (hm : Mirrors ctx strings cells heap m) (src : Operand) {ptr : Name}
    {block k : Nat} (hp : m.globals.get? ptr = some (.ptr block 0)) (hk : k < Meaning.maxCells) :
    Yields limits [.pmov src (.cell ptr) (.imm (Int64.ofNat k))] m
      ((m.value? src).bind fun v => Meaning.write? heap block k v)
      fun h m' => m' = { m.tick with heap := h } := by
  have he : m.tick.effect? (.pmov src (.cell ptr) (.imm (Int64.ofNat k))) =
      ((m.value? src).bind fun v => Meaning.write? heap block k v).map
        fun h => { m.tick with heap := h } := by
    change ((m.value? src).bind fun v => (m.lookup? ptr).bind fun base =>
      m.tick.storeThrough? v base (.int (Int64.ofNat k))) = _
    rw [hm.lookup?_of_some hp, ← hm.heap_eq]
    cases m.value? src with
    | none => rfl
    | some v => exact storeThrough?_eq hk
  cases ho : (m.value? src).bind fun v => Meaning.write? heap block k v with
  | none =>
    rw [ho] at he
    exact follows_local_fails hl rfl he
  | some h =>
    rw [ho] at he
    exact ⟨_, follows_local hl rfl he, rfl⟩

theorem yields_storeAll {elements : List Node} (hes : ∀ e ∈ elements, Formula ctx.IsUser e)
    (hcomp : ∀ e ∈ elements, ∀ {st code place st'}, expr ctx live e st = .ok ((code, place), st') →
      Covers strings st' → Computes ctx limits strings live e code place)
    {ptr : Name} (hptr : ¬ctx.Writes live ptr) {i block : Nat} {st st' : State}
    (h : storeAll ctx live (.cell ptr) i elements st = .ok (code, st'))
    (hcover : Covers strings st') (hm : Mirrors ctx strings cells heap m)
    (hp : m.globals.get? ptr = some (.ptr block 0))
    (hb : block < heap.size) (hsize : heap.blockSize block < Meaning.maxCells)
    (hi : i ≤ heap.blockSize block) :
    Yields limits code m (Meaning.fill cells block i elements heap) fun heap' m' =>
      Mirrors ctx strings cells heap' m' ∧ Keeps ctx live m m' := by
  induction elements generalizing i st code heap m with
  | nil =>
    rw [storeAll] at h
    obtain ⟨rfl, rfl⟩ := pure_eq_ok.1 h
    rw [Meaning.fill]
    exact ⟨m, follows_nil limits m, hm, .refl ctx live m⟩
  | cons e rest ih =>
    obtain ⟨first, src, mid, more, hreach, hmore, rfl⟩ := storeAll_cons_eq_ok h
    have he := hes e List.mem_cons_self
    have hrest : ∀ e' ∈ rest, Formula ctx.IsUser e' :=
      fun e' he' => hes e' (List.mem_cons_of_mem _ he')
    have hgrows : Grows ctx mid st' := (grows_steady ctx).hands (hands_of_storeAll hmore)
    have hmid : Covers strings mid := hcover.before hgrows
    have hreaches := hreach.reaches he hmid fun hx => hcomp e List.mem_cons_self hx hmid
    rw [Meaning.fill_cons, List.append_assoc]
    refine hreaches.bind hm fun heap₁ m₁ hm₁ hkeeps hval => ?_
    have hp₁ : m₁.globals.get? ptr = some (.ptr block 0) := (hkeeps ptr hptr).trans hp
    have hmov := yields_pmov hl hm₁ src hp₁ (Nat.lt_of_le_of_lt hi hsize)
    rw [← Option.bind_assoc]
    refine hmov.bind ?_
    rintro heap₂ m₂ hwritten rfl
    obtain ⟨v, hv, hw⟩ := Option.bind_eq_some_iff.1 hwritten
    rw [hv] at hval
    -- neither the element nor the store has changed the size of the block
    have hkept : Meaning.HeapKept heap heap₂ :=
      (Meaning.heapKept_expr he hval).trans (Meaning.heapKept_write hw)
    have hsize₁ := (Meaning.heapKept_expr he hval).2 block hb
    have hsize₂ := hkept.2 block hb
    have hin := Meaning.lt_of_write hw
    refine (ih hrest (fun e' he' => hcomp e' (List.mem_cons_of_mem _ he')) hmore
      (hm₁.tick.withHeap heap₂) hp₁ (Nat.lt_of_lt_of_le hb hkept.1) (by omega) (by omega)).mono ?_
    rintro heap' m' ⟨hm', hk⟩
    exact ⟨hm', hkeeps.trans hk⟩

theorem yields_alloc (hm : Mirrors ctx strings cells heap m) (count : Int64)
    (hx : (m.globals.get? x).isSome = true) (hu : ¬ctx.IsUser x) :
    Yields limits [.alloc .i64 count (.cell x)] m
      (if count < 0 then none else some (heap.alloc count.toNatClampNeg).1) fun h m' =>
        Mirrors ctx strings cells h m' ∧ m'.globals.get? x = some (.ptr heap.size 0) ∧
          ∀ y, y ≠ x → m'.globals.get? y = m.globals.get? y := by
  have he : m.tick.effect? (.alloc .i64 count (.cell x)) =
      if count < 0 then none
      else { m.tick with heap := (m.heap.alloc count.toNatClampNeg).1 }.assign? (.cell x)
        (.ptr m.heap.size 0) := rfl
  rw [hm.heap_eq] at he
  by_cases hc : count < 0
  · rw [if_pos hc] at he ⊢
    exact follows_local_fails hl rfl he
  · rw [if_neg hc, (hm.tick.withHeap _).assign?_eq] at he
    rw [if_neg hc]
    refine ⟨_, follows_local hl rfl (he.trans (if_pos hx)), (hm.tick.withHeap _).put hu, ?_, ?_⟩
    · simp [Machine.put]
    · intro y hy
      exact (NameMap.get?_insert m.globals x y _).trans (if_neg fun h => hy h.symm)

/-- The pointer of an array waits in an aggregate cell, which the code of the elements does not
write. -/
theorem computes_array (hs : ctx.scratch.Separate) (pos : Position) {elements : List Node}
    (hes : ∀ e ∈ elements, Formula ctx.IsUser e)
    (hcomp : ∀ e ∈ elements, ∀ {st code place st'},
      expr ctx live.withAggregate e st = .ok ((code, place), st') → Covers strings st' →
      Computes ctx limits strings live.withAggregate e code place)
    {stores : Code} {st st' : State}
    (h : storeAll ctx live.withAggregate (.cell (ctx.cellName .aggregate live.aggregate)) 0 elements
      st = .ok (stores, st')) (hcover : Covers strings st') :
    Computes ctx limits strings live (.array pos elements)
      (ctx.cellDeclaration .aggregate live.aggregate ++
        [.alloc .i64 (Int64.ofNat elements.length)
          (.cell (ctx.cellName .aggregate live.aggregate))] ++ stores ++
        [.mov (.cell (ctx.cellName .aggregate live.aggregate)) ctx.primary]) ctx.primary := by
  intro cells heap m hm
  have hwrites : ctx.Writes live (ctx.cellName .aggregate live.aggregate) :=
    .inr (.inr (.inr ⟨_, Nat.le_refl _, rfl⟩))
  have hptr : ¬ctx.Writes live.withAggregate (ctx.cellName .aggregate live.aggregate) :=
    Context.not_writes_aggregate hs (Nat.lt_succ_self _)
  obtain ⟨m₁, hdecl, hm₁, hsome, hsame⟩ :=
    follows_cellDeclaration hl hm .aggregate live.aggregate
  have hkeeps₁ : Keeps ctx live m m₁ := fun y hy => hsame y fun h => hy (h ▸ hwrites)
  rw [Meaning.expr_array_alloc pos hes, List.append_assoc, List.append_assoc]
  refine Yields.after hdecl ?_
  refine (yields_alloc hl hm₁ (Int64.ofNat elements.length) hsome
    fun hu => hu.ne_cellName _ _ rfl).bind ?_
  rintro heap₂ m₂ halloc ⟨hm₂, hp₂, hsame₂⟩
  have hkeeps₂ : Keeps ctx live m₁ m₂ := fun y hy => hsame₂ y fun h => hy (h ▸ hwrites)
  obtain ⟨-, hheap⟩ := Option.ite_none_left_eq_some.1 halloc
  cases hheap
  have hstores : Yields limits stores m₂ _ _ :=
    yields_storeAll hl hes hcomp hptr h hcover hm₂ hp₂ (by simp [Heap.alloc])
      (by rw [Meaning.blockSize_alloc]; exact Meaning.toNatClampNeg_lt _) (Nat.zero_le _)
  refine (hstores.passing ?_).map fun _ _ h => h
  rintro heap₃ m₃ ⟨hm₃, hkeeps₃⟩
  have hp₃ : m₃.value? (.cell (ctx.cellName .aggregate live.aggregate)) = some (.ptr heap.size 0) :=
    hm₃.lookup?_of_some ((hkeeps₃ _ hptr).trans hp₂)
  have hmov := yields_mov hl hm₃ (.cell (ctx.cellName .aggregate live.aggregate))
    ((isResult_primary ctx).declared hm₃)
  rw [hp₃] at hmov
  obtain ⟨m', hmov, rfl⟩ := hmov
  obtain ⟨hm', hv, hk⟩ := put_result live (isResult_primary ctx) hm₃
  have hkeeps₃ : Keeps ctx live m₂ m₃ := hkeeps₃.of_later (Nat.le_refl _) (Nat.le_succ _)
  exact ⟨_, hmov, hm', hv, hkeeps₁.trans (hkeeps₂.trans (hkeeps₃.trans hk))⟩

/-- The code of an expression computes the value that direct evaluation gives. -/
theorem expr_computes (hs : ctx.scratch.Separate) (hn : Formula ctx.IsUser n) {place : Operand}
    {st st' : State} (h : expr ctx live n st = .ok ((code, place), st'))
    (hcover : Covers strings st') : Computes ctx limits strings live n code place := by
  induction hn generalizing live code place st st' with
  | number pos v =>
    obtain ⟨rfl, rfl, rfl⟩ := expr_number_eq_ok h
    refine computes_mov hl (isResult_primary ctx) fun cells heap m _ => ?_
    rw [Meaning.expr]
    rfl
  | string pos s =>
    obtain ⟨rfl, rfl, rfl⟩ := expr_string_eq_ok h
    have hd : strings.get? (nextString ctx st) = some s :=
      hcover ⟨nextString ctx st, s⟩ (by simp [withString])
    refine computes_mov hl (.inr rfl) fun cells heap m hm => ?_
    simp [Meaning.expr, Machine.value?, hm.data, hd]
  | ident pos hx =>
    obtain ⟨hplace, rfl, rfl⟩ := expr_ident_eq_ok h
    have hsrc : ∀ cells heap m, Mirrors ctx strings cells heap m →
        Meaning.expr cells (.ident pos _) heap = (m.value? (.cell _)).map (·, heap) :=
      fun cells heap m hm => expr_operand hm (.ident pos hx) rfl heap
    rcases hplace with rfl | rfl
    · exact computes_mov hl (isResult_primary ctx) hsrc
    · exact computes_mov hl (.inr rfl) hsrc
  | binary pos type hop hleft hright ihleft ihright =>
    obtain ⟨-, rfl, hform⟩ := expr_binary_eq_ok h
    cases hform with
    | direct ha hb hst => exact computes_direct hl hop pos type hleft hright ha hb
    | onRight ha hb hr => exact computes_onRight hl hop pos type hleft ha (ihright hr hcover)
    | onLeft ha hb hc => exact computes_onLeft hl hop pos type hright hb (ihleft hc hcover)
    | onBoth ha hb hc hr =>
      exact computes_onBoth hl hop pos type hs (ihleft hc (hcover.before (expr_grows hr)))
        (ihright hr hcover)
  | index pos hx hi ih =>
    obtain ⟨rfl, c, hc, rfl⟩ := expr_index_eq_ok h
    exact computes_index hl pos hx (ih hc hcover)
  | array pos hes ih =>
    obtain ⟨rfl, stores, hstores, rfl⟩ := expr_array_eq_ok h
    exact computes_array hl hs pos hes (fun e he _ _ _ _ hx hc => ih e he hx hc) hstores hcover

end Arrays

end UnitScript.Lowering
