import Mathlib.Algebra.Order.BigOperators.Group.List
import Mathlib.Algebra.Order.Group.Nat
import UnitScript.Proofs.Machine.Failure
import UnitScript.Proofs.Machine.Guards

/-!
# Code without loops comes to an end

When all jumps go forward, at every level of the code, an execution cannot come to an instruction of
a block twice, and only calls lead back to code that was executed before. The limit on the depth
bounds the calls, and the size of the code bounds what is executed between them, so that some bound
on the length of the computation is never met.
-/

namespace UnitScript

namespace Instruction

def Forward (block : List Instruction) : Prop :=
  ∀ (k : Nat) (i : Instruction), block[k]? = some i → i.op.isJump = true → (k : Int) < i.target

def weight (c : List Instruction) : Nat := (walkAll c).length

variable {c d : List Instruction} {i : Instruction}

theorem weight_append (c d : List Instruction) : weight (c ++ d) = weight c + weight d := by
  unfold weight
  rw [walkAll_append, List.length_append]

theorem weight_cons (i : Instruction) (c : List Instruction) :
    weight (i :: c) = weight [i] + weight c :=
  weight_append [i] c

theorem weight_pos (i : Instruction) : 0 < weight [i] := by
  obtain ⟨op⟩ := i
  unfold weight
  rw [walkAll, walk]
  exact Nat.succ_pos _

theorem weight_children (hop : i.op = .scope) : weight i.children + 1 = weight [i] := by
  obtain ⟨op⟩ := i
  subst hop
  unfold weight
  rw [walkAll, walk, if_pos rfl, walkAll, List.append_nil, List.length_cons]

theorem weight_drop_le (c : List Instruction) (k : Nat) : weight (c.drop k) ≤ weight c := by
  have h := weight_append (c.take k) (c.drop k)
  rw [List.take_append_drop] at h
  omega

end Instruction

namespace Decoding

open Instruction

theorem weight_le_of_encode {is : List Instruction} {w : Bytes}
    (h : Encoding.instructions is = .ok w) : weight is ≤ w.length := by
  induction is using induction_code generalizing w with
  | nil => exact Nat.zero_le _
  | cons i is ihc ih =>
    obtain ⟨v, more, rfl, hv, hmore⟩ := written_cons h
    have hrest := ih hmore
    have hfirst : weight [i] ≤ v.length + 1 := by
      by_cases hop : i.op = .scope
      · obtain ⟨u, hu, rfl⟩ := hv.children hop
        have hchildren := ihc hu
        rw [← weight_children hop, List.length_append]
        omega
      · obtain ⟨op⟩ := i
        unfold weight
        rw [walkAll, walk, if_neg hop]
        simp [walkAll]
    rw [weight_cons]
    simp only [List.length_cons, List.length_append]
    omega

theorem bounded_of_runCode {s : Bytes} {c : List Instruction} (h : runCode s = .ok c) :
    weight c ≤ s.length ∧
      Throughout (fun i => i.op = .func → ∀ f ∈ i.func, f.body.length ≤ s.length) c := by
  obtain ⟨-, w, hw, hprefix⟩ := (runCode_eq_ok_iff s c).1 h
  obtain ⟨v, hv, rfl⟩ := encode_code_eq_ok.1 hw
  have hlength := hprefix.length_le
  rw [List.length_append] at hlength
  refine ⟨Nat.le_trans (weight_le_of_encode hv) (by omega), ?_⟩
  exact (heldIn_of_encode hv).imp fun i hi hop f hf => Nat.le_trans (hi.body hop f hf) (by omega)

end Decoding

namespace Instruction

variable {code c : List Instruction} {scope : Bool}

theorem exists_weight (code : List Instruction) :
    ∃ W, ∀ scope c, Level code scope c → weight c ≤ W := by
  let bodies : List Nat := (walkAll code).filterMap fun i => i.func.map fun f => f.body.length
  obtain ⟨B, hB⟩ : ∃ B, ∀ b ∈ bodies, b ≤ B := ⟨bodies.sum, fun b hb => List.le_sum_of_mem hb⟩
  refine ⟨weight code + B, fun scope c h => ?_⟩
  have hboth : weight c ≤ weight code + B ∧
      Throughout (fun i => i.op = .func → ∀ f ∈ i.func, f.body.length ≤ B) c := by
    induction h with
    | top =>
      refine ⟨Nat.le_add_right _ _, fun i hi _ f hf => hB _ ?_⟩
      refine List.mem_filterMap.2 ⟨i, hi, ?_⟩
      rw [Option.mem_def.1 hf]
      rfl
    | @inner _ _ c d i _ hi hopens ih =>
      obtain ⟨before, after, rfl⟩ := List.append_of_mem hi
      have hrest := (throughout_append.1 ih.2).2
      cases hopens with
      | scope hop =>
        refine ⟨?_, hrest.children hop⟩
        have hweight := ih.1
        have hchildren := weight_children hop
        rw [weight_append, weight_cons] at hweight
        omega
      | body hop hrecord hbody =>
        obtain ⟨hweight, hnested⟩ := Decoding.bounded_of_runCode hbody
        have hlength := hrest.head hop _ (Option.mem_def.2 hrecord)
        refine ⟨by omega, hnested.imp fun j hj hfunc f hf => ?_⟩
        exact Nat.le_trans (hj hfunc f hf) hlength
  exact hboth.1

end Instruction

namespace Machine

open Instruction

variable {code all rest : List Instruction} {scope : Bool} {i : Instruction} {m : Machine}
  {limits : Limits} {fuel W : Nat}

/-- The calls that may still be under way at the same time, with `W` instructions each. -/
def reserve (limits : Limits) (W : Nat) (m : Machine) : Nat :=
  W * (limits.maxDepth + 1 - m.frameCount)

theorem Maintained.reserve_eq {Q : Function → Prop} {m' : Machine} (h : Maintained Q m m') :
    reserve limits W m' = reserve limits W m := by
  unfold reserve frameCount
  rw [h.cells.depth]

theorem Uncounted.ne_outOfFuel {α : Type} {act : Exec α} (h : Uncounted act) {s : Stop}
    {m' : Machine} (hs : act m = (.error s, m')) : s ≠ .outOfFuel := by
  rintro rfl
  have hended := (h m).1
  rw [hs] at hended
  exact hended rfl

theorem jump_forward {k : Nat} {t : Int} {m' : Machine} (h : jump all t m = (.ok rest, m'))
    (ht : (k : Int) < t) : ∃ j, k < j ∧ rest = all.drop j := by
  unfold jump at h
  split at h
  · exact absurd h Exec.fail_ne_ok
  · cases h
    exact ⟨t.toNat, by omega, rfl⟩

theorem eq_of_concluded {r : Except Stop Bool × Machine} (h : (concluded r).1 = .outOfFuel) :
    r.1 = .error .outOfFuel := by
  obtain ⟨r, m⟩ := r
  cases r with
  | ok _ => cases h
  | error s => rw [Stop.eq_of_ending h]

section Levels

variable (hcode : ∀ scope c, Level code scope c → Forward c ∧ weight c ≤ W)
  (hrun : ∀ {scope all} (k : Nat) {m : Machine}, Level code scope all →
    m.Stocked (fun f => Level code false f.body) →
    weight (all.drop k) + reserve limits W m ≤ fuel →
    (exec limits fuel all (all.drop k) m).1 ≠ .error .outOfFuel)

include hrun in
theorem scope_ends (hall : Level code scope all) (hm : m.Stocked (fun f => Level code false f.body))
    (hfuel : weight all + reserve limits W m ≤ fuel) :
    (exec limits fuel all all m).1 ≠ .error .outOfFuel := by
  have hends := hrun 0 hall hm (by rwa [List.drop_zero])
  rwa [List.drop_zero] at hends

include hcode hrun

/-- A call takes what was set aside for it. -/
theorem invoke_ends {f : Function} (hf : Level code false f.body)
    (hm : m.Stocked (fun f => Level code false f.body)) (hfuel : reserve limits W m ≤ fuel) :
    (calling limits fuel f m).1 ≠ .error .outOfFuel := by
  by_cases hdeep : limits.maxDepth < m.frameCount
  · unfold calling invoke
    rw [Exec.get_bind, if_pos hdeep]
    rintro ⟨⟩
  · have hcase := callingCase limits fuel f m
    generalize calling limits fuel f m = r at hcase ⊢
    cases hcase with
    | tooDeep | missing => rintro ⟨⟩
    | @ran frame r m₁ m₂ hp hbody =>
      have hsame := popParams_eq_ok hp
      have hreserve : W + reserve limits W { m₁ with frames := frame :: m₁.frames } =
          reserve limits W m := by
        have hcount : limits.maxDepth + 1 - m.frameCount =
            limits.maxDepth + 1 - (m.frameCount + 1) + 1 := by omega
        unfold reserve
        rw [hcount, Nat.mul_succ, Nat.add_comm]
        simp only [frameCount, List.length_cons, hsame.frames]
      have hweight := (hcode false f.body hf).2
      have hends := scope_ends hrun hf (m := { m₁ with frames := frame :: m₁.frames })
        (hm.of_functions hsame.functions) (by omega)
      rw [hbody] at hends
      cases r with
      | ok _ => rintro ⟨⟩
      | error stop =>
        cases stop with
        | error _ => rintro ⟨⟩
        | outOfFuel => exact absurd rfl hends

theorem step_ends (hop : i.op.isStep = true) (hm : m.Stocked (fun f => Level code false f.body))
    (hfuel : reserve limits W m ≤ fuel) :
    (step (calling limits fuel) i m).1 ≠ .error .outOfFuel := by
  have hcase := stepCase (i := i) (m := m) (calling limits fuel) hop
  generalize step (calling limits fuel) i m = r at hcase ⊢
  cases hcase with
  | done | failed | lent | registered => rintro ⟨⟩
  | called _ _ _ hf => exact invoke_ends hcode hrun (hm _ _ hf).2 hm hfuel

/-- The first instruction of what is left of a block takes at least one of the steps that were set
aside for it, and leaves enough for the rest. -/
theorem cons_ends {k : Nat} (hall : Level code scope all) (hrest : all.drop k = i :: rest)
    (hm : m.Stocked (fun f => Level code false f.body))
    (hfuel : weight (i :: rest) + reserve limits W m ≤ fuel + 1) :
    (exec limits (fuel + 1) all (i :: rest) m).1 ≠ .error .outOfFuel := by
  have hpos := weight_pos i
  rw [weight_cons] at hfuel
  have hi : all[k]? = some i := by
    rw [← List.head?_drop, hrest]
    rfl
  have htail : rest = all.drop (k + 1) := by
    rw [← List.tail_drop, hrest]
    rfl
  have hmem : i ∈ all := List.mem_of_getElem? hi
  have htick : Maintained (fun f => Level code false f.body) m m.tick :=
    (sameCells_tick m).maintained hm
  have hreserve : reserve limits W m.tick ≤ fuel := by
    rw [htick.reserve_eq]
    omega
  -- the block from a later place on, once the instruction is done with
  have hnext : ∀ (j : Nat) {m' : Machine}, k < j →
      Maintained (fun f => Level code false f.body) m m' →
      (exec limits fuel all (all.drop j) m').1 ≠ .error .outOfFuel := by
    intro j m' hj hkept
    have hdrop : all.drop j = rest.drop (j - (k + 1)) := by
      rw [htail, List.drop_drop]
      congr 1
      omega
    have hle := weight_drop_le rest (j - (k + 1))
    refine hrun j hall hkept.stocked ?_
    rw [hkept.reserve_eq, hdrop]
    omega
  have hturn := turn limits fuel all rest i m
  generalize exec limits (fuel + 1) all (i :: rest) m = r at hturn ⊢
  cases hturn with
  | refused => rintro ⟨⟩
  | unread _ _ hs => simpa using (composed_compared fun _ _ => trivial).uncounted.ne_outOfFuel hs
  | astray _ _ hs => simpa using (composed_jump all i.target).uncounted.ne_outOfFuel hs
  | jumped hop _ hj =>
    obtain ⟨j, hlt, rfl⟩ := jump_forward hj ((hcode _ _ hall).1 k i hi hop)
    exact hnext j hlt htick
  | notJumped =>
    rw [htail]
    exact hnext (k + 1) (Nat.lt_succ_self k) htick
  | ended hop _ hin =>
    have hends := scope_ends hrun (hall.inner hmem (.scope hop)) htick.stocked (by
      have := weight_children hop
      rw [htick.reserve_eq]
      omega)
    rwa [hin] at hends
  | passed hop _ hin =>
    have hsupplies := (hall.inner hmem (.scope hop)).supplies fun _ hj => hj
    have hkept := htick.trans
      (maintained_exec Level.supplies_body limits fuel hsupplies hsupplies htick.stocked)
    rw [hin] at hkept
    rw [htail]
    exact hnext (k + 1) (Nat.lt_succ_self k) hkept
  | @returned r _ _ _ hl =>
    cases r with
    | ok _ => rintro ⟨⟩
    | error s => simpa [Except.map] using (uncounted_leave i.args).ne_outOfFuel hl
  | @failed s _ hop _ hs =>
    have hends := step_ends (i := i) hcode hrun hop htick.stocked hreserve
    rw [hs] at hends
    cases s with
    | error _ => rintro ⟨⟩
    | outOfFuel => exact absurd rfl hends
  | stepped hop _ hs =>
    have hsupplied := (hall.supplies (c := [i]) (by simpa using hmem)).head
    have hkept := htick.trans (maintained_step Level.supplies_body
      (fun _ _ _ ha hr hm => maintained_exec Level.supplies_body limits fuel ha hr hm) hsupplied hop
      htick.stocked)
    rw [hs] at hkept
    rw [htail]
    exact hnext (k + 1) (Nat.lt_succ_self k) hkept

end Levels

/-- Executing a block from some place on takes no more than what is left of it and the calls that may
still be under way. -/
theorem exec_ends (hcode : ∀ scope c, Level code scope c → Forward c ∧ weight c ≤ W)
    (limits : Limits) (fuel k : Nat) (hall : Level code scope all)
    (hm : m.Stocked (fun f => Level code false f.body))
    (hfuel : weight (all.drop k) + reserve limits W m ≤ fuel) :
    (exec limits fuel all (all.drop k) m).1 ≠ .error .outOfFuel := by
  induction fuel generalizing scope all k m with
  | zero =>
    cases hrest : all.drop k with
    | nil =>
      rw [exec_nil]
      rintro ⟨⟩
    | cons i rest =>
      have hpos := weight_pos i
      rw [hrest, weight_cons] at hfuel
      omega
  | succ fuel ih =>
    cases hrest : all.drop k with
    | nil =>
      rw [exec_nil]
      rintro ⟨⟩
    | cons i rest =>
      rw [hrest] at hfuel
      exact cons_ends hcode (fun k => ih k) hall hrest hm hfuel

/-- A unit whose jumps all go forward has runs that end, and with every greater bound they end in the
same way. -/
theorem Serves.run_ends {u : CodeUnit} (hm : Serves u m)
    (hforward : ∀ scope c, Level u.code scope c → Forward c) (limits : Limits) :
    ∃ need, (runWithin need limits u m).1 ≠ .outOfFuel ∧
      ∀ fuel, need ≤ fuel → runWithin fuel limits u m = runWithin need limits u m := by
  obtain ⟨W, hW⟩ := exists_weight u.code
  have hcode : ∀ scope c, Level u.code scope c → Forward c ∧ weight c ≤ W :=
    fun scope c h => ⟨hforward scope c h, hW scope c h⟩
  obtain ⟨need, hneed⟩ : ∃ need, (runWithin need limits u m).1 ≠ .outOfFuel := by
    cases hreg : registerAll (walkAll u.code) m.restart with
    | mk r start =>
      cases r with
      | error s =>
        refine ⟨0, fun hs => (uncounted_registerAll _).ne_outOfFuel hreg ?_⟩
        rw [runWithin_of_unregistered hreg] at hs
        exact Stop.eq_of_ending hs
      | ok _ =>
        have hstocked := hm.stocked_start Level.supplies_body
          (Level.top.supplies fun _ hi => hi) hreg
        refine ⟨weight u.code + reserve limits W start, fun hs => ?_⟩
        have hends := exec_ends hcode limits (weight u.code + reserve limits W start) 0 .top hstocked
          (by rw [List.drop_zero])
        rw [List.drop_zero] at hends
        rw [runWithin_of_registered hreg] at hs
        exact hends (eq_of_concluded hs)
  refine ⟨need, hneed, fun fuel hfuel => ?_⟩
  rcases runWithin_of_wider (Wider.refl (fun s => s = .outOfFuel) limits) hfuel (fun _ => rfl) u m with
    ⟨s, hs, hroot⟩ | hsame
  · cases s with
    | outOfFuel => exact absurd hs hneed
    | error e => cases hroot
  · exact hsame

end Machine

end UnitScript
