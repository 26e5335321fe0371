import UnitScript.Proofs.Machine.Exchange

/-!
# The stack of a run

A run of code that shifts the stack as is said of it does so at run time: a piece of it that ends
leaves the stack at the depth that it is to have, a return leaves the values that the function is to
leave, and so a call takes the arguments and leaves the result. Functions that are to leave a value
must not run off their end; that is asked of the run.
-/

namespace UnitScript

open Instruction

namespace Machine

variable {sigs : List Signature} {m m₁ m' start : Machine} {i : Instruction} {n k d : Nat}
  {base : List Value} {limits : Limits} {fuel : Nat} {code all all' rest post : List Instruction}
  {v : Option Nat} {f : Function} {b : Bool} {Q : Function → Prop}

/-! ## Places -/

theorem Visits.stocked (hQ : ∀ f, Q f → Supplies Q f.body) (hcode : Supplies Q code)
    (hstart : start.Stocked Q) (h : Visits limits code start all rest m) :
    Supplies Q all ∧ Supplies Q rest ∧ m.Stocked Q := by
  induction h with
  | start => exact ⟨hcode, hcode, hstart⟩
  | next _ hc ih => exact ⟨ih.1, ih.2.1.tail, (hc.maintained hQ ih.2.1.head ih.2.2).stocked⟩
  | jump _ _ hc hj ih =>
    obtain rfl := countStep_eq_ok hc
    obtain ⟨⟨k, rfl⟩, -⟩ := jump_eq_ok hj
    exact ⟨ih.1, ih.1.drop k, ih.2.2⟩
  | pass _ _ hc ih =>
    obtain rfl := countStep_eq_ok hc
    exact ⟨ih.1, ih.2.1.tail, ih.2.2⟩
  | enter _ hop hc ih =>
    obtain rfl := countStep_eq_ok hc
    exact ⟨ih.2.1.children hop, ih.2.1.children hop, ih.2.2⟩
  | @leave all i rest m m₁ m' fuel _ hop hc hexec ih =>
    obtain rfl := countStep_eq_ok hc
    have hchildren := ih.2.1.children hop
    have hkept := maintained_exec hQ limits fuel hchildren hchildren (m := m.tick) ih.2.2
    rw [hexec] at hkept
    exact ⟨ih.1, ih.2.1.tail, hkept.stocked⟩
  | @call all i rest o m m₁ m₂ name f frame _ _ _ hc _ hf hp ih =>
    obtain rfl := countStep_eq_ok hc
    have hbody := hQ f (ih.2.2 name f hf).2
    exact ⟨hbody, hbody, ih.2.2.of_functions (popParams_eq_ok hp).functions⟩

/-- An execution enters the function: its arguments have been taken from the stack, and its frame is
there. -/
inductive Enters (limits : Limits) (code : List Instruction) (start : Machine) (f : Function) :
    Machine → Prop where
  | call {all i rest o m m₁ m₂ name frame} : Visits limits code start all (i :: rest) m →
      i.op = .call → i.args = [o] → countStep limits m = (.ok (), m₁) →
      callee o m₁ = (.ok name, m₁) → m₁.functions.get? name = some f →
      popParams f.record.name f.record.params.reverse .empty m₁ = (.ok frame, m₂) →
      Enters limits code start f { m₂ with frames := frame :: m₂.frames }

theorem Enters.visits (h : Enters limits code start f m) :
    Visits limits code start f.body f.body m := by
  cases h with
  | call hv hop hargs hc hcallee hf hp => exact .call hv hop hargs hc hcallee hf hp

/-- The functions that are to leave a value do not run off their end. -/
def AlwaysReturn (limits : Limits) (code : List Instruction) (start : Machine) : Prop :=
  ∀ f m, Enters limits code start f m → f.record.result ≠ .none →
    ∀ fuel m', exec limits fuel f.body f.body m ≠ (.ok false, m')

theorem exec_ne_false (hjumps : NoJump rest) (hret : ∃ i ∈ rest, i.op = .ret) :
    exec limits fuel all rest m ≠ (.ok false, m') := by
  induction fuel generalizing rest m with
  | zero =>
    cases rest with
    | nil =>
      obtain ⟨i, hi, -⟩ := hret
      cases hi
    | cons i rest =>
      intro h
      cases h
  | succ fuel ih =>
    cases rest with
    | nil =>
      obtain ⟨i, hi, -⟩ := hret
      cases hi
    | cons i rest =>
      intro h
      have hlater : i.op ≠ .ret → ∃ j ∈ rest, j.op = .ret := by
        intro hop
        obtain ⟨j, hj, hjop⟩ := hret
        rcases List.mem_cons.1 hj with rfl | hj
        · exact absurd hjop hop
        · exact ⟨j, hj, hjop⟩
      have hnotJump := hjumps i (by simp)
      have hturn := turn limits fuel all rest i m
      rw [h] at hturn
      generalize hr : ((.ok false, m') : Except Stop Bool × Machine) = r at hturn
      cases hturn with
      | refused | unread | astray | failed => cases hr
      | jumped hop | notJumped hop =>
        rw [hnotJump] at hop
        cases hop
      | ended _ _ _ hne =>
        cases hr
        exact hne rfl
      | passed hop =>
        have hop' : i.op ≠ .ret := by
          rw [hop]
          exact nofun
        exact ih hjumps.tail (hlater hop') hr.symm
      | @returned r =>
        cases r <;> cases hr
      | stepped hop =>
        have hop' : i.op ≠ .ret := by
          intro hi
          rw [hi] at hop
          cases hop
        exact ih hjumps.tail (hlater hop') hr.symm

theorem alwaysReturn_of (hQ : ∀ f, Q f → Supplies Q f.body) (hcode : Supplies Q code)
    (hstart : start.Stocked Q)
    (hret : ∀ f, Q f → f.record.result ≠ .none → NoJump f.body ∧ ∃ i ∈ f.body, i.op = .ret) :
    AlwaysReturn limits code start := by
  intro f m henters hresult fuel m'
  cases henters with
  | call hv hop hargs hc hcallee hf hp =>
    obtain rfl := countStep_eq_ok hc
    have hf' := ((hv.stocked hQ hcode hstart).2.2 _ f hf).2
    obtain ⟨hjumps, hreturns⟩ := hret f hf' hresult
    exact exec_ne_false hjumps hreturns

/-! ## Functions -/

/-- The function has a signature, and its body shifts the stack as the signature says. -/
structure Balanced (sigs : List Signature) (f : Function) : Prop where
  described : ∃ s ∈ sigs, s.Describes f.record
  noJump : NoJump f.body
  shifts : Shifts sigs (some f.record.leaves) 0 f.body 0

end Machine

namespace Instruction

variable {sigs : List Signature} {v : Option Nat} {c : List Instruction} {d e : Nat}

theorem Shifts.supplies (h : Shifts sigs v d c e) : Supplies (Machine.Balanced sigs) c := by
  have hother : ∀ {i : Instruction}, i.op ≠ .func → Supplied (Machine.Balanced sigs) i :=
    fun hne hop => absurd hop hne
  induction h with
  | nil => exact throughout_nil
  | step ht _ ih =>
    apply Throughout.cons _ ih
    exact throughout_single (hother (ht.op_ne rfl nofun)) fun hop =>
      absurd hop (ht.op_ne rfl nofun)
  | @jump _ _ i _ hop _ ih =>
    apply Throughout.cons _ ih
    apply throughout_single
    · apply hother
      intro hi
      rw [hi] at hop
      cases hop
    · intro hi
      rw [hi] at hop
      cases hop
  | ret hop _ _ ih =>
    apply Throughout.cons _ ih
    apply throughout_single
    · apply hother
      rw [hop]
      exact nofun
    · intro hi
      rw [hop] at hi
      cases hi
  | scope hop _ _ _ ihc ih =>
    apply Throughout.cons _ ih
    apply throughout_single _ fun _ => ihc
    apply hother
    rw [hop]
    exact nofun
  | branches hop _ _ ihc ih =>
    apply Throughout.cons _ ih
    apply throughout_single _ fun _ => ihc 0
    apply hother
    rw [hop]
    exact nofun
  | func hop hdescribed hjump hbody _ _ ih =>
    apply Throughout.cons _ ih
    apply throughout_single
    · intro _ record body hrecord hread
      exact ⟨hdescribed record hrecord, hjump record body hrecord hread,
        hbody record body hrecord hread⟩
    · intro hi
      rw [hop] at hi
      cases hi

end Instruction

namespace Machine

variable {sigs : List Signature} {m m₁ m' start : Machine} {i : Instruction} {n k d : Nat}
  {base : List Value} {limits : Limits} {fuel : Nat} {code all all' rest post : List Instruction}
  {v : Option Nat} {f : Function} {b : Bool} {Q : Function → Prop} {o : Operand}

theorem Balanced.supplies (f : Function) (h : Balanced sigs f) : Supplies (Balanced sigs) f.body :=
  h.shifts.supplies

theorem eq_of_callee {name name' : Name} (hargs : i.args = [o])
    (hfunc : i.args = [.func name']) (h : callee o m = (.ok name, m')) : name = name' := by
  rw [hfunc] at hargs
  cases hargs
  cases h
  rfl

theorem frames_eq_nil_iff (h : m'.frames.length = m.frames.length) :
    m'.frames = [] ↔ m.frames = [] := by
  rw [← List.length_eq_zero_iff, h, List.length_eq_zero_iff]

/-- A return leaves a value on the stack only in a function. -/
theorem holds_of_leave {args : List Operand} (hframes : v = none ↔ m.frames = [])
    (hargs : ∀ n, v = some n → n = if args = [] then 0 else 1) (hm : m.Holds base 0)
    (h : leave args m.tick = (.ok (), m')) : m'.Holds base (v.getD 0) := by
  have hcase := leaveCase args m.tick
  rw [h] at hcase
  cases hcase with
  | bare hnil =>
    cases v with
    | none => exact hm
    | some n =>
      have hn := hargs n rfl
      rw [if_pos hnil] at hn
      subst hn
      exact hm
  | result _ _ hnil =>
    rw [hframes.2 hnil]
    exact hm
  | @pushed _ _ w hcons _ hnil =>
    cases v with
    | none => exact absurd (hframes.1 rfl) hnil
    | some n =>
      have hn := hargs n rfl
      rw [if_neg (by rw [hcons]; simp)] at hn
      subst hn
      refine ⟨[w], ?_, rfl⟩
      rw [← holds_zero.1 hm]
      rfl

/-! ## Executions -/

/-- What an execution with a bound does to the stack when it ends. `rest` is executed at a place where
`post` comes behind it; if it has jumps, then they lead to places of `all` and nothing is behind. What
a return leaves is known at the top level and in functions. -/
def Settles (sigs : List Signature) (limits : Limits) (code : List Instruction) (start : Machine)
    (fuel : Nat) : Prop :=
  ∀ ⦃all all' rest post : List Instruction⦄ ⦃v : Option Nat⦄ ⦃d : Nat⦄ ⦃base : List Value⦄
    ⦃m m' : Machine⦄ ⦃b : Bool⦄, Visits limits code start all (rest ++ post) m →
    (b = true → (v = none ↔ m.frames = [])) → Shifts sigs v d rest 0 →
    (NoJump rest ∨ all' = all ∧ post = [] ∧ ∀ k, Shifts sigs v 0 (all.drop k) 0) →
    m.Holds base d → exec limits fuel all' rest m = (.ok b, m') →
    m'.Holds base (if b then v.getD 0 else 0)

section Steps

variable (hcode : Supplies (Balanced sigs) code) (hstart : start.Stocked (Balanced sigs))
  (hsigs : Signature.Consistent sigs) (hends : AlwaysReturn limits code start)
  (ih : Settles sigs limits code start fuel)
include hcode hstart hends ih

theorem exchanges_invoke {all rest : List Instruction} {name : Name}
    (hv : Visits limits code start all (i :: rest) m) (hop : i.op = .call) (hargs : i.args = [o])
    (hc : countStep limits m = (.ok (), m.tick)) (hcallee : callee o m.tick = (.ok name, m.tick))
    (hf : m.functions.get? name = some f) (h : calling limits fuel f m.tick = (.ok (), m')) :
    Exchanges m.tick f.record.params.length f.record.leaves m' := by
  have hbalanced : Balanced sigs f :=
    ((hv.stocked Balanced.supplies hcode hstart).2.2 name f hf).2
  have hcase := callingCase limits fuel f m.tick
  rw [h] at hcase
  generalize hr : ((.ok (), m') : Except Stop Unit × Machine) = r at hcase
  cases hcase with
  | tooDeep | missing => cases hr
  | @ran frame r m₁ m₂ hp hbody =>
    obtain ⟨below, htaken, hbelow⟩ := exchanges_popParams hp
    rw [List.length_reverse] at htaken
    have henters : Enters limits code start f { m₁ with frames := frame :: m₁.frames } :=
      .call hv hop hargs hc hcallee hf hp
    have hplace : Visits limits code start f.body (f.body ++ [])
        { m₁ with frames := frame :: m₁.frames } := by
      rw [List.append_nil]
      exact henters.visits
    cases r with
    | error s => cases hr
    | ok b =>
      cases hr
      have hsettled := ih hplace (fun _ => by simp) hbalanced.shifts (.inl hbalanced.noJump)
        (hbelow.of_stack rfl) hbody
      refine ⟨below, htaken, ?_⟩
      cases b with
      | true => exact hsettled
      | false =>
        -- the function ran off its end, so it is not to leave a value
        by_cases hresult : f.record.result = .none
        · have hleaves : f.record.leaves = 0 := if_pos hresult
          rw [hleaves]
          exact hsettled
        · exact absurd hbody (hends f _ henters hresult fuel m₂)

include hsigs

theorem exchanges_step {all rest : List Instruction} (hv : Visits limits code start all (i :: rest) m)
    (ht : Trades sigs i n k) (hc : countStep limits m = (.ok (), m.tick))
    (h : step (calling limits fuel) i m.tick = (.ok (), m')) :
    Exchanges m.tick n k m' := by
  have hstocked := (hv.stocked Balanced.supplies hcode hstart).2.2
  have hcase := stepCase (i := i) (m := m.tick) (calling limits fuel) ht.isStep
  rw [h] at hcase
  generalize hr : ((.ok (), m') : Except Stop Unit × Machine) = r at hcase
  cases hcase with
  | done hlocal heffect =>
    cases hr
    exact exchanges_of_effect? heffect hlocal ht
  | failed => cases hr
  | registered hop => exact absurd hop (ht.op_ne rfl nofun)
  | @called o name f hop hargs hcallee hf =>
    obtain ⟨s, hs, hfunc, rfl, rfl⟩ := ht.of_call hop
    obtain ⟨hrecord, hbalanced⟩ := hstocked name f hf
    obtain ⟨t, ht, hdescribes⟩ := hbalanced.described
    have hsame : t = s := by
      apply hsigs.distinct t ht s hs
      rw [← hdescribes.name, hrecord]
      exact eq_of_callee hargs hfunc hcallee
    subst hsame
    rw [← hdescribes.arity, ← hdescribes.leaves]
    exact exchanges_invoke hcode hstart hends ih hv hop hargs hc hcallee hf hr.symm
  | @lent o name b _ hop hargs hcallee _ hfind hb =>
    cases hr
    obtain ⟨s, hs, hfunc, rfl, rfl⟩ := ht.of_call hop
    rw [eq_of_callee hargs hfunc hcallee] at hfind
    rw [hsigs.builtins s hs b hfind]
    exact exchanges_callBuiltin hb

theorem settles_cons (hv : Visits limits code start all (i :: rest ++ post) m)
    (hframes : b = true → (v = none ↔ m.frames = [])) (hshifts : Shifts sigs v d (i :: rest) 0)
    (hjumps : NoJump (i :: rest) ∨ all' = all ∧ post = [] ∧ ∀ k, Shifts sigs v 0 (all.drop k) 0)
    (hm : m.Holds base d) (h : exec limits (fuel + 1) all' (i :: rest) m = (.ok b, m')) :
    m'.Holds base (if b then v.getD 0 else 0) := by
  have htail : NoJump rest ∨ all' = all ∧ post = [] ∧ ∀ k, Shifts sigs v 0 (all.drop k) 0 :=
    hjumps.imp_left NoJump.tail
  have hstocked := hv.stocked Balanced.supplies hcode hstart
  have hinside : i.op = .scope → countStep limits m = (.ok (), m.tick) →
      Visits limits code start i.children (i.children ++ []) m.tick := by
    intro hop hc
    rw [List.append_nil]
    exact hv.enter hop hc
  have hturn := turn limits fuel all' rest i m
  rw [h] at hturn
  generalize hr : ((.ok b, m') : Except Stop Bool × Machine) = r at hturn
  cases hturn with
  | refused | unread | astray | failed => cases hr
  | jumped hop hc hj =>
    obtain ⟨rfl, hrest⟩ := hshifts.of_jump hop
    rcases hjumps with hnone | ⟨rfl, rfl, hall⟩
    · have hfalse := hnone i (by simp)
      rw [hop] at hfalse
      cases hfalse
    · obtain ⟨⟨k, rfl⟩, -⟩ := jump_eq_ok hj
      rw [List.append_nil] at hv
      have hplace : Visits limits code start all' (all'.drop k ++ []) m.tick := by
        rw [List.append_nil]
        exact hv.jump hop hc hj
      exact ih hplace hframes (hall k) (.inr ⟨rfl, rfl, hall⟩) hm hr.symm
  | notJumped hop hc =>
    obtain ⟨rfl, hrest⟩ := hshifts.of_jump hop
    exact ih (hv.pass hop hc) hframes hrest htail hm hr.symm
  | @ended r m₁ hop hc hin hne =>
    obtain ⟨rfl, hscope, hchildren, -⟩ := hshifts.of_scope hop
    cases hr
    have hsettled := ih (hinside hop hc) hframes hchildren (hscope.imp_right fun h => ⟨rfl, rfl, h⟩)
      (hm.of_stack rfl) hin
    cases b with
    | true => exact hsettled
    | false => exact absurd rfl hne
  | @passed m₁ hop hc hin =>
    obtain ⟨rfl, hscope, hchildren, hrest⟩ := hshifts.of_scope hop
    have hsettled := ih (b := false) (hinside hop hc) nofun hchildren
      (hscope.imp_right fun h => ⟨rfl, rfl, h⟩) (hm.of_stack rfl) hin
    have hsupplied := hstocked.2.1.children hop
    have hkept := maintained_exec Balanced.supplies limits fuel hsupplied hsupplied (m := m.tick)
      hstocked.2.2
    rw [hin] at hkept
    have hframes₁ := fun hb => (hframes hb).trans (frames_eq_nil_iff hkept.cells.depth).symm
    exact ih (hv.leave hop hc hin) hframes₁ hrest htail hsettled hr.symm
  | @returned r m₁ hop hc hl =>
    obtain ⟨rfl, hargs⟩ := hshifts.of_ret hop
    cases r with
    | error s => cases hr
    | ok _ =>
      cases hr
      exact holds_of_leave (hframes rfl) hargs hm hl
  | @stepped m₁ hop hc hs =>
    have hcompletes : Completes limits i m m₁ := ⟨hop, fuel, m.tick, hc, hs⟩
    have hkept := hcompletes.maintained Balanced.supplies hstocked.2.1.head hstocked.2.2
    have hframes₁ := fun hb => (hframes hb).trans (frames_eq_nil_iff hkept.cells.depth).symm
    have hnext := hv.next hcompletes
    rcases hshifts.of_step hop with ⟨hfunc, hrest⟩ | ⟨d', n, k, rfl, ht, hrest⟩
    · obtain ⟨record, body, -, -, rfl⟩ := step_func_eq_ok hfunc hs
      exact ih hnext hframes₁ hrest htail (hm.of_stack rfl) hr.symm
    · have hexchanges := exchanges_step hcode hstart hsigs hends ih hv ht hc hs
      exact ih hnext hframes₁ hrest htail (hexchanges.holds (hm.of_stack rfl)) hr.symm

end Steps

/-- Whatever its bound, an execution that ends leaves the stack as deep as it is to be. -/
theorem settles (hcode : Supplies (Balanced sigs) code) (hstart : start.Stocked (Balanced sigs))
    (hsigs : Signature.Consistent sigs) (hends : AlwaysReturn limits code start) (fuel : Nat) :
    Settles sigs limits code start fuel := by
  have hnil : ∀ {v : Option Nat} {d : Nat} {base : List Value} {m m' : Machine} {b : Bool}
      {fuel : Nat} {all' : List Instruction}, Shifts sigs v d [] 0 → m.Holds base d →
      exec limits fuel all' [] m = (.ok b, m') → m'.Holds base (if b then v.getD 0 else 0) := by
    intro v d base m m' b fuel all' hshifts hm h
    rw [exec_nil] at h
    cases h
    cases hshifts
    exact hm
  induction fuel with
  | zero =>
    intro all all' rest post v d base m m' b _ _ hshifts _ hm h
    cases rest with
    | nil => exact hnil hshifts hm h
    | cons i rest => cases h
  | succ fuel ih =>
    intro all all' rest post v d base m m' b hv hframes hshifts hjumps hm h
    cases rest with
    | nil => exact hnil hshifts hm h
    | cons i rest => exact settles_cons hcode hstart hsigs hends ih hv hframes hshifts hjumps hm h

/-- What a call instruction calls on a machine: something that takes `arity` values from the stack and
is to leave `leaves` values there. -/
inductive Calls (m : Machine) (i : Instruction) : (arity leaves : Nat) → Prop where
  | function {o name f} : i.op = .call → i.args = [o] → callee o m = (.ok name, m) →
      m.functions.get? name = some f → Calls m i f.record.params.length f.record.leaves
  | builtin {o name b} : i.op = .call → i.args = [o] → callee o m = (.ok name, m) →
      m.functions.get? name = none → Builtin.find? name = some b →
      Calls m i b.arity (if b.pushes then 1 else 0)

theorem callee_tick {name : Name} (h : callee o m = (.ok name, m)) :
    callee o m.tick = (.ok name, m.tick) := by
  obtain ⟨rfl | ⟨cell, rfl, hv⟩, -⟩ := callee_eq_ok h
  · rfl
  · have hload : load (.cell cell) m.tick = (.ok (.func name), m.tick) := load_of_some hv
    exact Exec.bind_of_ok hload

theorem Visits.exchanges_call (hcode : Supplies (Balanced sigs) code)
    (hstart : start.Stocked (Balanced sigs)) (hsigs : Signature.Consistent sigs)
    (hends : AlwaysReturn limits code start) (hv : Visits limits code start all (i :: rest) m)
    (hcall : Calls m i n k) (h : Completes limits i m m') : Exchanges m n k m' := by
  obtain ⟨-, fuel, m₁, hc, hs⟩ := h
  obtain rfl := countStep_eq_ok hc
  show Exchanges m.tick n k m'
  cases hcall with
  | @function o name f hop hargs hcallee hf =>
    have hticked := callee_tick hcallee
    have hsettles := settles hcode hstart hsigs hends fuel
    rw [step_call_of_function hop hargs hticked hf] at hs
    exact exchanges_invoke hcode hstart hends hsettles hv hop hargs hc hticked hf hs
  | builtin hop hargs hcallee hf hb =>
    rw [step_call_of_builtin hop hargs (callee_tick hcallee) hf hb] at hs
    rw [← leaves_result]
    exact exchanges_callBuiltin hs

theorem Visits.stack_eq (hcode : Supplies (Balanced sigs) code)
    (hstart : start.Stocked (Balanced sigs)) (hsigs : Signature.Consistent sigs)
    (hends : AlwaysReturn limits code start) (hv : Visits limits code start all (rest ++ post) m)
    (hjumps : NoJump rest) (hshifts : Shifts sigs v 0 rest 0)
    (h : exec limits fuel rest rest m = (.ok false, m')) : m'.stack = m.stack := by
  have hsettles := settles hcode hstart hsigs hends fuel
  have hholds := hsettles (b := false) hv nofun hshifts (.inl hjumps) (holds_zero.2 rfl) h
  exact holds_zero.1 hholds

theorem stack_of_runWithin {u : CodeUnit} {m₀ : Machine} {w : Value} (hjumps : NoJump u.code)
    (hshifts : Shifts sigs none 0 u.code 0) (hm₀ : Serves u m₀) (hsigs : Signature.Consistent sigs)
    (hends : ∀ start, registerAll (walkAll u.code) m₀.restart = (.ok (), start) →
      AlwaysReturn limits u.code start)
    (h : runWithin fuel limits u m₀ = (.value w, m')) : m'.stack = [] := by
  have hcase := runCase fuel limits u m₀
  rw [h] at hcase
  generalize hr : ((.value w, m') : Ending × Machine) = r at hcase
  cases hcase with
  | @unregistered s | @stopped s => cases s <;> cases hr
  | @ended b start _ hstart hexec =>
    cases hr
    have hregistered := registerAll_eq hstart
    have hframes : start.frames = [] := congrArg Machine.frames hregistered
    have hstocked := hm₀.stocked_start Balanced.supplies hshifts.supplies hstart
    have hsettles := settles hshifts.supplies hstocked hsigs (hends start hstart) fuel
    have hplace : Visits limits u.code start u.code (u.code ++ []) start := by
      rw [List.append_nil]
      exact .start
    have hholds := hsettles hplace (fun _ => iff_of_true rfl hframes) hshifts (.inl hjumps)
      (holds_zero.2 rfl) hexec
    have hempty : m'.Holds start.stack 0 := by
      cases b <;> exact hholds
    rw [holds_zero.1 hempty]
    exact congrArg Machine.stack hregistered

end Machine

end UnitScript
