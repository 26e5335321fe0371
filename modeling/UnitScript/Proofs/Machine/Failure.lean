import UnitScript.Proofs.Code.Levels
import UnitScript.Proofs.Machine.Runs
import UnitScript.Proofs.NameMap

/-!
# Faults that code in order cannot have

When all levels of a unit's code are in order, a run of the unit does not fail for the form of an
instruction, nor for want of a declaration of one of the unit's own cells. The invariant says of each
place of an execution that it belongs to a level and that what is left to execute is in order with the
cells that are declared.
-/

namespace UnitScript

open Instruction

namespace Fault

/-- Whether a fault is one of the form of an instruction: its opcode, its relation, its operands, its
destination, its target, its data or its function. -/
def isStructural : Fault → Bool
  | noRecord | badBody .. | undefinedData _ | unknownOperand _ | notCell _ | badTarget ..
  | needsTwo .. | operandCount .. | badCount _ | notFunction _ | unknownRelation _
  | unknownOpcode _ => true
  | _ => false

def undeclared? : Fault → Option Name
  | undeclaredCell x | storeToUndeclared x => some x
  | _ => none

/-- The fault is not one of form, and not one of a cell in `own`. -/
structure Excusable (own : Name → Prop) (f : Fault) : Prop where
  form : f.isStructural = false
  cell : ∀ x, f.undeclared? = some x → ¬own x

theorem excusable_of_isOfValues {own : Name → Prop} {f : Fault} (h : f.isOfValues = true) :
    f.Excusable own := by
  cases f <;> first | (cases h; done) | exact ⟨rfl, nofun⟩

end Fault

namespace Instruction

theorem Level.supplies {code all c : List Instruction} {scope : Bool} (h : Level code scope all)
    (hc : ∀ i ∈ c, i ∈ all) : Supplies (fun f => Level code false f.body) c := by
  intro i hi hop record body hrecord hbody
  obtain ⟨scope', d, hlevel, hmem⟩ := h.of_walkAll c hc i hi
  exact hlevel.inner hmem (.body hop hrecord hbody)

theorem Level.supplies_body {code : List Instruction} (f : Function)
    (h : Level code false f.body) : Supplies (fun f => Level code false f.body) f.body :=
  h.supplies fun _ hi => hi

end Instruction

/-- If the computation stops with a fault, the fault is excusable. -/
def Stop.Excusable (own : Name → Prop) (s : Stop) : Prop :=
  ∀ e f, s = .error e → e.root = .fault f → f.Excusable own

namespace Machine

variable {own known : Name → Prop} {code all rest : List Instruction} {i : Instruction}
  {m m₁ m' : Machine} {limits : Limits} {fuel : Nat} {s : Stop} {f : Fault}

theorem excusable_fault (h : f.Excusable own) : Stop.Excusable own (.error (.fault f)) := by
  intro e g he hroot
  cases he
  cases hroot
  exact h

theorem excusable_limit {e : RunError} (h : ∀ f, e.root ≠ .fault f) :
    Stop.Excusable own (.error e) := by
  intro e' g he hroot
  cases he
  exact absurd hroot (h g)

theorem excusable_amid {place : RunError → RunError} (hplace : ∀ e, (place e).root = e.root)
    (h : s.Excusable own) : (s.amid place).Excusable own := by
  intro e f he hroot
  cases s with
  | outOfFuel => cases he
  | error e' =>
    cases he
    rw [hplace] at hroot
    exact h e' f rfl hroot

/-! ## Places -/

/-- The functions of the machine have levels of the code for their bodies, and the machine has the
data that the code refers to. -/
structure Equipped (known : Name → Prop) (code : List Instruction) (m : Machine) : Prop where
  stocked : m.Stocked fun f => Level code false f.body
  data : ∀ name, known name → (m.data.get? name).isSome = true

/-- A place from which execution can go on: `rest` is the end of a level `all`, and it is in order with
the cells that are declared, as is what a jump can lead to. -/
structure Poised (own known : Name → Prop) (code all rest : List Instruction) (m : Machine) :
    Prop where
  equipped : m.Equipped known code
  level : ∃ scope, Level code scope all
  part : ∀ i ∈ rest, i ∈ all
  declares : DeclaresFirst own m.declared rest
  jumps : NoJump rest ∨ ∀ k, DeclaresFirst own m.declared (all.drop k)

/-- What an execution leaves in place of what a place relies on. -/
structure Steady (known : Name → Prop) (code : List Instruction) (m m' : Machine) : Prop where
  equipped : m'.Equipped known code
  declared : ∀ x, m.declared x → m'.declared x

theorem Steady.of_maintained (hm : m.Equipped known code)
    (h : Maintained (fun f => Level code false f.body) m m') : Steady known code m m' := by
  refine ⟨⟨h.stocked, fun name hname => ?_⟩, h.cells.declared⟩
  rw [h.cells.data]
  exact hm.data name hname

theorem Steady.trans (h : Steady known code m m₁) (g : Steady known code m₁ m') :
    Steady known code m m' :=
  ⟨g.equipped, fun x hx => g.declared x (h.declared x hx)⟩

theorem steady_tick (hm : m.Equipped known code) : Steady known code m m.tick :=
  .of_maintained hm ((sameCells_tick m).maintained hm.stocked)

theorem Poised.steady_exec (h : Poised own known code all rest m) (limits : Limits) (fuel : Nat) :
    Steady known code m (exec limits fuel all rest m).2 := by
  obtain ⟨scope, hlevel⟩ := h.level
  have hmaintained := maintained_exec Level.supplies_body limits fuel
    (hlevel.supplies fun _ hi => hi) (hlevel.supplies h.part) h.equipped.stocked
  exact .of_maintained h.equipped hmaintained

theorem Poised.steady_step (h : Poised own known code all (i :: rest) m) (hop : i.op.isStep = true)
    (limits : Limits) (fuel : Nat) : Steady known code m (step (calling limits fuel) i m).2 := by
  obtain ⟨scope, hlevel⟩ := h.level
  have hmaintained := maintained_step (i := i) Level.supplies_body
    (fun _ _ _ ha hr hm => maintained_exec Level.supplies_body limits fuel ha hr hm)
    (hlevel.supplies h.part).head hop h.equipped.stocked
  exact .of_maintained h.equipped hmaintained

theorem Poised.of_steady (h : Poised own known code all rest m) (hs : Steady known code m m') :
    Poised own known code all rest m' := by
  refine ⟨hs.equipped, h.level, h.part, h.declares.mono hs.declared, ?_⟩
  rcases h.jumps with hj | hj
  · exact .inl hj
  · exact .inr fun k => (hj k).mono hs.declared

theorem Poised.next (h : Poised own known code all (i :: rest) m) (hs : Steady known code m m')
    (hd : ∀ x, i.declares? = some x → m'.declared x) : Poised own known code all rest m' := by
  have hrest : DeclaresFirst own m'.declared rest := by
    cases h.declares with
    | plain _ _ hr => exact hr.mono fun x hx => hx.elim (hs.declared x) (hd x)
    | scope _ _ _ hr | branches _ _ hr => exact hr.mono hs.declared
  refine ⟨hs.equipped, h.level, (List.forall_mem_cons.1 h.part).2, hrest, ?_⟩
  rcases h.jumps with hj | hj
  · exact .inl hj.tail
  · exact .inr fun k => (hj k).mono hs.declared

theorem Poised.past (h : Poised own known code all (i :: rest) m) (hs : Steady known code m m')
    (hi : i.op.isLocal = false) : Poised own known code all rest m' := by
  apply h.next hs
  intro x hx
  rw [isLocal_of_declares? hx] at hi
  cases hi

theorem Poised.jump (h : Poised own known code all (i :: rest) m) (hi : i.op.isJump = true)
    (k : Nat) : Poised own known code all (all.drop k) m := by
  rcases h.jumps with hj | hj
  · rw [hj i List.mem_cons_self] at hi
    cases hi
  · exact ⟨h.equipped, h.level, fun _ hi => List.mem_of_mem_drop hi, hj k, .inr hj⟩

theorem Poised.enter (h : Poised own known code all (i :: rest) m) (hop : i.op = .scope) :
    Poised own known code i.children i.children m := by
  obtain ⟨scope, hlevel⟩ := h.level
  have hinner : Level code true i.children :=
    hlevel.inner (h.part i List.mem_cons_self) (.scope hop)
  cases h.declares with
  | plain hs => exact absurd hop hs
  | scope _ hjump hc => exact ⟨h.equipped, ⟨_, hinner⟩, fun _ h => h, hc, .inl hjump⟩
  | branches _ hc => exact ⟨h.equipped, ⟨_, hinner⟩, fun _ h => h, hc 0, .inr hc⟩

section Order

variable (hcode : ∀ scope c, Level code scope c → InOrder own known scope c)
include hcode

/-- The start of a stream that is executed in a frame of its own. -/
theorem poised_start {c : List Instruction} (hm : m.Equipped known code)
    (hc : Level code false c) : Poised own known code c c m := by
  have horder := hcode false c hc
  refine ⟨hm, ⟨false, hc⟩, fun _ h => h, ?_, .inl horder.noJump⟩
  exact (horder.declares rfl).mono fun _ hx => hx.elim

theorem Poised.formed (h : Poised own known code all (i :: rest) m) :
    ∃ scope, WellFormed known scope all.length i := by
  obtain ⟨scope, hlevel⟩ := h.level
  exact ⟨scope, (hcode scope all hlevel).formed i (h.part i List.mem_cons_self)⟩

/-! ## Single instructions -/

omit hcode in
theorem Poised.declared_of_uses (h : Poised own known code all (i :: rest) m)
    (hop : i.op ≠ .scope) {x : Name} (hx : Uses i x) (hown : own x) : m.declared x := by
  cases h.declares with
  | plain _ huse => exact huse x hx hown
  | scope hs => exact absurd hs hop
  | branches hs => exact absurd hs hop

omit hcode in
theorem value?_of_declared {x : Name} (h : m.declared x) : m.value? (.cell x) ≠ none := by
  have hcontains : (m.frame.get? x).isSome = true := h
  obtain ⟨v, hv⟩ := Option.isSome_iff_exists.1 hcontains
  change m.lookup? x ≠ none
  unfold lookup?
  rw [hv]
  exact nofun

theorem Poised.excusable_read (h : Poised own known code all (i :: rest) m) {o : Operand}
    (hvar : i.op ≠ .var) (hscope : i.op ≠ .scope) (ho : o ∈ i.args) (hv : m.value? o = none)
    (hf : o.readFault? = some f) : f.Excusable own := by
  obtain ⟨scope, hformed⟩ := h.formed hcode
  cases o with
  | imm | func => cases hf
  | unknown w => exact absurd ho (hformed.operands w)
  | data name =>
    have hsome := h.equipped.data name (hformed.data name ho)
    have hnone : m.data.get? name = none := Option.map_eq_none_iff.1 hv
    rw [hnone] at hsome
    cases hsome
  | cell x =>
    cases hf
    refine ⟨rfl, fun y hy hown => ?_⟩
    cases hy
    exact value?_of_declared (h.declared_of_uses hscope ⟨hvar, ho⟩ hown) hv

omit hcode in
theorem length_of_accepts {n : Nat} (h : i.op.accepts i.args.length = true)
    (hn : i.takes? = some n) : i.args.length = n := by
  unfold takes? at hn
  cases hop : i.op <;> rw [hop] at h hn <;> cases hn <;> exact of_decide_eq_true h

theorem Poised.excusable (h : Poised own known code all (i :: rest) m) (hop : i.op.isStep = true)
    (hf : FaultOf m i f) : f.Excusable own := by
  obtain ⟨scope, hformed⟩ := h.formed hcode
  have hscope : i.op ≠ .scope := by
    intro hs
    rw [hs] at hop
    cases hop
  cases hf with
  | count hn hne => exact absurd (length_of_accepts hformed.count hn) hne
  | read hvar ho hv hf => exact h.excusable_read hcode hvar hscope ho hv hf
  | notCell ho hne =>
    obtain ⟨x, hx⟩ := hformed.destination _ ho
    exact absurd hx (hne x)
  | undeclared hvar ho hne =>
    refine ⟨rfl, fun y hy hown => ?_⟩
    cases hy
    exact hne (h.declared_of_uses hscope ⟨hvar, ho⟩ hown)
  | relation _ hr =>
    rw [hformed.relation] at hr
    cases hr
  | size halloc hargs hv hneg =>
    obtain ⟨n, dst, hargs', hn⟩ := hformed.size halloc
    rw [hargs] at hargs'
    cases hargs'
    cases hv
    exact absurd (hneg n rfl) (Int64.not_lt.2 hn)
  | target hcall hargs hcell hfunc =>
    obtain ⟨x, hx | hx⟩ := hformed.callee hcall
    · rw [hargs] at hx
      cases hx
      exact absurd rfl (hcell x)
    · rw [hargs] at hx
      cases hx
      exact absurd rfl (hfunc x)
  | noRecord hfunc hnone =>
    obtain ⟨record, c, hrecord, -⟩ := hformed.record hfunc
    rw [hnone] at hrecord
    cases hrecord
  | badBody hfunc hrecord hbad =>
    obtain ⟨record, c, hrecord', hread⟩ := hformed.record hfunc
    rw [hrecord] at hrecord'
    cases hrecord'
    rw [hbad] at hread
    cases hread
  | opcode hknown =>
    rw [hformed.opcode] at hknown
    cases hknown
  | values hv => exact Fault.excusable_of_isOfValues hv

/-! ## Executions -/

/-- Executions with a bound stop for excusable reasons only. -/
def Excuses (own known : Name → Prop) (code : List Instruction) (limits : Limits) (fuel : Nat) :
    Prop :=
  ∀ all rest m s m', Poised own known code all rest m →
    exec limits fuel all rest m = (.error s, m') → s.Excusable own

section Steps

variable (hrun : Excuses own known code limits fuel)
include hrun

theorem excusable_invoke {name : Name} {g : Function} (hm : m.Equipped known code)
    (hg : m.functions.get? name = some g) (h : calling limits fuel g m = (.error s, m')) :
    s.Excusable own := by
  have hcase := callingCase limits fuel g m
  rw [h] at hcase
  generalize hr : ((Except.error s : Except Stop Unit), m') = r at hcase
  cases hcase with
  | tooDeep =>
    cases hr
    exact excusable_limit nofun
  | missing =>
    cases hr
    exact excusable_fault ⟨rfl, nofun⟩
  | @ran frame r m₁ m₂ hp hbody =>
    cases r with
    | ok b => cases hr
    | error s' =>
      cases hr
      have hsame := popParams_eq_ok hp
      have hequipped : Equipped known code { m₁ with frames := frame :: m₁.frames } := by
        refine ⟨hm.stocked.of_functions hsame.functions, fun name hname => ?_⟩
        have hsome := hm.data name hname
        rw [← hsame.data] at hsome
        exact hsome
      have hpoised := poised_start hcode hequipped (hm.stocked name g hg).2
      exact excusable_amid (fun _ => rfl) (hrun _ _ _ _ _ hpoised hbody)

theorem excusable_step (hp : Poised own known code all (i :: rest) m) (hop : i.op.isStep = true)
    (h : step (calling limits fuel) i m = (.error s, m')) : s.Excusable own := by
  have hcase := stepCase (i := i) (m := m) (calling limits fuel) hop
  rw [h] at hcase
  generalize hr : ((Except.error s : Except Stop Unit), m') = r at hcase
  cases hcase with
  | done | lent | registered => cases hr
  | failed hf =>
    cases hr
    exact excusable_fault (hp.excusable hcode hop hf)
  | called _ _ _ hg => exact excusable_invoke hcode hrun hp.equipped hg hr.symm

theorem excuses_cons (hp : Poised own known code all (i :: rest) m)
    (h : exec limits (fuel + 1) all (i :: rest) m = (.error s, m')) : s.Excusable own := by
  have hsteady := steady_tick hp.equipped
  have hp' := hp.of_steady hsteady
  obtain ⟨scope, hformed⟩ := hp.formed hcode
  have hturn := turn limits fuel all rest i m
  rw [h] at hturn
  generalize hr : ((Except.error s : Except Stop Bool), m') = r at hturn
  cases hturn with
  | refused =>
    cases hr
    exact excusable_limit nofun
  | unread hop _ hread =>
    cases hr
    have hcount : i.args.length = 2 := by
      have haccepts := hformed.count
      rcases hop with hop | hop <;> rw [hop] at haccepts <;> exact of_decide_eq_true haccepts
    have hvar : i.op ≠ .var ∧ i.op ≠ .scope := by rcases hop with hop | hop <;> simp [hop]
    obtain ⟨⟨f, rfl, hf⟩, -⟩ := failsWith_compared i m.tick _ _ hread
    rcases hf with hfew | ⟨o, ho, hv, hf⟩
    · omega
    · exact excusable_fault (hp'.excusable_read hcode hvar.1 hvar.2 ho hv hf)
  | astray hop _ hjump =>
    cases hr
    have htarget := (hformed.jump hop).2
    unfold Machine.jump at hjump
    rw [if_neg (by simp; omega)] at hjump
    cases hjump
  | jumped hop _ hj =>
    obtain ⟨⟨k, rfl⟩, -⟩ := jump_eq_ok hj
    exact hrun _ _ _ _ _ (hp'.jump hop k) hr.symm
  | notJumped hop =>
    exact hrun _ _ _ _ _ (hp.past hsteady (not_isLocal_of_isJump hop)) hr.symm
  | ended hop _ hin =>
    cases hr
    exact hrun _ _ _ _ _ (hp'.enter hop) hin
  | passed hop _ hin =>
    have hinner := (hp'.enter hop).steady_exec limits fuel
    rw [hin] at hinner
    have hbehind := hp.past (hsteady.trans hinner) (by rw [hop]; rfl)
    exact hrun _ _ _ _ _ hbehind hr.symm
  | @returned r m₁ hop _ hl =>
    cases r with
    | ok _ => cases hr
    | error _ =>
      cases hr
      have hleave := leaveCase i.args m.tick
      rw [hl] at hleave
      cases hleave with
      | unread hargs hv hf =>
        have hread := hp'.excusable_read hcode (by simp [hop]) (by simp [hop]) (by simp [hargs]) hv hf
        exact excusable_fault hread
  | failed hop _ hs =>
    cases hr
    exact excusable_amid (fun _ => rfl) (excusable_step hcode hrun hp' hop hs)
  | @stepped m₁ hop _ hs =>
    have hstep := hp'.steady_step hop limits fuel
    rw [hs] at hstep
    have hnext := hp'.next hstep fun x hx => declared_of_step hx hs
    exact hrun _ _ _ _ _ hnext hr.symm

end Steps

/-- Whatever its bound, an execution from a place in order stops for excusable reasons only. -/
theorem excuses (limits : Limits) (fuel : Nat) : Excuses own known code limits fuel := by
  induction fuel with
  | zero =>
    intro all rest m s m' hp h
    cases rest with
    | nil => cases h
    | cons i rest =>
      cases h
      intro e f he
      cases he
  | succ fuel ih =>
    intro all rest m s m' hp h
    cases rest with
    | nil => cases h
    | cons i rest => exact excuses_cons hcode ih hp h

theorem registerAll_of_formed {is : List Instruction}
    (his : ∀ i ∈ is, ∃ scope c, Level code scope c ∧ i ∈ c) :
    (registerAll is m).1 = .ok () := by
  induction is generalizing m with
  | nil => rfl
  | cons i rest ih =>
    rw [List.forall_mem_cons] at his
    rw [registerAll]
    split
    · next hop =>
      obtain ⟨scope, c, hlevel, hi⟩ := his.1
      obtain ⟨record, body, hrecord, hread⟩ := ((hcode scope c hlevel).formed i hi).record hop
      have hreg : register i.func m =
          (.ok (), { m with functions := m.functions.insert record.name ⟨record, body⟩ }) := by
        rw [hrecord]
        unfold register
        simp only [hread]
        rfl
      rw [Exec.bind_of_ok hreg]
      exact ih his.2
    · exact ih his.2

end Order

/-- A run of a unit whose code is in order at all levels, on any machine that serves for the unit,
does not fail for the form of an instruction or for want of a declaration of an own cell. -/
theorem Serves.excusable {u : CodeUnit}
    (hcode : ∀ scope c, Level u.code scope c → InOrder own known scope c)
    (hknown : ∀ name, known name → ∃ d ∈ u.data, d.name = name) (hm : Serves u m) {e : RunError}
    (h : runWithin fuel limits u m = (.error e, m')) (hroot : e.root = .fault f) :
    f.Excusable own := by
  have hsupplies : Supplies (fun f => Level u.code false f.body) u.code :=
    Level.top.supplies fun _ hi => hi
  have hdata : ∀ name, known name → (m.data.get? name).isSome = true := by
    intro name hname
    obtain ⟨d, hd, rfl⟩ := hknown name hname
    rw [hm.data]
    apply NameMap.isSome_get?_ofList
    rw [List.map_map]
    exact List.mem_map_of_mem hd
  have hregister := registerAll_of_formed (m := m.restart) hcode
    (Level.top.of_walkAll u.code fun _ hi => hi)
  have hcase := runCase fuel limits u m
  rw [h] at hcase
  generalize hr : ((Ending.error e), m') = r at hcase
  cases hcase with
  | unregistered hfail =>
    rw [hfail] at hregister
    cases hregister
  | ended => cases hr
  | @stopped s start m'' hreg hexec =>
    have hserves : m.Stocked fun f => Level u.code false f.body :=
      hm.stocked Level.supplies_body hsupplies
    have hstocked := stocked_registerAll (m := m.restart) hsupplies hserves
    rw [hreg] at hstocked
    have hequipped : Equipped known u.code start := by
      refine ⟨hstocked, fun name hname => ?_⟩
      rw [registerAll_eq hreg]
      exact hdata name hname
    have hexcusable := excuses hcode limits fuel _ _ _ _ _ (poised_start hcode hequipped .top) hexec
    cases s with
    | outOfFuel => cases hr
    | error _ =>
      cases hr
      exact hexcusable e f rfl hroot

end Machine

end UnitScript
