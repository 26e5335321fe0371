import UnitScript.Proofs.Machine.Discipline
import UnitScript.Proofs.Machine.Outcome

/-!
# The levels of code

Code has levels: the list itself, the children of its scopes, and the bodies of its functions as they
are read, and so on below these. At each level the instructions are to be well formed, and in each
stream of instructions that is executed in one frame a cell of a given set is to be declared before it
is used.
-/

namespace UnitScript

/-- The numbers of operands that instructions with the opcode have. -/
def Opcode.accepts (op : Opcode) (n : Nat) : Bool :=
  match op with
  | nop | jmp | scope | func => n == 0
  | ret => n ≤ 1
  | var | push | pop | call => n == 1
  | mov | alloc | deref | jeq | jne => n == 2
  | add | sub | mul | div | cmp | pmov => n == 3
  | unknown _ => false

namespace Instruction

/-! ## Levels -/

/-- The list directly below an instruction: the children of a scope, or the body of a function as it
is read. The flag tells the two apart. -/
inductive Opens (i : Instruction) : (scope : Bool) → List Instruction → Prop where
  | scope : i.op = .scope → Opens i true i.children
  | body {record c} : i.op = .func → i.func = some record → Decoding.runCode record.body = .ok c →
      Opens i false c

/-- The lists at all levels of some code. -/
inductive Level (code : List Instruction) : (scope : Bool) → List Instruction → Prop where
  | top : Level code false code
  | inner {scope scope' c d i} : Level code scope c → i ∈ c → Opens i scope' d →
      Level code scope' d

/-- All levels below an instruction have a property. -/
inductive Below (P : Bool → List Instruction → Prop) : Instruction → Prop where
  | intro {i} : (∀ scope c, Opens i scope c → P scope c) →
      (∀ scope c, Opens i scope c → ∀ j ∈ c, Below P j) → Below P i

variable {P Q : Bool → List Instruction → Prop} {code c d : List Instruction} {i : Instruction}
  {scope : Bool}

theorem Level.holds (htop : P false code) (hbelow : ∀ i ∈ code, Below P i)
    (h : Level code scope c) : P scope c := by
  have hboth : P scope c ∧ ∀ i ∈ c, Below P i := by
    induction h with
    | top => exact ⟨htop, hbelow⟩
    | inner _ hi hopens ih =>
      cases ih.2 _ hi with
      | intro hhere hdeeper => exact ⟨hhere _ _ hopens, hdeeper _ _ hopens⟩
  exact hboth.1

theorem Below.imp (h : Below P i) (hPQ : ∀ scope c, P scope c → Q scope c) : Below Q i := by
  induction h with
  | intro hhere _ ih =>
    exact .intro (fun scope c ho => hPQ scope c (hhere scope c ho)) fun scope c ho j hj =>
      ih scope c ho j hj

theorem below_plain (hscope : i.op ≠ .scope) (hfunc : i.op ≠ .func) : Below P i := by
  have hnone : ∀ scope c, ¬Opens i scope c := by
    intro scope c ho
    cases ho with
    | scope hop => exact hscope hop
    | body hop => exact hfunc hop
  exact .intro (fun scope c ho => absurd ho (hnone scope c)) fun scope c ho =>
    absurd ho (hnone scope c)

theorem below_scope (hop : i.op = .scope) (hhere : P true i.children)
    (hdeeper : ∀ j ∈ i.children, Below P j) : Below P i := by
  have hopens : ∀ scope c, Opens i scope c → scope = true ∧ c = i.children := by
    intro scope c ho
    cases ho with
    | scope => exact ⟨rfl, rfl⟩
    | body hfunc =>
      rw [hop] at hfunc
      cases hfunc
  constructor
  · intro scope c ho
    obtain ⟨rfl, rfl⟩ := hopens scope c ho
    exact hhere
  · intro scope c ho
    obtain ⟨-, rfl⟩ := hopens scope c ho
    exact hdeeper

theorem below_function {record : FunctionRecord} (hread : Decoding.runCode record.body = .ok c)
    (hhere : P false c) (hdeeper : ∀ j ∈ c, Below P j) : Below P (.function record) := by
  have hopens : ∀ scope d, Opens (.function record) scope d → scope = false ∧ d = c := by
    intro scope d ho
    cases ho with
    | scope hop => cases hop
    | body _ hrecord hbody =>
      cases hrecord
      rw [hread] at hbody
      cases hbody
      exact ⟨rfl, rfl⟩
  constructor
  · intro scope d ho
    obtain ⟨rfl, rfl⟩ := hopens scope d ho
    exact hhere
  · intro scope d ho
    obtain ⟨-, rfl⟩ := hopens scope d ho
    exact hdeeper

theorem Level.of_walkAll (is : List Instruction) {scope : Bool} {c : List Instruction}
    (h : Level code scope c) (his : ∀ i ∈ is, i ∈ c) :
    Throughout (fun j => ∃ scope' d, Level code scope' d ∧ j ∈ d) is := by
  induction is using induction_code generalizing scope c with
  | nil => exact throughout_nil
  | cons i is ihc ih =>
    rw [List.forall_mem_cons] at his
    refine (throughout_single ⟨scope, c, h, his.1⟩ fun hop => ?_).cons (ih h his.2)
    exact ihc (h.inner his.1 (.scope hop)) fun _ hj => hj

/-! ## Well-formed instructions -/

/-- An instruction that no machine can take offence at, in a list of `size` instructions: it has a
known opcode and a known relation, the operands that its opcode needs, a cell to write to, a place to
jump to in the scope around it, only data that are `known`, and a function that can be read. -/
structure WellFormed (known : Name → Prop) (scope : Bool) (size : Nat) (i : Instruction) : Prop where
  opcode : i.op.isKnown = true
  relation : i.relation.isKnown = true
  count : i.op.accepts i.args.length = true
  operands : ∀ code, .unknown code ∉ i.args
  destination : ∀ o, i.destination? = some o → ∃ x, o = .cell x
  jump : i.op.isJump = true → scope = true ∧ 0 ≤ i.target ∧ i.target ≤ size
  data : ∀ name, .data name ∈ i.args → known name
  size : i.op = .alloc → ∃ n dst, i.args = [.imm n, dst] ∧ 0 ≤ n
  callee : i.op = .call → ∃ x, i.args = [.cell x] ∨ i.args = [.func x]
  record : i.op = .func → ∃ record c, i.func = some record ∧ Decoding.runCode record.body = .ok c

theorem WellFormed.mono {known known' : Name → Prop} {size : Nat}
    (h : WellFormed known scope size i) (hknown : ∀ x, known x → known' x) :
    WellFormed known' scope size i :=
  { h with data := fun name hname => hknown name (h.data name hname) }

/-! ## Declarations before uses -/

/-- The instruction reads or overwrites the cell. -/
def Uses (i : Instruction) (x : Name) : Prop := i.op ≠ .var ∧ .cell x ∈ i.args

/-- Where the cells in `declared` are declared, an instruction that uses a cell in `own` comes only
after the declaration of the cell. A scope either has no jumps, or is in order from each of its
places. -/
inductive DeclaresFirst (own : Name → Prop) : (declared : Name → Prop) → List Instruction → Prop where
  | nil {D} : DeclaresFirst own D []
  | plain {D i rest} : i.op ≠ .scope → (∀ x, Uses i x → own x → D x) →
      DeclaresFirst own (fun x => D x ∨ i.declares? = some x) rest → DeclaresFirst own D (i :: rest)
  | scope {D i rest} : i.op = .scope → NoJump i.children → DeclaresFirst own D i.children →
      DeclaresFirst own D rest → DeclaresFirst own D (i :: rest)
  | branches {D i rest} : i.op = .scope → (∀ k, DeclaresFirst own D (i.children.drop k)) →
      DeclaresFirst own D rest → DeclaresFirst own D (i :: rest)

variable {own D E : Name → Prop}

theorem DeclaresFirst.mono (h : DeclaresFirst own D c) (hDE : ∀ x, D x → E x) :
    DeclaresFirst own E c := by
  induction h generalizing E with
  | nil => exact .nil
  | plain hs huse _ ih =>
    refine .plain hs (fun x hx hown => hDE x (huse x hx hown)) (ih fun x hx => ?_)
    exact hx.imp_left (hDE x)
  | scope hop hjump _ _ ihc ihr => exact .scope hop hjump (ihc hDE) (ihr hDE)
  | branches hop _ _ ihc ihr => exact .branches hop (fun k => ihc k hDE) (ihr hDE)

theorem DeclaresFirst.append (hc : DeclaresFirst own D c)
    (hd : DeclaresFirst own (fun x => D x ∨ ∃ i ∈ c, i.declares? = some x) d) :
    DeclaresFirst own D (c ++ d) := by
  induction hc with
  | nil =>
    apply hd.mono
    rintro x (hx | ⟨i, hi, -⟩)
    · exact hx
    · cases hi
  | plain hs huse _ ih =>
    refine .plain hs huse (ih (hd.mono ?_))
    rintro x (hx | ⟨i, hi, hx⟩)
    · exact .inl (.inl hx)
    · rcases List.mem_cons.1 hi with rfl | hi
      · exact .inl (.inr hx)
      · exact .inr ⟨i, hi, hx⟩
  | @scope D i rest hop hjump hchildren hrest ihc ih =>
    refine .scope hop hjump hchildren (ih (hd.mono ?_))
    rintro x (hx | ⟨j, hj, hx⟩)
    · exact .inl hx
    · rcases List.mem_cons.1 hj with rfl | hj
      · have hlocal := isLocal_of_declares? hx
        rw [hop] at hlocal
        cases hlocal
      · exact .inr ⟨j, hj, hx⟩
  | @branches D i rest hop hchildren hrest ihc ih =>
    refine .branches hop hchildren (ih (hd.mono ?_))
    rintro x (hx | ⟨j, hj, hx⟩)
    · exact .inl hx
    · rcases List.mem_cons.1 hj with rfl | hj
      · have hlocal := isLocal_of_declares? hx
        rw [hop] at hlocal
        cases hlocal
      · exact .inr ⟨j, hj, hx⟩

theorem DeclaresFirst.append_same (hc : DeclaresFirst own D c) (hd : DeclaresFirst own D d) :
    DeclaresFirst own D (c ++ d) :=
  hc.append (hd.mono fun _ hx => .inl hx)

theorem declaresFirst_single (hs : i.op ≠ .scope) (huse : ∀ x, Uses i x → own x → D x) :
    DeclaresFirst own D [i] :=
  .plain hs huse .nil

theorem declaresFirst_drop (h : ∀ i ∈ c, DeclaresFirst own D [i]) (k : Nat) :
    DeclaresFirst own D (c.drop k) := by
  induction c generalizing k with
  | nil =>
    rw [List.drop_nil]
    exact .nil
  | cons i c ih =>
    rw [List.forall_mem_cons] at h
    cases k with
    | zero => exact h.1.append_same (d := c) (ih h.2 0)
    | succ k => exact ih h.2 k

/-- What is asked of each level of code: its instructions are well formed, and if it is a stream that
is executed in a frame of its own, cells in `own` are declared before they are used. -/
structure InOrder (own known : Name → Prop) (scope : Bool) (c : List Instruction) : Prop where
  formed : ∀ i ∈ c, WellFormed known scope c.length i
  declares : scope = false → DeclaresFirst own (fun _ => False) c

theorem InOrder.noJump {known : Name → Prop} (h : InOrder own known false c) : NoJump c := by
  intro i hi
  cases hjump : i.op.isJump with
  | false => rfl
  | true => cases ((h.formed i hi).jump hjump).1

end Instruction

end UnitScript
