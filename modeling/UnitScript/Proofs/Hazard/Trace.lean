import Mathlib.Data.List.Induction
import UnitScript.Proofs.Hazard.Knowledge

/-!
# The walk as a trace of events

The walk for escaped names meets the blocks, declarations and uses of a program in the order of its
text. Listed as events they say what the walk does without the walk: whether a block is still open
behind some events is a matter of counting, and so is whether a declaration stands in an open block.
The walk is the run of these events, and its blocks hold the names of the declarations that stand in
blocks still open.
-/

namespace UnitScript

namespace Escape

/-- What a walk meets in the text. -/
inductive Event where
  | enter
  | leave
  | declare (name : Name)
  /-- A use inside the bodies of the functions. -/
  | use (functions : List Name) (u : Use)

mutual

/-- The events of a statement inside the bodies of `functions`, in the order of the text. A name is
declared behind its initializer, and that of a function behind the body. -/
def events (functions : List Name) : Node → List Event
  | .func _ name params _ body =>
    .enter :: (params.map fun p => .declare p.name) ++
      (eventsAll (name :: functions) body ++ [.leave, .declare name])
  | .cond _ test yes no =>
    test.uses.map (.use functions) ++
      (.enter :: eventsAll functions yes ++ (.leave :: .enter :: eventsAll functions no ++ [.leave]))
  | .loop _ test body =>
    test.uses.map (.use functions) ++ (.enter :: eventsAll functions body ++ [.leave])
  | .binary _ .declare (.ident _ name) right _ => right.uses.map (.use functions) ++ [.declare name]
  | n => n.uses.map (.use functions)

def eventsAll (functions : List Name) : List Node → List Event
  | [] => []
  | n :: rest => events functions n ++ eventsAll functions rest

end

/-! ## Open and closed blocks -/

/-- How many blocks inside of a block are open behind the events, if `k` of them are open in front;
none when the block itself has been left. -/
def within : Nat → List Event → Option Nat
  | k, [] => some k
  | k, .enter :: es => within (k + 1) es
  | 0, .leave :: _ => none
  | k + 1, .leave :: es => within k es
  | k, .declare _ :: es => within k es
  | k, .use _ _ :: es => within k es

/-- The name is declared in a block that is still open behind the events. -/
def InOpenBlock (es : List Event) (name : Name) : Prop :=
  ∃ before after, es = before ++ .declare name :: after ∧ within 0 after ≠ none

/-- The name is declared in a block that has been left behind the events. -/
def InClosedBlock (es : List Event) (name : Name) : Prop :=
  ∃ before after, es = before ++ .declare name :: after ∧ within 0 after = none

/-- The name is declared in an open block with `k` open blocks inside. -/
def DeclaredAt (es : List Event) (name : Name) (k : Nat) : Prop :=
  ∃ before after, es = before ++ .declare name :: after ∧ within 0 after = some k

theorem inOpenBlock_iff_declaredAt {es : List Event} {name : Name} :
    InOpenBlock es name ↔ ∃ k, DeclaredAt es name k := by
  constructor
  · rintro ⟨before, after, hes, hopen⟩
    obtain ⟨k, hk⟩ := Option.ne_none_iff_exists'.mp hopen
    exact ⟨k, before, after, hes, hk⟩
  · rintro ⟨k, before, after, hes, hk⟩
    exact ⟨before, after, hes, by simp [hk]⟩

theorem declare_mem_iff {es : List Event} {name : Name} :
    Event.declare name ∈ es ↔ InOpenBlock es name ∨ InClosedBlock es name := by
  constructor
  · intro hmem
    obtain ⟨before, after, hes⟩ := List.append_of_mem hmem
    by_cases hclosed : within 0 after = none
    · exact .inr ⟨before, after, hes, hclosed⟩
    · exact .inl ⟨before, after, hes, hclosed⟩
  · rintro (⟨before, after, rfl, -⟩ | ⟨before, after, rfl, -⟩) <;> simp

theorem concat_eq_append_cons_iff {α : Type} {xs before after : List α} {x y : α} :
    xs ++ [x] = before ++ y :: after ↔
      (before = xs ∧ y = x ∧ after = []) ∨ ∃ front, after = front ++ [x] ∧ xs = before ++ y :: front := by
  constructor
  · intro h
    obtain rfl | ⟨front, last, rfl⟩ := List.eq_nil_or_concat after
    · obtain ⟨rfl, hlast⟩ := List.append_inj' h rfl
      exact .inl ⟨rfl, (List.singleton_inj.mp hlast).symm, rfl⟩
    · rw [List.concat_eq_append, ← List.cons_append, ← List.append_assoc] at h
      obtain ⟨hfront, hlast⟩ := List.append_inj' h rfl
      exact .inr ⟨front, by rw [List.singleton_inj.mp hlast, List.concat_eq_append], hfront⟩
  · rintro (⟨rfl, rfl, rfl⟩ | ⟨front, rfl, rfl⟩) <;> simp

theorem within_append (es es' : List Event) (k : Nat) :
    within k (es ++ es') = (within k es).bind (within · es') := by
  fun_induction within k es <;> simp_all [within]

/-- One more event: a declaration of its own block, or the blocks around change. -/
theorem declaredAt_concat {es : List Event} {e : Event} {name : Name} {k : Nat} :
    DeclaredAt (es ++ [e]) name k ↔
      (e = .declare name ∧ k = 0) ∨ ∃ m, DeclaredAt es name m ∧ within m [e] = some k := by
  constructor
  · rintro ⟨before, after, hes, hk⟩
    obtain ⟨-, he, rfl⟩ | ⟨front, rfl, rfl⟩ := concat_eq_append_cons_iff.mp hes
    · exact .inl ⟨he.symm, (Option.some.inj hk).symm⟩
    · rw [within_append, Option.bind_eq_some_iff] at hk
      obtain ⟨m, hm, hlast⟩ := hk
      exact .inr ⟨m, ⟨before, front, rfl, hm⟩, hlast⟩
  · rintro (⟨rfl, rfl⟩ | ⟨m, ⟨before, after, rfl, hm⟩, hlast⟩)
    · exact ⟨es, [], rfl, rfl⟩
    · refine ⟨before, after ++ [e], by simp, ?_⟩
      rw [within_append, hm]
      exact hlast

/-! ## The walk runs the events -/

namespace Walk

variable {prelude : Prelude} {w : Walk} {name : Name}

def step (prelude : Prelude) (w : Walk) : Event → Walk
  | .enter => w.enter
  | .leave => w.leave
  | .declare name => w.declare name
  | .use functions u => w.use prelude functions u

def run (prelude : Prelude) (w : Walk) (es : List Event) : Walk := es.foldl (step prelude) w

theorem run_append (prelude : Prelude) (w : Walk) (es es' : List Event) :
    w.run prelude (es ++ es') = (w.run prelude es).run prelude es' :=
  List.foldl_append

theorem run_cons (prelude : Prelude) (w : Walk) (e : Event) (es : List Event) :
    w.run prelude (e :: es) = (w.step prelude e).run prelude es :=
  rfl

theorem run_concat (prelude : Prelude) (w : Walk) (es : List Event) (e : Event) :
    w.run prelude (es ++ [e]) = (w.run prelude es).step prelude e :=
  run_append prelude w es [e]

theorem run_uses (prelude : Prelude) (w : Walk) (functions : List Name) (us : List Use) :
    w.run prelude (us.map (.use functions)) = w.useAll prelude functions us :=
  List.foldl_map

theorem run_params (prelude : Prelude) (w : Walk) (params : List Param) :
    w.run prelude (params.map fun p => .declare p.name) = w.declareAll (params.map Param.name) := by
  induction params generalizing w with
  | nil => rfl
  | cons p rest ih => exact ih (w.declare p.name)

theorem knows_run (prelude : Prelude) (w : Walk) (name : Name) (es : List Event) :
    (w.run prelude es).Knows prelude name ↔ .declare name ∈ es ∨ w.Knows prelude name := by
  induction es generalizing w with
  | nil => simp [run]
  | cons e rest ih =>
    rw [run_cons, ih, List.mem_cons]
    cases e with
    | enter => simp [step, knows_enter]
    | leave => simp [step, knows_leave]
    | declare declared =>
      rw [step, knows_declare, Event.declare.injEq, or_left_comm, or_assoc]
    | use functions u => simp [step, knows_use]

theorem found_run_suffix (prelude : Prelude) (w : Walk) (es : List Event) :
    w.found <:+ (w.run prelude es).found := by
  induction es generalizing w with
  | nil => exact List.suffix_rfl
  | cons e rest ih =>
    refine List.IsSuffix.trans ?_ (ih (w.step prelude e))
    cases e with
    | use functions u => exact found_use_suffix prelude functions w u
    | _ => simp [step]

theorem found_useAll_suffix (prelude : Prelude) (functions : List Name) (w : Walk) (us : List Use) :
    w.found <:+ (w.useAll prelude functions us).found := by
  rw [← run_uses]
  exact found_run_suffix prelude w _

theorem useAll_append (prelude : Prelude) (functions : List Name) (w : Walk) (us vs : List Use) :
    w.useAll prelude functions (us ++ vs) =
      (w.useAll prelude functions us).useAll prelude functions vs :=
  List.foldl_append

theorem found_useAll_suffix_append (prelude : Prelude) (functions : List Name) (w : Walk)
    (us vs : List Use) :
    (w.useAll prelude functions us).found <:+ (w.useAll prelude functions (us ++ vs)).found := by
  rw [useAll_append]
  exact found_useAll_suffix prelude functions _ vs

/-! ## The blocks of a run -/

theorem isOpen_iff : w.isOpen name = true ↔ ∃ k, name ∈ w.blocks.getD k [] := by
  simp only [isOpen, List.any_eq_true, decide_eq_true_eq]
  constructor
  · rintro ⟨block, hblock, hname⟩
    obtain ⟨k, hk⟩ := List.mem_iff_getElem?.mp hblock
    exact ⟨k, by rwa [List.getD_eq_getElem?_getD, hk]⟩
  · rintro ⟨k, hname⟩
    rw [List.getD_eq_getElem?_getD] at hname
    cases hk : w.blocks[k]? with
    | none => simp [hk] at hname
    | some block =>
      rw [hk] at hname
      exact ⟨block, List.mem_of_getElem? hk, hname⟩

theorem blocks_use (functions : List Name) (u : Use) :
    (w.use prelude functions u).blocks = w.blocks := by
  unfold use
  split
  · rfl
  · split
    · rfl
    · split <;> rfl

/-- A name is in a block behind an event if the event declares it there, or if the block has it in
front, counted from the blocks that the event enters or leaves. -/
theorem mem_blocks_step (e : Event) (k : Nat) :
    name ∈ (w.step prelude e).blocks.getD k [] ↔
      (e = .declare name ∧ k = 0) ∨ ∃ m, name ∈ w.blocks.getD m [] ∧ within m [e] = some k := by
  cases e with
  | enter => cases k <;> simp [step, enter, within]
  | leave =>
    have hblocks : (w.leave).blocks.getD k [] = w.blocks.getD (k + 1) [] := by
      unfold leave
      split
      · next hnil => simp [hnil]
      · next block outer hcons => simp [hcons]
    rw [step, hblocks]
    constructor
    · exact fun hname => .inr ⟨k + 1, hname, rfl⟩
    · rintro (⟨hdeclare, -⟩ | ⟨m, hname, hm⟩)
      · cases hdeclare
      · cases m with
        | zero => cases hm
        | succ m =>
          obtain rfl : m = k := Option.some.inj hm
          exact hname
  | declare declared =>
    have hblocks : (w.declare declared).blocks.getD k [] =
        if k = 0 then declared :: w.blocks.getD 0 [] else w.blocks.getD k [] := by
      cases hcases : w.blocks <;> cases k <;> simp [declare, hcases]
    rw [step, hblocks]
    cases k with
    | zero => simp [within, eq_comm]
    | succ k => simp [within]
  | use functions u => simp [step, blocks_use, within]

theorem mem_blocks_run (prelude : Prelude) (name : Name) (es : List Event) (k : Nat) :
    name ∈ (start.run prelude es).blocks.getD k [] ↔ DeclaredAt es name k := by
  induction es using List.reverseRecOn generalizing k with
  | nil =>
    have hstart : (start.run prelude []).blocks.getD k [] = [] := by
      cases k <;> rfl
    rw [hstart]
    simp [DeclaredAt]
  | append_singleton es e ih =>
    rw [run_concat, mem_blocks_step, declaredAt_concat]
    simp only [ih]

theorem isOpen_run (prelude : Prelude) (name : Name) (es : List Event) :
    (start.run prelude es).isOpen name = true ↔ InOpenBlock es name := by
  rw [isOpen_iff, inOpenBlock_iff_declaredAt]
  simp only [mem_blocks_run]

end Walk

mutual

theorem stmt_eq_run (prelude : Prelude) : ∀ (n : Node) (functions : List Name) (w : Walk),
    stmt prelude functions w n = w.run prelude (events functions n)
  | .binary _ op left right _, functions, w => by
    cases op
    case declare =>
      cases left
      case ident pos name =>
        rw [stmt, events, Walk.run_concat, Walk.run_uses]
        rfl
      all_goals exact (Walk.run_uses prelude w functions right.uses).symm
    all_goals exact (Walk.run_uses prelude w functions _).symm
  | .func _ name params _ body, functions, w => by
    rw [stmt, block_eq_run prelude body, events, List.cons_append, Walk.run_cons, Walk.run_append,
      Walk.run_append, Walk.run_params]
    rfl
  | .cond _ test yes no, functions, w => by
    rw [stmt, block_eq_run prelude yes, block_eq_run prelude no, events, Walk.run_append, Walk.run_uses,
      List.cons_append, Walk.run_cons, Walk.run_append, List.cons_append, List.cons_append, Walk.run_cons,
      Walk.run_cons, Walk.run_concat]
    rfl
  | .loop _ test body, functions, w => by
    rw [stmt, block_eq_run prelude body, events, Walk.run_append, Walk.run_uses, List.cons_append,
      Walk.run_cons, Walk.run_concat]
    rfl
  | .number .., _, _ | .string .., _, _ | .ident .., _, _ | .index .., _, _ | .array .., _, _
  | .call .., _, _ | .property .., _, _ | .ret .., _, _ | .pass _, _, _ | .importUnit .., _, _
  | .param _, _, _ | .type _, _, _ | .program _, _, _ | .missing, _, _ =>
    (Walk.run_uses prelude _ _ _).symm

theorem block_eq_run (prelude : Prelude) : ∀ (ns : List Node) (functions : List Name) (w : Walk),
    block prelude functions w ns = w.run prelude (eventsAll functions ns)
  | [], _, _ => rfl
  | n :: rest, functions, w => by
    rw [block, stmt_eq_run prelude n, block_eq_run prelude rest, eventsAll, Walk.run_append]

end

mutual

theorem declare_mem_events {name : Name} : ∀ (n : Node) (functions : List Name),
    .declare name ∈ events functions n ↔ name ∈ n.introduced
  | .binary _ op left _ _, _ => by
    cases op
    case declare => cases left <;> simp [events, Node.introduced]
    all_goals simp [events, Node.introduced]
  | .func _ _ _ _ body, functions => by
    simp [events, Node.introduced, declare_mem_eventsAll body]
  | .cond _ _ yes no, functions => by
    simp [events, Node.introduced, declare_mem_eventsAll yes, declare_mem_eventsAll no]
  | .loop _ _ body, functions => by simp [events, Node.introduced, declare_mem_eventsAll body]
  | .number .., _ | .string .., _ | .ident .., _ | .index .., _ | .array .., _ | .call .., _
  | .property .., _ | .ret .., _ | .pass _, _ | .importUnit .., _ | .param _, _ | .type _, _
  | .program _, _ | .missing, _ => by simp [events, Node.introduced]

theorem declare_mem_eventsAll {name : Name} : ∀ (ns : List Node) (functions : List Name),
    .declare name ∈ eventsAll functions ns ↔ name ∈ Node.introducedAll ns
  | [], _ => by simp [eventsAll, Node.introducedAll]
  | n :: rest, functions => by
    simp [eventsAll, Node.introducedAll, declare_mem_events n, declare_mem_eventsAll rest]

end

theorem knows_stmt (prelude : Prelude) (name : Name) (n : Node) (functions : List Name) (w : Walk) :
    (stmt prelude functions w n).Knows prelude name ↔ name ∈ n.introduced ∨ w.Knows prelude name := by
  rw [stmt_eq_run, Walk.knows_run, declare_mem_events]

theorem knows_block (prelude : Prelude) (name : Name) (ns : List Node) (functions : List Name)
    (w : Walk) : (block prelude functions w ns).Knows prelude name ↔
      name ∈ Node.introducedAll ns ∨ w.Knows prelude name := by
  rw [block_eq_run, Walk.knows_run, declare_mem_eventsAll]

theorem found_block_suffix (prelude : Prelude) (ns : List Node) (functions : List Name) (w : Walk) :
    w.found <:+ (block prelude functions w ns).found := by
  rw [block_eq_run]
  exact Walk.found_run_suffix prelude w _

theorem hazards_eq_run (prelude : Prelude) (body : List Node) :
    hazards prelude body = (Walk.start.run prelude (eventsAll [] body)).found.reverse := by
  rw [hazards, block_eq_run]

end Escape

end UnitScript
