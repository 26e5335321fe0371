import UnitScript.Proofs.Machine.Failure
import UnitScript.Proofs.Machine.Guards
import UnitScript.Proofs.Machine.Mirroring

/-!
# Runs that repeat themselves

A machine keeps its functions, its heap and its console from one run to the next. A later run comes to
the same all the same, except for the place of its blocks. The functions that are left over from the
runs before are those that the first run has registered in the end. So the first run misses none of
them, and every later run mirrors it.
-/

namespace UnitScript

namespace Machine

variable {p : Past} {m m' : Machine} {limits : Limits}

/-! ## Series of runs -/

def output (m : Machine) : Array UInt8 := (m.console.map Console.output).getD #[]

theorem Mirrors.output (h : Mirrors p m m') :
    Option.Rel (fun c c' => ∃ text, c.output = p.printed ++ text ∧ c'.output = p.shown ++ text)
      m.console m'.console := by
  have hc := h.console
  generalize m.console = c, m'.console = c' at hc
  cases hc with
  | none => exact .none
  | some h => exact .some h.output

def withConsole (m : Machine) (console : Option Console) : Machine := { m with console := console }

/-- The machines on which a unit is run again and again: a new one, or one that has run it before, to
whatever end. Each of the later consoles answers the reads like the first one, as far as the first run
goes with them. -/
inductive Replays (fuel : Nat) (limits : Limits) (u : CodeUnit) (console : Option Console) :
    Machine → Prop where
  | new : Replays fuel limits u console (ofUnit u console)
  | again {m : Machine} {c : Option Console} : Replays fuel limits u console m →
      Option.Rel (Console.Alike
        (Console.unread (runWithin fuel limits u (ofUnit u console)).2.console)) console c →
      Replays fuel limits u console ((runWithin fuel limits u m).2.withConsole c)

theorem Replays.carry {fuel : Nat} {u : CodeUnit} {console : Option Console}
    (h : Replays fuel limits u console m)
    (hc : Option.Rel (Console.Alike
      (Console.unread (runWithin fuel limits u (ofUnit u console)).2.console)) console
      (runWithin fuel limits u m).2.console) :
    Replays fuel limits u console (runWithin fuel limits u m).2 :=
  h.again hc

/-- The outcome `r₀` of a run on the machine `m₀`, whose heap is empty, once more on the machine `m`:
the same text is printed, and pointers lead to the same blocks behind those of `m`, which stay as they
are. -/
structure Reenacts (m₀ : Machine) (r₀ : Ending × Machine) (m : Machine) (r : Ending × Machine) :
    Prop where
  ending : r.1 = r₀.1.shift m.heap.size
  console : Option.Rel
    (fun c₀ c => ∃ text, c₀.output = m₀.output ++ text ∧ c.output = m.output ++ text)
    r₀.2.console r.2.console
  stack : r.2.stack = r₀.2.stack.map (Value.shift m.heap.size)
  globals : r.2.globals = r₀.2.globals.map (Value.shift m.heap.size)
  heap : r.2.heap = m.heap.above r₀.2.heap

end Machine

/-- No function of the unit, at whatever level, has the name of a builtin. -/
def CodeUnit.SparesBuiltins (u : CodeUnit) : Prop :=
  ∀ scope c, Instruction.Level u.code scope c → ∀ i ∈ c, i.op = .func →
    ∀ record, i.func = some record → Builtin.find? record.name = none

namespace Machine

open Instruction

variable {u : CodeUnit} {console : Option Console} {fuel : Nat}

theorem supplies_foreign (hu : u.SparesBuiltins) {scope : Bool} {c : List Instruction}
    (h : Level u.code scope c) : Supplies
      (fun f => Level u.code false f.body ∧ Builtin.find? f.record.name = none) c := by
  intro i hi hop record body hrecord hbody
  obtain ⟨scope', d, hlevel, hmem⟩ := h.of_walkAll c (fun _ hi => hi) i hi
  exact ⟨hlevel.inner hmem (.body hop hrecord hbody), hu scope' d hlevel i hmem hop record hrecord⟩

/-- The machines for a unit have functions only under names that are free. -/
theorem Serves.foreign (hu : u.SparesBuiltins) (h : Serves u m) {n : Name}
    (hn : m.functions.get? n ≠ none) : Builtin.find? n = none := by
  obtain ⟨f, hf⟩ := Option.ne_none_iff_exists'.1 hn
  have hstocked := h.stocked (fun f hf => supplies_foreign hu hf.1) (supplies_foreign hu .top)
  obtain ⟨hname, -, hfree⟩ := hstocked n f hf
  rwa [hname] at hfree

/-- The past of a machine in a series of runs. -/
def Past.ofSeries (hu : u.SparesBuiltins) (fuel : Nat) (limits : Limits) (console : Option Console)
    (m : Machine) : Past where
  blocks := m.heap
  known n := (runWithin fuel limits u (ofUnit u console)).2.functions.get? n ≠ none
  printed := (ofUnit u console).output
  shown := m.output
  rest := Console.unread (runWithin fuel limits u (ofUnit u console)).2.console
  foreign _ hn := ((Serves.new console).again fuel limits).foreign hu hn

/-- The run on a machine with such a past mirrors the first run to its end. -/
theorem Mirrors.to_end_of_series {hu : u.SparesBuiltins}
    (h : Mirrors (.ofSeries hu fuel limits console m) (ofUnit u console).restart m.restart) :
    (runWithin fuel limits u m).1 =
        (runWithin fuel limits u (ofUnit u console)).1.shift m.heap.size ∧
      Mirrors (.ofSeries hu fuel limits console m) (runWithin fuel limits u (ofUnit u console)).2
        (runWithin fuel limits u m).2 := by
  rcases h.to_end fuel limits u with ⟨n, hknown, hnone⟩ | hbeyond | hsame
  · exact absurd hnone hknown
  · exact absurd hbeyond (Nat.lt_irrefl _)
  · exact hsame

theorem resumes_of_alike {rest : Nat} {c : Option Console}
    (h : Option.Rel (Console.Alike rest) console c) :
    Option.Rel (Console.Resumes rest ((console.map Console.output).getD #[])
      ((c.map Console.output).getD #[])) console c := by
  cases h with
  | none => exact .none
  | some h => exact .some ⟨h, #[], by simp, by simp⟩

theorem alike_refl (rest : Nat) (console : Option Console) :
    Option.Rel (Console.Alike rest) console console := by
  cases console with
  | none => exact .none
  | some c => exact .some fun _ _ => rfl

/-- In a series of runs each machine is at the start a new one with a past. -/
theorem Replays.mirrors (hu : u.SparesBuiltins) (h : Replays fuel limits u console m) :
    Mirrors (.ofSeries hu fuel limits console m) (ofUnit u console).restart m.restart := by
  induction h with
  | new =>
    exact ⟨rfl, fun _ => .inl rfl, rfl, rfl, rfl, (Heap.above_empty _).symm,
      resumes_of_alike (alike_refl _ console), rfl, rfl⟩
  | @again m c _ hc ih =>
    have hserves : Serves u (runWithin fuel limits u (ofUnit u console)).2 :=
      (Serves.new console).again fuel limits
    have hm := ih.to_end_of_series.2
    refine ⟨hm.data.trans hserves.data, fun n => ?_, rfl, rfl, rfl, (Heap.above_empty _).symm,
      resumes_of_alike hc, rfl, rfl⟩
    -- the functions are those that the first run has in the end
    rcases hm.functions n with heq | ⟨hnone, hknown⟩
    · by_cases hn : (runWithin fuel limits u (ofUnit u console)).2.functions.get? n = none
      · exact .inl (heq.trans hn)
      · exact .inr ⟨rfl, hn⟩
    · exact absurd hnone hknown

end Machine

open Machine

/-- Every run in a series has the outcome of the first one, except for the place of its blocks in the
heap: it ends with the same value or the same error, prints the same text, and leaves the same values
on the stack and in the cells of the top level, whether or not the runs before have failed. -/
theorem CodeUnit.runs_repeat {u : CodeUnit} (hu : u.SparesBuiltins) {fuel : Nat} {limits : Limits}
    {console : Option Console} {m : Machine} (h : Replays fuel limits u console m) :
    Reenacts (ofUnit u console) (runWithin fuel limits u (ofUnit u console)) m
      (runWithin fuel limits u m) := by
  obtain ⟨hending, hend⟩ := (h.mirrors hu).to_end_of_series
  exact ⟨hending, hend.output, hend.stack, hend.globals, hend.heap⟩

/-! ## A series of failing runs -/

namespace Instruction

/-- The lists directly below an instruction. -/
def inner (i : Instruction) : List (List Instruction) :=
  match i.op, i.func with
  | .scope, _ => [i.children]
  | .func, some record => (Decoding.runCode record.body).toOption.toList
  | _, _ => []

/-- Whether all levels pass a test, and there are no more than `n` of them on top of each other. -/
def everyLevel (test : List Instruction → Bool) : (n : Nat) → List Instruction → Bool
  | 0, _ => false
  | n + 1, c => test c && c.all fun i => i.inner.all (everyLevel test n)

theorem Opens.mem_inner {i : Instruction} {scope : Bool} {c : List Instruction}
    (h : Opens i scope c) : c ∈ i.inner := by
  cases h with
  | scope hop => simp [inner, hop]
  | body hop hrecord hbody => simp [inner, hop, hrecord, hbody, Except.toOption]

theorem Level.passes {test : List Instruction → Bool} {n : Nat} {code c : List Instruction}
    {scope : Bool} (hcode : everyLevel test n code = true) (h : Level code scope c) :
    test c = true := by
  have hlevels : ∃ n, everyLevel test n c = true := by
    induction h with
    | top => exact ⟨n, hcode⟩
    | @inner _ _ _ d i _ hi hopens ih =>
      obtain ⟨n, hn⟩ := ih
      cases n with
      | zero => cases hn
      | succ n =>
        rw [everyLevel, Bool.and_eq_true, List.all_eq_true] at hn
        exact ⟨n, List.all_eq_true.1 (hn.2 i hi) d hopens.mem_inner⟩
  obtain ⟨n, hn⟩ := hlevels
  cases n with
  | zero => cases hn
  | succ n =>
    rw [everyLevel, Bool.and_eq_true] at hn
    exact hn.1

/-- Whether the functions of a list have names of their own. -/
def sparesBuiltins (c : List Instruction) : Bool :=
  c.all fun i => i.func.all fun record => (Builtin.find? record.name).isNone

end Instruction

theorem CodeUnit.sparesBuiltins_of_levels {u : CodeUnit} {n : Nat}
    (h : Instruction.everyLevel Instruction.sparesBuiltins n u.code = true) : u.SparesBuiltins := by
  intro scope c hc i hi _ record hrecord
  have hlist := List.all_eq_true.1 (hc.passes h) i hi
  rw [hrecord] at hlist
  exact Option.isNone_iff_eq_none.1 hlist

/-- A unit with a function that stands in another one. It reads a line, prints it and a pointer, and
then divides by zero. -/
def stumblingUnit : CodeUnit where
  name := "stumbling"
  code :=
    let inner := (Encoding.code [.call (.func "io.println")]).toOption.getD []
    let outer := (Encoding.code [.function ⟨"inner", [], .none, inner⟩]).toOption.getD []
    [.function ⟨"outer", [], .none, outer⟩, .var .ptr "a", .alloc .i64 2 (.cell "a"),
      .call (.func "outer"), .call (.func "io.input"), .call (.func "inner"), .push (.cell "a"),
      .push (.cell "a"), .call (.func "inner"), .arith .div (.imm 1) (.imm 0) (.cell "a")]

/-- The input has the line twice. The second run fails like the first one, though the function in the
function is known from the start. -/
theorem stumbling_repeats :
    let console : Console := { input := "hi\nhi\n" }
    let first := runWithin 20 {} stumblingUnit (ofUnit stumblingUnit (some console))
    let second := runWithin 20 {} stumblingUnit first.2
    first.1.root?.map RunError.message = some "division by zero" ∧
      first.2.output.toList = Bytes.ofString "hi\n<ptr +0 of 2>\n" ∧ first.2.stack = [.ptr 0 0] ∧
      first.2.functions.contains "inner" = true ∧
      Reenacts (ofUnit stumblingUnit (some console)) first first.2 second := by
  intro console first second
  have hspares : stumblingUnit.SparesBuiltins :=
    CodeUnit.sparesBuiltins_of_levels (n := 3) (by decide +kernel)
  have hagain : Replays 20 {} stumblingUnit (some console) first.2 := by
    apply Replays.new.carry
    have hinput : first.2.console.map Console.input = some (Bytes.ofString "hi\n") := by decide +kernel
    obtain ⟨c, hc, hinput⟩ := Option.map_eq_some_iff.1 hinput
    rw [hc]
    refine .some fun n hn => ?_
    cases n with
    | zero =>
      simp only [Console.after, Console.readLine, hinput]
      rfl
    | succ n =>
      -- the second line is not read in the first run
      have hle := console.readLine.2.length_after_le n
      have hleft : console.readLine.2.input.length = 3 := by decide +kernel
      simp only [Console.unread, hinput, Console.after] at hn
      change 3 < _ ∨ 3 = 0 at hn
      omega
  exact ⟨by decide +kernel, by decide +kernel, by decide +kernel, by decide +kernel,
    CodeUnit.runs_repeat hspares hagain⟩

end UnitScript
