import UnitScript.Machine.Step
import UnitScript.Proofs.NameMap

/-!
# Values at another place in the heap

A machine that has allocated before numbers its new blocks behind the old ones. Pointers into the new
blocks are then moved along by the number of the old ones, and nothing that a program can observe tells
them apart: neither comparisons nor printed texts, nor what is read and written through them, nor the
faults. A console that has been printed on before does not answer in another way either.
-/

namespace UnitScript

namespace NameMap

variable {α β : Type}

def map (f : α → β) (m : NameMap α) : NameMap β :=
  ⟨m.entries.map fun e => (e.1, f e.2), List.pairwise_map.2 m.sorted⟩

theorem findEntry_map (f : α → β) (k : Name) (es : List (Name × α)) :
    findEntry k (es.map fun e => (e.1, f e.2)) = (findEntry k es).map f := by
  induction es with
  | nil => rfl
  | cons e rest ih =>
    rw [List.map_cons, findEntry, findEntry, ih]
    split <;> rfl

@[simp] theorem get?_map (f : α → β) (m : NameMap α) (k : Name) :
    (m.map f).get? k = (m.get? k).map f :=
  findEntry_map f k m.entries

@[simp] theorem contains_map (f : α → β) (m : NameMap α) (k : Name) :
    (m.map f).contains k = m.contains k := by
  simp [contains]

theorem map_insert (f : α → β) (m : NameMap α) (k : Name) (v : α) :
    (m.insert k v).map f = (m.map f).insert k (f v) := by
  refine ext_get? fun j => ?_
  simp only [get?_map, get?_insert]
  split <;> rfl

end NameMap

namespace Value

def shift (k : Nat) : Value → Value
  | ptr block offset => ptr (k + block) offset
  | v => v

variable {k : Nat}

theorem move_shift (v : Value) (n : Int64) : (v.shift k).move n = (v.move n).shift k := by
  cases v <;> rfl

@[simp] theorem same_shift (a b : Value) : (a.shift k).same (b.shift k) = a.same b := by
  cases a <;> cases b <;> simp [shift, same]

end Value

namespace Heap

def above (old h : Heap) : Heap := old ++ h.map fun cells => cells.map (Value.shift old.size)

variable (old h : Heap)

@[simp] theorem size_above : (old.above h).size = old.size + h.size := by
  unfold above
  rw [Array.size_append, Array.size_map]

theorem getElem?_above (block : Nat) : (old.above h)[old.size + block]? =
    h[block]?.map fun cells => cells.map (Value.shift old.size) := by
  unfold above
  rw [Array.getElem?_append_right (Nat.le_add_right _ _), Nat.add_sub_cancel_left,
    Array.getElem?_map]

theorem getElem?_above_of_lt {block : Nat} (hb : block < old.size) :
    (old.above h)[block]? = old[block]? :=
  Array.getElem?_append_left hb

theorem above_empty : old.above #[] = old := by
  simp [above]

@[simp] theorem blockSize_above (block : Nat) :
    (old.above h).blockSize (old.size + block) = h.blockSize block := by
  unfold blockSize
  rw [getElem?_above]
  cases h[block]? with
  | none => rfl
  | some cells => exact Array.size_map

theorem alloc_above (n : Nat) :
    (old.above h).alloc n = (old.above (h.alloc n).1, (h.alloc n).2.shift old.size) := by
  simp only [alloc, Value.shift, size_above]
  rw [above, above, Array.map_push, Array.map_replicate, Array.append_push]
  rfl

theorem set_above (block index : Nat) (v : Value) :
    (old.above h).set (old.size + block) index (v.shift old.size) =
      old.above (h.set block index v) := by
  apply Array.ext_getElem?
  intro j
  simp only [set, Array.getElem?_modify]
  by_cases hj : j < old.size
  · rw [if_neg (by omega), getElem?_above_of_lt old _ hj, getElem?_above_of_lt old _ hj]
  · obtain ⟨b, rfl⟩ : ∃ b, j = old.size + b := ⟨j - old.size, by omega⟩
    rw [getElem?_above, getElem?_above, Array.getElem?_modify]
    by_cases hb : block = b
    · rw [if_pos (by omega), if_pos hb]
      cases h[b]? with
      | none => rfl
      | some cells => simp [Array.map_setIfInBounds]
    · rw [if_neg (by omega), if_neg hb]

end Heap

namespace Value

variable (old h : Heap) (v : Value)

@[simp] theorem text_above : (v.shift old.size).text (old.above h) = v.text h := by
  cases v with
  | ptr block offset => simp only [shift, text, Heap.blockSize_above]
  | null | int | nowhere | string | func | invalid => rfl

theorem address_above : (v.shift old.size).address (old.above h) =
    (v.address h).map fun p => (old.size + p.1, p.2) := by
  cases v with
  | ptr block offset =>
    simp only [shift, address, Heap.blockSize_above]
    split <;> rfl
  | null | int | nowhere | string | func | invalid => rfl

end Value

theorem Heap.read_above (old h : Heap) (v : Value) :
    (old.above h).read (v.shift old.size) = (h.read v).map (Value.shift old.size) := by
  unfold read
  rw [Value.address_above]
  cases v.address h with
  | error e => rfl
  | ok p =>
    simp only [Except.map, getElem?_above]
    cases h[p.1]? with
    | none => rfl
    | some cells =>
      simp only [Option.map_some, Option.getD_some, Array.getElem?_map]
      cases cells[p.2]? <;> rfl

namespace Machine

variable {k : Nat}

theorem arith_shift (op : Opcode) (a b : Value) :
    arith op (a.shift k) (b.shift k) = (arith op a b).map (Value.shift k) := by
  cases op with
  | div =>
    cases a with
    | int x =>
      cases b with
      | int y =>
        simp only [Value.shift, arith]
        split <;> rfl
      | null | ptr | nowhere | string | func | invalid => rfl
    | null | ptr | nowhere | string | func | invalid => cases b <;> rfl
  | _ => cases a <;> cases b <;> rfl

theorem compare_shift (r : Relation) (a b : Value) :
    compare r (a.shift k) (b.shift k) = compare r a b := by
  unfold compare
  rw [Value.same_shift]
  cases a <;> cases b <;> rfl

theorem zero_shift (s : Storage) : (zero s).shift k = zero s := by
  unfold zero
  split <;> rfl

end Machine

/-! ## Consoles and builtins -/

namespace Console

variable {c c' : Console} {rest : Nat} {printed shown : Array UInt8}

def after (c : Console) : Nat → Console
  | 0 => c
  | n + 1 => c.readLine.2.after n

/-- The reads are answered in the same way until no more than `rest` bytes of the first input are
left, and all of them if `rest` is zero. -/
def Alike (rest : Nat) (c c' : Console) : Prop :=
  ∀ n, rest < (c.after n).input.length ∨ rest = 0 →
    (c'.after n).readLine.1 = (c.after n).readLine.1

theorem Alike.readLine (h : Alike rest c c') : Alike rest c.readLine.2 c'.readLine.2 :=
  fun n hn => h (n + 1) hn

theorem length_of_cutLine? {s line more : Bytes} (h : cutLine? s = some (line, more)) :
    more.length < s.length := by
  induction s generalizing line more with
  | nil => cases h
  | cons b s ih =>
    rw [cutLine?] at h
    split at h
    · cases h
      exact Nat.lt_succ_self _
    · obtain ⟨⟨line', more'⟩, hcut, heq⟩ := Option.map_eq_some_iff.1 h
      cases heq
      exact Nat.lt_succ_of_lt (ih hcut)

theorem length_readLine (c : Console) :
    c.readLine.2.input.length < c.input.length ∨ c.readLine.2.input = [] := by
  unfold readLine
  cases hcut : cutLine? c.input with
  | some p => exact .inl (length_of_cutLine? hcut)
  | none => cases c.failure <;> exact .inr rfl

theorem length_readLine_le (c : Console) : c.readLine.2.input.length ≤ c.input.length := by
  rcases c.length_readLine with hlt | hnil
  · exact Nat.le_of_lt hlt
  · rw [hnil]
    exact Nat.zero_le _

theorem length_after_le (c : Console) (n : Nat) : (c.after n).input.length ≤ c.input.length := by
  induction n generalizing c with
  | zero => exact Nat.le_refl _
  | succ n ih => exact Nat.le_trans (ih c.readLine.2) c.length_readLine_le

theorem readLine_withOutput (c : Console) (output : Array UInt8) :
    { c with output := output }.readLine =
      (c.readLine.1, { c.readLine.2 with output := output }) := by
  unfold readLine
  cases cutLine? c.input with
  | some p => rfl
  | none => cases c.failure <;> rfl

theorem after_withOutput (c : Console) (output : Array UInt8) (n : Nat) :
    { c with output := output }.after n = { c.after n with output := output } := by
  induction n generalizing c with
  | zero => rfl
  | succ n ih =>
    simp only [after]
    rw [readLine_withOutput c output]
    exact ih c.readLine.2

theorem Alike.withOutput (h : Alike rest c c') (output output' : Array UInt8) :
    Alike rest { c with output := output } { c' with output := output' } := by
  intro n hn
  rw [after_withOutput c output] at hn ⊢
  rw [after_withOutput c' output', readLine_withOutput (c.after n) output,
    readLine_withOutput (c'.after n) output']
  exact h n hn

/-- The second console answers like the first one. Where `printed` was shown on the first, `shown` was
shown on the second, and then the same on both. -/
structure Resumes (rest : Nat) (printed shown : Array UInt8) (c c' : Console) : Prop where
  reads : Alike rest c c'
  output : ∃ text, c.output = printed ++ text ∧ c'.output = shown ++ text

theorem output_readLine (c : Console) : c.readLine.2.output = c.output := by
  unfold readLine
  cases cutLine? c.input with
  | some p => rfl
  | none => cases c.failure <;> rfl

theorem Resumes.readLine (h : Resumes rest printed shown c c') :
    Resumes rest printed shown c.readLine.2 c'.readLine.2 := by
  refine ⟨h.reads.readLine, ?_⟩
  rw [output_readLine, output_readLine]
  exact h.output

theorem Resumes.print (h : Resumes rest printed shown c c') (text : Bytes) :
    Resumes rest printed shown (c.print text) (c'.print text) := by
  obtain ⟨before, hc, hc'⟩ := h.output
  refine ⟨h.reads.withOutput _ _, before ++ text, ?_, ?_⟩
  · simp only [Console.print]
    rw [hc]
    exact Array.ext' (by simp)
  · simp only [Console.print]
    rw [hc']
    exact Array.ext' (by simp)

def unread : Option Console → Nat
  | none => 0
  | some c => c.input.length

end Console

namespace Builtin

variable {rest k : Nat} {printed shown : Array UInt8} {console console' : Option Console}

theorem printText_resumed (hc : Option.Rel (Console.Resumes rest printed shown) console console')
    (text : Bytes) :
    (printText console' text).1 = (printText console text).1.map (Value.shift k) ∧
      Option.Rel (Console.Resumes rest printed shown) (printText console text).2
        (printText console' text).2 := by
  cases hc with
  | none => exact ⟨rfl, .none⟩
  | some hc => exact ⟨rfl, .some (hc.print text)⟩

/-- A read is answered in the same way, or it is one that leaves less than `rest` bytes. -/
theorem readLine_resumed (hc : Option.Rel (Console.Resumes rest printed shown) console console') :
    Console.unread (readLine console).2 < rest ∨
      (readLine console').1 = (readLine console).1.map (Value.shift k) ∧
        Option.Rel (Console.Resumes rest printed shown) (readLine console).2
          (readLine console').2 := by
  cases hc with
  | none => exact .inr ⟨rfl, .none⟩
  | @some c c' hc =>
    have hrest := hc.readLine
    have hanswer := hc.reads 0
    have hless := c.length_readLine
    simp only [Console.after] at hanswer
    simp only [readLine]
    cases hr : c.readLine with
    | mk r c₁ =>
      cases hr' : c'.readLine with
      | mk r' c₁' =>
        rw [hr, hr'] at hanswer hrest
        rw [hr] at hless
        by_cases hasked : rest < c.input.length ∨ rest = 0
        · obtain rfl : r' = r := hanswer hasked
          right
          cases r' with
          | ok line => exact ⟨rfl, .some hrest⟩
          | error text => exact ⟨rfl, .some hrest⟩
        · have hbeyond : c₁.input.length < rest := by
            rcases hless with hlt | hnil
            · have hlt : c₁.input.length < c.input.length := hlt
              omega
            · rw [hnil, List.length_nil]
              omega
          left
          cases r <;> exact hbeyond

theorem length_shift (v : Value) : length (v.shift k) = (length v).map (Value.shift k) := by
  cases v <;> rfl

theorem equalStrings_shift (v w : Value) :
    equalStrings (v.shift k) (w.shift k) = (equalStrings v w).map (Value.shift k) := by
  cases v <;> cases w <;> rfl

theorem onOne_shift (b : Builtin) (f : Int64 → Int64) (args : List Value) :
    b.onOne f (args.map (Value.shift k)) = (b.onOne f args).map (Value.shift k) := by
  match args with
  | [v] => cases v <;> rfl
  | [] => rfl
  | _ :: _ :: _ => simp [onOne, Except.map]

theorem onTwo_shift (b : Builtin) (f : Int64 → Int64 → Int64) (args : List Value) :
    b.onTwo f (args.map (Value.shift k)) = (b.onTwo f args).map (Value.shift k) := by
  match args with
  | [v, w] => cases v <;> cases w <;> rfl
  | [] => rfl
  | [v] => cases v <;> rfl
  | _ :: _ :: _ :: _ => simp [onTwo, Except.map]

/-- What a builtin does with the values of a later run. -/
theorem apply_resumed (b : Builtin) (old h : Heap) (args : List Value)
    (hc : Option.Rel (Console.Resumes rest printed shown) console console') :
    Console.unread (b.apply h args console).2 < rest ∨
      (b.apply (old.above h) (args.map (Value.shift old.size)) console').1 =
          (b.apply h args console).1.map (Value.shift old.size) ∧
        Option.Rel (Console.Resumes rest printed shown) (b.apply h args console).2
          (b.apply (old.above h) (args.map (Value.shift old.size)) console').2 := by
  cases b with
  | print | println =>
    right
    match args with
    | [v] =>
      simp only [List.map_cons, List.map_nil, apply, Value.text_above]
      exact printText_resumed hc _
    | [] | _ :: _ :: _ => simpa [apply, Except.map] using hc
  | input =>
    match args with
    | [] => exact readLine_resumed hc
    | _ :: _ => exact .inr (by simpa [apply, Except.map] using hc)
  | strLen =>
    right
    match args with
    | [v] => exact ⟨length_shift v, hc⟩
    | [] | _ :: _ :: _ => simpa [apply, Except.map] using hc
  | strConcat =>
    right
    match args with
    | [v, w] =>
      simp only [List.map_cons, List.map_nil, apply, Value.text_above]
      exact ⟨rfl, hc⟩
    | [] | [_] | _ :: _ :: _ :: _ => simpa [apply, Except.map] using hc
  | strEq =>
    right
    match args with
    | [v, w] => exact ⟨equalStrings_shift v w, hc⟩
    | [] | [_] | _ :: _ :: _ :: _ => simpa [apply, Except.map] using hc
  | mathMax | mathMin => exact .inr ⟨onTwo_shift _ _ args, hc⟩
  | mathAbs => exact .inr ⟨onOne_shift _ _ args, hc⟩

theorem unread_apply_le (b : Builtin) (h : Heap) (args : List Value) (console : Option Console) :
    Console.unread (b.apply h args console).2 ≤ Console.unread console := by
  have hprint : ∀ text, Console.unread (printText console text).2 ≤ Console.unread console := by
    intro text
    cases console <;> exact Nat.le_refl _
  have hread : Console.unread (readLine console).2 ≤ Console.unread console := by
    cases console with
    | none => exact Nat.le_refl _
    | some c =>
      have hle := c.length_readLine_le
      simp only [readLine]
      cases hr : c.readLine with
      | mk r c₁ =>
        rw [hr] at hle
        cases r <;> exact hle
  unfold apply
  split
  · exact hprint _
  · exact hprint _
  · exact hread
  all_goals exact Nat.le_refl _

end Builtin

end UnitScript
