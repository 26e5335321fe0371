import UnitScript.Proofs.Hazard.Trace

/-!
# Escaped names are reported exactly

A use is reported as escaped when its name comes neither with the prelude nor from a declaration in an
open block, but from one in a block that has been left, unless the name has been reported before. The
walk decides this with a list of closed names that changes as names are redeclared, left again and
reported; the proof reads that list off the events, since a walk never forgets a declaration.

Leaving a block looks at its names one after another. The order makes no difference: the walks that
visit them in any order find the same hazards.
-/

namespace UnitScript

namespace Escape

/-- The use behind the events is reported as escaped. -/
def Reports (prelude : Prelude) (before : List Event) (functions : List Name) (u : Use) : Prop :=
  ((Walk.start.run prelude before).use prelude functions u).found =
    .escaped u.name u.pos :: (Walk.start.run prelude before).found

instance (prelude : Prelude) (before : List Event) (functions : List Name) (u : Use) :
    Decidable (Reports prelude before functions u) :=
  inferInstanceAs (Decidable (_ = _))

namespace Walk

variable {prelude : Prelude} {functions : List Name} {w v : Walk} {name : Name}

/-! ## What a use adds -/

theorem found_use_eq_escaped_iff {u : Use} :
    (w.use prelude functions u).found = .escaped u.name u.pos :: w.found ↔
      w.isOpen u.name = false ∧ prelude.contains u.name = false ∧ u.name ∉ w.reported ∧
        u.name ∈ w.closed := by
  have hgrows : ∀ h : Hazard, w.found ≠ h :: w.found := fun h heq =>
    absurd (congrArg List.length heq) (by simp)
  unfold use
  split
  · next hknown =>
    simp only [Bool.or_eq_true, decide_eq_true_eq] at hknown
    exact iff_of_false (hgrows _) (by grind)
  · next hunknown =>
    simp only [Bool.or_eq_true, decide_eq_true_eq, not_or, Bool.not_eq_true] at hunknown
    obtain ⟨⟨hopen, hprelude⟩, hreported⟩ := hunknown
    split
    · next hclosed => exact iff_of_true rfl ⟨hopen, hprelude, hreported, hclosed⟩
    · next hclosed =>
      refine iff_of_false ?_ fun h => hclosed h.2.2.2
      split
      · simp [Hazard.escaped, Hazard.self]
      · exact hgrows _

/-- A use reports its name for the first time, or it leaves the reported names alone and adds at most
a self call. -/
theorem use_cases (prelude : Prelude) (functions : List Name) (w : Walk) (u : Use) :
    ((w.use prelude functions u).found = .escaped u.name u.pos :: w.found ∧
      (w.use prelude functions u).reported = u.name :: w.reported ∧ u.name ∉ w.reported) ∨
    ((w.use prelude functions u).reported = w.reported ∧
      ((w.use prelude functions u).found = w.found ∨
        (w.use prelude functions u).found = .self u.name u.pos :: w.found)) := by
  unfold use
  split
  · exact .inr ⟨rfl, .inl rfl⟩
  · next hunknown =>
    simp only [Bool.or_eq_true, decide_eq_true_eq, not_or] at hunknown
    split
    · exact .inl ⟨rfl, rfl, hunknown.2⟩
    · split
      · exact .inr ⟨rfl, .inr rfl⟩
      · exact .inr ⟨rfl, .inl rfl⟩

@[simp] theorem reported_leave : w.leave.reported = w.reported := by
  unfold leave
  split <;> rfl

/-- The escaped names among the hazards, latest first. -/
def escapedNames (w : Walk) : List Name :=
  (w.found.filter fun h => h.kind = .escapedName).map (·.name)

theorem escapedNames_step (e : Event) (h : w.escapedNames = w.reported) :
    (w.step prelude e).escapedNames = (w.step prelude e).reported := by
  cases e with
  | enter => exact h
  | leave => simpa [escapedNames, step] using h
  | declare declared => exact h
  | use functions u =>
    unfold escapedNames at h ⊢
    rw [step]
    obtain ⟨hfound, hreported, -⟩ | ⟨hreported, hfound | hfound⟩ := use_cases prelude functions w u
    · simp [hfound, hreported, Hazard.escaped, h]
    · rw [hfound, hreported, h]
    · simp [hfound, hreported, Hazard.self, h]

theorem reported_nodup_step (e : Event) (h : w.reported.Nodup) :
    (w.step prelude e).reported.Nodup := by
  cases e with
  | enter => exact h
  | leave => simpa [step] using h
  | declare declared => exact h
  | use functions u =>
    rw [step]
    obtain ⟨-, hreported, hfresh⟩ | ⟨hreported, -⟩ := use_cases prelude functions w u
    · rw [hreported]
      exact List.nodup_cons.mpr ⟨hfresh, h⟩
    · rw [hreported]
      exact h

theorem mem_found_step (e : Event) {h : Hazard} (hkind : h.kind = .escapedName) :
    h ∈ (w.step prelude e).found ↔ h ∈ w.found ∨
      ∃ functions u, e = .use functions u ∧ h = .escaped u.name u.pos ∧
        (w.use prelude functions u).found = .escaped u.name u.pos :: w.found := by
  cases e with
  | enter => simp [step]
  | leave => simp [step]
  | declare declared => simp [step]
  | use functions u =>
    have hgrows : ∀ h : Hazard, w.found ≠ h :: w.found := fun h heq =>
      absurd (congrArg List.length heq) (by simp)
    rw [step]
    obtain ⟨hfound, -⟩ | ⟨-, hfound | hfound⟩ := use_cases prelude functions w u
    · rw [hfound, List.mem_cons]
      grind
    · rw [hfound]
      grind
    · rw [hfound, List.mem_cons]
      have hself : h ≠ .self u.name u.pos := by
        rintro rfl
        cases hkind
      have hescaped : Hazard.self u.name u.pos ≠ .escaped u.name u.pos := by
        simp [Hazard.escaped, Hazard.self]
      grind

/-! ## What a run reports -/

theorem escapedNames_run (prelude : Prelude) (es : List Event) :
    (start.run prelude es).escapedNames = (start.run prelude es).reported := by
  induction es using List.reverseRecOn with
  | nil => rfl
  | append_singleton es e ih =>
    rw [run_concat]
    exact escapedNames_step e ih

theorem reported_nodup_run (prelude : Prelude) (es : List Event) :
    (start.run prelude es).reported.Nodup := by
  induction es using List.reverseRecOn with
  | nil => exact List.nodup_nil
  | append_singleton es e ih =>
    rw [run_concat]
    exact reported_nodup_step e ih

theorem mem_found_run (prelude : Prelude) (es : List Event) {h : Hazard}
    (hkind : h.kind = .escapedName) :
    h ∈ (start.run prelude es).found ↔
      ∃ before functions u after, es = before ++ .use functions u :: after ∧
        Reports prelude before functions u ∧ h = .escaped u.name u.pos := by
  induction es using List.reverseRecOn with
  | nil => simp [run, start]
  | append_singleton es e ih =>
    rw [run_concat, mem_found_step e hkind, ih]
    constructor
    · rintro (⟨before, functions, u, after, rfl, hreports, hh⟩ | ⟨functions, u, rfl, hh, hreports⟩)
      · exact ⟨before, functions, u, after ++ [e], by simp, hreports, hh⟩
      · exact ⟨es, functions, u, [], rfl, hreports, hh⟩
    · rintro ⟨before, functions, u, after, hes, hreports, hh⟩
      obtain ⟨rfl, he, -⟩ | ⟨front, -, hes⟩ := concat_eq_append_cons_iff.mp hes
      · exact .inr ⟨functions, u, he.symm, hh, hreports⟩
      · exact .inl ⟨before, functions, u, front, hes, hreports, hh⟩

theorem kind_of_mem_found_run (prelude : Prelude) (es : List Event) {h : Hazard}
    (hmem : h ∈ (start.run prelude es).found) : h.kind ≠ .capturedLocal := by
  induction es using List.reverseRecOn with
  | nil => cases hmem
  | append_singleton es e ih =>
    rw [run_concat] at hmem
    cases e with
    | enter => exact ih hmem
    | leave => exact ih (by simpa [step] using hmem)
    | declare declared => exact ih hmem
    | use functions u =>
      rw [step] at hmem
      obtain ⟨hfound, -⟩ | ⟨-, hfound | hfound⟩ := use_cases prelude functions (start.run prelude es) u
      · rw [hfound, List.mem_cons] at hmem
        obtain rfl | hmem := hmem
        · simp [Hazard.escaped]
        · exact ih hmem
      · exact ih (hfound ▸ hmem)
      · rw [hfound, List.mem_cons] at hmem
        obtain rfl | hmem := hmem
        · simp [Hazard.self]
        · exact ih hmem

theorem mem_reported_run (prelude : Prelude) (name : Name) (es : List Event) :
    name ∈ (start.run prelude es).reported ↔
      ∃ before functions u after, es = before ++ .use functions u :: after ∧ u.name = name ∧
        Reports prelude before functions u := by
  rw [← escapedNames_run, escapedNames, List.mem_map]
  constructor
  · rintro ⟨h, hmem, rfl⟩
    obtain ⟨hfound, hkind⟩ := List.mem_filter.mp hmem
    obtain ⟨before, functions, u, after, hes, hreports, rfl⟩ :=
      (mem_found_run prelude es (of_decide_eq_true hkind)).mp hfound
    exact ⟨before, functions, u, after, hes, rfl, hreports⟩
  · rintro ⟨before, functions, u, after, hes, rfl, hreports⟩
    refine ⟨.escaped u.name u.pos, List.mem_filter.mpr ⟨?_, rfl⟩, rfl⟩
    exact (mem_found_run prelude es rfl).mpr ⟨before, functions, u, after, hes, hreports, rfl⟩

/-! ## Leaving a block in any order -/

/-- A name of a block that has just been left. -/
def close (w : Walk) (name : Name) : Walk :=
  if w.isOpen name then w else { w with closed := name :: w.closed }

/-- Leave the innermost block and visit its names in the given order. -/
def leaveInOrder (w : Walk) (order : List Name) : Walk :=
  order.foldl close { w with blocks := w.blocks.tail }

/-- A step of a walk that may visit the names of a closing block in any order. -/
inductive Steps (prelude : Prelude) : Walk → Event → Walk → Prop
  | enter (w : Walk) : Steps prelude w .enter w.enter
  | leave (w : Walk) (order : List Name) : (∀ x, x ∈ order ↔ x ∈ w.blocks.headD []) →
    Steps prelude w .leave (w.leaveInOrder order)
  | declare (w : Walk) (x : Name) : Steps prelude w (.declare x) (w.declare x)
  | use (w : Walk) (inside : List Name) (u : Use) :
    Steps prelude w (.use inside u) (w.use prelude inside u)

inductive Runs (prelude : Prelude) : Walk → List Event → Walk → Prop
  | nil (w : Walk) : Runs prelude w [] w
  | cons {w next last : Walk} {e : Event} {es : List Event} : Steps prelude w e next →
    Runs prelude next es last → Runs prelude w (e :: es) last

/-- The walks differ at most in the order and the repetitions of their closed names. -/
structure Alike (w v : Walk) : Prop where
  blocks : w.blocks = v.blocks
  closed : ∀ name, name ∈ w.closed ↔ name ∈ v.closed
  reported : w.reported = v.reported
  found : w.found = v.found

theorem Alike.isOpen (h : Alike w v) (name : Name) : w.isOpen name = v.isOpen name := by
  rw [Walk.isOpen, h.blocks, Walk.isOpen]

theorem mem_closed_foldl_close (name : Name) (order : List Name) (w : Walk) :
    name ∈ (order.foldl close w).closed ↔
      (name ∈ order ∧ w.isOpen name = false) ∨ name ∈ w.closed := by
  induction order generalizing w with
  | nil => simp
  | cons first rest ih =>
    have hopen : (w.close first).isOpen name = w.isOpen name := by
      unfold close
      split <;> rfl
    rw [List.foldl_cons, ih, hopen, List.mem_cons]
    unfold close
    split
    · grind
    · grind

theorem foldl_close_same (order : List Name) (w : Walk) :
    (order.foldl close w).blocks = w.blocks ∧ (order.foldl close w).reported = w.reported ∧
      (order.foldl close w).found = w.found := by
  induction order generalizing w with
  | nil => exact ⟨rfl, rfl, rfl⟩
  | cons first rest ih =>
    have hclose : (w.close first).blocks = w.blocks ∧ (w.close first).reported = w.reported ∧
        (w.close first).found = w.found := by
      unfold close
      split <;> exact ⟨rfl, rfl, rfl⟩
    obtain ⟨hblocks, hreported, hfound⟩ := ih (w.close first)
    exact ⟨hblocks.trans hclose.1, hreported.trans hclose.2.1, hfound.trans hclose.2.2⟩

/-- The closed names do not depend on the order, since what is open does not change meanwhile. -/
theorem Alike.leave {order : List Name} (h : Alike w v)
    (horder : ∀ name, name ∈ order ↔ name ∈ w.blocks.headD []) :
    Alike (w.leaveInOrder order) v.leave := by
  obtain ⟨hblocks, hreported, hfound⟩ := foldl_close_same order { w with blocks := w.blocks.tail }
  have hclosed := fun name => mem_closed_foldl_close name order { w with blocks := w.blocks.tail }
  cases hv : v.blocks with
  | nil =>
    have hleave : v.leave = v := by
      unfold Walk.leave
      rw [hv]
    rw [hleave]
    have hw : w.blocks = [] := h.blocks.trans hv
    refine ⟨?_, fun name => ?_, hreported.trans h.reported, hfound.trans h.found⟩
    · rw [leaveInOrder, hblocks, hw, hv]
      rfl
    · rw [leaveInOrder, hclosed, horder, hw, ← h.closed]
      simp
  | cons block outer =>
    have hleave : v.leave = { v with
        blocks := outer
        closed := block.filter (fun name => !({ v with blocks := outer } : Walk).isOpen name) ++
          v.closed } := by
      unfold Walk.leave
      rw [hv]
    rw [hleave]
    have hw : w.blocks = block :: outer := h.blocks.trans hv
    refine ⟨?_, fun name => ?_, hreported.trans h.reported, hfound.trans h.found⟩
    · rw [leaveInOrder, hblocks, hw]
      rfl
    · rw [leaveInOrder, hclosed, horder, hw, List.mem_append, List.mem_filter, ← h.closed]
      simp [Walk.isOpen]

theorem Alike.use (h : Alike w v) (functions : List Name) (u : Use) :
    Alike (w.use prelude functions u) (v.use prelude functions u) := by
  have hopen := h.isOpen u.name
  have hclosed := h.closed u.name
  unfold Walk.use
  rw [hopen, h.reported]
  split
  · exact h
  · by_cases hin : u.name ∈ v.closed
    · rw [if_pos (hclosed.mpr hin), if_pos hin]
      exact ⟨h.blocks, fun name => by simp [h.closed name], rfl, by rw [h.found]⟩
    · rw [if_neg fun h => hin (hclosed.mp h), if_neg hin]
      split
      · exact ⟨h.blocks, h.closed, rfl, by rw [h.found]⟩
      · exact h

theorem Alike.step {next : Walk} {e : Event} (h : Alike w v) (hstep : Steps prelude w e next) :
    Alike next (v.step prelude e) := by
  cases hstep with
  | enter => exact ⟨congrArg ([] :: ·) h.blocks, h.closed, h.reported, h.found⟩
  | leave order horder => exact h.leave horder
  | declare name =>
    refine ⟨?_, fun other => ?_, h.reported, h.found⟩
    · rw [Walk.step, Walk.declare, Walk.declare, h.blocks]
    · simp [Walk.step, Walk.declare, h.closed other]
  | use functions u => exact h.use functions u

theorem Alike.run {last : Walk} {es : List Event} (h : Alike w v) (hruns : Runs prelude w es last) :
    Alike last (v.run prelude es) := by
  induction hruns generalizing v with
  | nil => exact h
  | cons hstep _ ih => exact ih (h.step hstep)

theorem exists_steps (prelude : Prelude) (w : Walk) (e : Event) : ∃ next, Steps prelude w e next := by
  cases e with
  | enter => exact ⟨_, .enter w⟩
  | leave => exact ⟨_, .leave w (w.blocks.headD []) fun _ => Iff.rfl⟩
  | declare name => exact ⟨_, .declare w name⟩
  | use functions u => exact ⟨_, .use w functions u⟩

theorem exists_runs (prelude : Prelude) (w : Walk) (es : List Event) :
    ∃ last, Runs prelude w es last := by
  induction es generalizing w with
  | nil => exact ⟨w, .nil w⟩
  | cons e rest ih =>
    obtain ⟨next, hstep⟩ := exists_steps prelude w e
    obtain ⟨last, hruns⟩ := ih next
    exact ⟨last, .cons hstep hruns⟩

theorem Runs.found_eq {last : Walk} {es : List Event} (hruns : Runs prelude start es last) :
    last.found = (start.run prelude es).found := by
  have hsame : Alike start start := ⟨rfl, fun _ => Iff.rfl, rfl, rfl⟩
  exact (hsame.run hruns).found

end Walk

variable {prelude : Prelude}

theorem reports_iff (before : List Event) (functions : List Name) (u : Use) :
    Reports prelude before functions u ↔
      prelude.contains u.name = false ∧ ¬InOpenBlock before u.name ∧ InClosedBlock before u.name ∧
        ∀ front inside v back, before = front ++ .use inside v :: back → v.name = u.name →
          ¬Reports prelude front inside v := by
  have hopen := Walk.isOpen_run prelude u.name before
  have hreported := Walk.mem_reported_run prelude u.name before
  -- a name that is closed, open or reported has been declared
  have hknows := Walk.knows_run prelude .start u.name before
  rw [Walk.knows_start, declare_mem_iff, Walk.Knows] at hknows
  rw [Reports, Walk.found_use_eq_escaped_iff, ← Bool.not_eq_true, hopen, hreported]
  rw [hopen, hreported] at hknows
  constructor
  · rintro ⟨hshut, hprelude, hfresh, hclosed⟩
    refine ⟨hprelude, hshut, ?_, fun front inside v back hbefore hname hreports =>
      hfresh ⟨front, inside, v, back, hbefore, hname, hreports⟩⟩
    obtain (hin | hin) | hin := hknows.mp (.inr (.inr (.inr hclosed)))
    · exact absurd hin hshut
    · exact hin
    · simp [hprelude] at hin
  · rintro ⟨hprelude, hshut, hleft, hnone⟩
    have hfresh : ¬∃ front inside v back, before = front ++ .use inside v :: back ∧ v.name = u.name ∧
        Reports prelude front inside v := by
      rintro ⟨front, inside, v, back, hbefore, hname, hreports⟩
      exact hnone front inside v back hbefore hname hreports
    refine ⟨hshut, hprelude, hfresh, ?_⟩
    obtain hin | hin | hin | hin := hknows.mpr (.inl (.inr hleft))
    · exact absurd hin hshut
    · simp [hprelude] at hin
    · exact absurd hin hfresh
    · exact hin

end Escape

namespace HazardReport

variable {prelude : Prelude} {body : List Node}

theorem mem_hazards_escaped_iff {h : Hazard} (hkind : h.kind = .escapedName) :
    h ∈ (ofProgram prelude body).hazards ↔ h ∈ Escape.hazards prelude body := by
  rw [ofProgram, List.mem_mergeSort, List.mem_append, or_iff_right_iff_imp, List.mem_flatMap]
  rintro ⟨info, -, hcaptured⟩
  obtain ⟨capture, -, rfl⟩ := List.mem_map.mp hcaptured
  cases hkind

theorem kind_of_mem_hazards {body : List Node} {h : Hazard}
    (hmem : h ∈ (FunctionInfo.ofProgram body).flatMap FunctionInfo.hazards) :
    h.kind = .capturedLocal := by
  obtain ⟨info, -, hinfo⟩ := List.mem_flatMap.mp hmem
  obtain ⟨capture, -, rfl⟩ := List.mem_map.mp hinfo
  rfl

/-- Captures are no escapes, so that the escaped names are those that the walk has reported. -/
theorem escapedNames_perm (prelude : Prelude) (body : List Node) :
    (((ofProgram prelude body).hazards.filter fun h => h.kind = .escapedName).map (·.name)).Perm
      (Escape.Walk.start.run prelude (Escape.eventsAll [] body)).reported := by
  have hcaptured : ((FunctionInfo.ofProgram body).flatMap FunctionInfo.hazards).filter
      (fun h => h.kind = .escapedName) = [] :=
    List.filter_eq_nil_iff.mpr fun h hmem => by simp [kind_of_mem_hazards hmem]
  rw [← Escape.Walk.escapedNames_run]
  refine (((List.mergeSort_perm _ _).filter _).map _).trans ?_
  rw [List.filter_append, hcaptured, List.nil_append, Escape.hazards_eq_run, List.filter_reverse,
    List.map_reverse]
  exact List.reverse_perm _

end HazardReport

/-! ## A name that is used behind its block -/

def leakingBody : List Node :=
  [.cond ⟨1, 1⟩ (.number ⟨1, 4⟩ 1)
      [.binary ⟨1, 8⟩ .declare (.ident ⟨1, 12⟩ "a") (.number ⟨1, 16⟩ 2) none] [],
    .ret ⟨2, 1⟩ (.ident ⟨2, 8⟩ "a")]

end UnitScript
