import UnitScript.Module.Imports

/-!
# Imports in front of a program

The imports that are put in front of a program are those that it lacks, each once. Names are taken over
from a list by two passes that keep what they have seen, one over the standard imports and one over the
program; `newNames_eq` says what such a pass gives, without what it has seen on the way.
-/

namespace UnitScript

namespace Program

variable {seen seen' names more std std' : List Name} {body : List Node}

theorem newNames_of_mem {y : Name} (h : y ∈ seen) :
    newNames seen (y :: names) = newNames seen names := if_pos h

theorem newNames_of_notMem {y : Name} (h : y ∉ seen) :
    newNames seen (y :: names) = y :: newNames (y :: seen) names := if_neg h

theorem newNames_eq (seen names : List Name) :
    newNames seen names = (names.filter (· ∉ seen)).eraseDups := by
  induction names generalizing seen with
  | nil => rfl
  | cons y names ih =>
    by_cases hy : y ∈ seen
    · rw [newNames_of_mem hy, ih, List.filter_cons_of_neg (by simpa using hy)]
    · have hrest : (names.filter (· ∉ seen)).filter (fun x => !x == y) =
          names.filter (· ∉ y :: seen) := by
        rw [List.filter_filter]
        refine List.filter_congr fun x _ => ?_
        by_cases hxy : x = y <;> simp [hxy]
      rw [newNames_of_notMem hy, ih, List.filter_cons_of_pos (by simpa using hy), List.eraseDups_cons,
        hrest]

theorem mem_newNames {x : Name} : x ∈ newNames seen names ↔ x ∈ names ∧ x ∉ seen := by
  rw [newNames_eq, List.mem_eraseDups, List.mem_filter, decide_eq_true_iff]

theorem newNames_congr (h : ∀ x ∈ names, x ∈ seen ↔ x ∈ seen') :
    newNames seen names = newNames seen' names := by
  rw [newNames_eq, newNames_eq]
  refine congrArg List.eraseDups (List.filter_congr fun x hx => ?_)
  exact decide_eq_decide.2 (not_congr (h x hx))

theorem newNames_append :
    newNames seen (names ++ more) = newNames seen names ++ newNames (names ++ seen) more := by
  have hmore : (more.filter (· ∉ seen)).removeAll (names.filter (· ∉ seen)) =
      more.filter (· ∉ names ++ seen) := by
    rw [List.removeAll, List.filter_filter]
    refine List.filter_congr fun x _ => ?_
    by_cases hx : x ∈ seen <;> simp [hx]
  rw [newNames_eq, newNames_eq, newNames_eq, List.filter_append, List.eraseDups_append, hmore]

theorem newNames_newNames (h : ∀ x ∈ seen', x ∈ seen) :
    newNames seen' (newNames seen names) = newNames seen names := by
  induction names generalizing seen seen' with
  | nil => rfl
  | cons y names ih =>
    by_cases hy : y ∈ seen
    · rw [newNames_of_mem hy, ih h]
    · have hcons : ∀ x ∈ y :: seen', x ∈ y :: seen := by
        intro x hx
        rcases List.mem_cons.1 hx with rfl | hx
        · exact List.mem_cons_self
        · exact List.mem_cons_of_mem _ (h x hx)
      rw [newNames_of_notMem hy, newNames_of_notMem (mt (h y) hy), ih hcons]

theorem mem_topImports {x : Name} : x ∈ topImports body ↔ x ∈ body.filterMap Node.imported? := by
  unfold topImports
  rw [mem_newNames]
  simp

theorem topImports_withImports :
    topImports (withImports std body) = newNames (topImports body) std ++ topImports body := by
  have hfront (ns : List Name) :
      (ns.map (Node.importUnit .unknown)).filterMap Node.imported? = ns := by
    induction ns with
    | nil => rfl
    | cons n ns ih =>
      rw [List.map_cons, List.filterMap_cons]
      exact congrArg (n :: ·) ih
  unfold topImports withImports
  rw [List.filterMap_append, hfront, newNames_append, newNames_newNames (by simp), List.append_nil]
  congr 1
  refine newNames_congr fun x hx => ?_
  rw [mem_newNames, mem_topImports]
  simp [hx]

/-- A program that has the imports already is left as it is. -/
theorem withImports_eq_self (h : ∀ name ∈ std, name ∈ topImports body) :
    withImports std body = body := by
  have hnone : newNames (topImports body) std = [] :=
    List.eq_nil_iff_forall_not_mem.2 fun x hx =>
      (mem_newNames.1 hx).2 (h x (mem_newNames.1 hx).1)
  rw [withImports, hnone]
  rfl

/-- The imports in front of a program are the names that its top level lacks, each once and in the
order of their first occurrence. They come before its own imports, the program follows unchanged, and
nothing is added a second time. -/
theorem withImports_adds_once (std : List Name) (body : List Node) :
    let added := (std.filter (· ∉ body.filterMap Node.imported?)).eraseDups
    topImports (withImports std body) = added ++ topImports body ∧
      withImports std body = added.map (Node.importUnit .unknown) ++ body ∧
      withImports std (withImports std body) = withImports std body := by
  have hadded : newNames (topImports body) std =
      (std.filter (· ∉ body.filterMap Node.imported?)).eraseDups := by
    rw [newNames_congr fun x _ => mem_topImports, newNames_eq]
  refine ⟨?_, ?_, withImports_eq_self fun name hname => ?_⟩
  · rw [topImports_withImports, hadded]
  · rw [withImports, hadded]
  · rw [topImports_withImports, List.mem_append, mem_newNames]
    by_cases hbody : name ∈ topImports body
    · exact .inr hbody
    · exact .inl ⟨hname, hbody⟩

theorem withImports_eq_of_topImports
    (h : topImports (withImports std body) = topImports (withImports std' body)) :
    withImports std body = withImports std' body := by
  rw [topImports_withImports, topImports_withImports] at h
  unfold withImports
  rw [List.append_cancel_right h]

end Program

end UnitScript
