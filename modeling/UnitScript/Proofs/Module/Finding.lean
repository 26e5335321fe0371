import UnitScript.Module.Loader
import UnitScript.Proofs.Bytes

/-!
# The names of modules that can be found

No path with a zero byte leads to a file. The name of a module is split at its dots, so that no part
of it can be `..`, and whatever is in the name is in all paths that are tried. A module that is
found has therefore no zero byte in its name.
-/

namespace UnitScript

namespace Bytes

variable {sep : UInt8} {b : UInt8}

theorem splitOn_append (sep : UInt8) (s t : Bytes) :
    splitOn sep (s ++ sep :: t) = splitOn sep s ++ splitOn sep t := by
  have hpieces (s : Bytes) : ∀ p ∈ splitOn sep s, sep ∉ p := fun p => notMem_of_mem_splitOn
  refine pieces_injective (hpieces _) ?_ ?_
  · exact List.forall_mem_append.2 ⟨hpieces s, hpieces t⟩
  · rw [flatMap_splitOn, List.flatMap_append, flatMap_splitOn, flatMap_splitOn]
    simp

theorem exists_mem_splitOn {s : Bytes} (hb : b ≠ sep) (h : b ∈ s) : ∃ p ∈ splitOn sep s, b ∈ p := by
  have hmem : b ∈ (splitOn sep s).flatMap (· ++ [sep]) := by
    rw [flatMap_splitOn]
    exact List.mem_append_left _ h
  obtain ⟨p, hp, hbp⟩ := List.mem_flatMap.1 hmem
  refine ⟨p, hp, ?_⟩
  simpa [hb] using hbp

theorem count_le_of_mem_splitOn {s p : Bytes} (hb : b ≠ sep) (h : p ∈ splitOn sep s) :
    p.count b ≤ s.count b := by
  have hsub : (p ++ [sep]).Sublist ((splitOn sep s).flatMap (· ++ [sep])) :=
    List.sublist_flatten_of_mem (List.mem_map_of_mem h)
  rw [flatMap_splitOn] at hsub
  have hcount := hsub.count_le b
  simpa [List.count_append, List.count_singleton, Ne.symm hb] using hcount

theorem mem_join {sep : Bytes} {xs : List Bytes} (h : b ∈ join sep xs) :
    b ∈ sep ∨ ∃ x ∈ xs, b ∈ x := by
  induction xs using join.induct with
  | case1 => cases h
  | case2 x => exact .inr ⟨x, List.mem_singleton_self x, h⟩
  | case3 x y rest ih =>
    rw [join, List.mem_append, List.mem_append] at h
    rcases h with (h | h) | h
    · exact .inr ⟨x, List.mem_cons_self, h⟩
    · exact .inl h
    · exact (ih h).imp_right fun ⟨z, hz, hb⟩ => ⟨z, List.mem_cons_of_mem _ hz, hb⟩

theorem mem_join_of_mem {sep x : Bytes} {xs : List Bytes} (hx : x ∈ xs) (hb : b ∈ x) :
    b ∈ join sep xs := by
  induction xs using join.induct with
  | case1 => cases hx
  | case2 y =>
    rw [List.mem_singleton.1 hx] at hb
    exact hb
  | case3 y z rest ih =>
    rw [join, List.mem_append]
    rcases List.mem_cons.1 hx with rfl | hx
    · exact .inl (List.mem_append_left _ hb)
    · exact .inr (ih hx)

end Bytes

namespace Path

variable {rooted : Bool} {stack bs : List Name} {p : Path}

/-- A part with a zero byte is kept unless some `..` comes after it. -/
theorem zero_mem_foldl_step (hbs : ∀ b ∈ bs, b ≠ dotDot)
    (h : (∃ s ∈ stack, 0 ∈ s) ∨ ∃ b ∈ bs, 0 ∈ b) :
    ∃ s ∈ bs.foldl (step rooted) stack, 0 ∈ s := by
  induction bs generalizing stack with
  | nil => simpa using h
  | cons part bs ih =>
    rw [List.forall_mem_cons] at hbs
    refine ih hbs.2 ?_
    rcases h with ⟨s, hs, hzero⟩ | ⟨b, hb, hzero⟩
    · left
      unfold step
      rw [if_neg hbs.1]
      split
      · exact ⟨s, hs, hzero⟩
      · exact ⟨s, List.mem_cons_of_mem _ hs, hzero⟩
    · rcases List.mem_cons.1 hb with rfl | hb
      · left
        have hplain : ¬(b = [] ∨ b = dot) := by
          rintro (rfl | rfl)
          · cases hzero
          · exact absurd hzero (by decide)
        unfold step
        rw [if_neg hplain, if_neg hbs.1]
        exact ⟨b, List.mem_cons_self, hzero⟩
      · exact .inr ⟨b, hb, hzero⟩

theorem mem_foldl_step {s : Name} (h : s ∈ bs.foldl (step rooted) stack) : s ∈ stack ∨ s ∈ bs := by
  have hstep {stack : List Name} {part : Name} (h : s ∈ step rooted stack part) :
      s ∈ stack ∨ s = part := by
    unfold step at h
    split at h
    · exact .inl h
    · split at h
      · split at h
        · split at h
          · cases h
          · exact .inr (List.mem_singleton.1 h)
        · split at h
          · exact (List.mem_cons.1 h).symm
          · exact .inl (List.mem_cons_of_mem _ h)
      · exact (List.mem_cons.1 h).symm
  induction bs generalizing stack with
  | nil => exact .inl h
  | cons part bs ih =>
    rcases ih h with h | h
    · exact (hstep h).imp_right fun heq => List.mem_cons.2 (.inl heq)
    · exact .inr (List.mem_cons_of_mem _ h)

theorem ne_dotDot_of_count (h : p.count 46 ≤ 1) : ∀ part ∈ parts p, part ≠ dotDot := by
  rintro part hpart rfl
  have hcount : dotDot.count 46 ≤ p.count 46 :=
    Bytes.count_le_of_mem_splitOn (by decide) hpart
  have htwo : dotDot.count 46 = 2 := by decide
  omega

theorem zero_mem_clean_of_parts {front back : List Name} (hp : parts p = front ++ back)
    (hback : ∀ part ∈ back, part ≠ dotDot) (hzero : ∃ part ∈ back, 0 ∈ part) : 0 ∈ clean p := by
  have hstack : ∃ s ∈ (parts p).foldl (step (isAbsolute p)) [], 0 ∈ s := by
    rw [hp, List.foldl_append]
    exact zero_mem_foldl_step hback (.inr hzero)
  obtain ⟨s, hs, hzero⟩ := hstack
  have hbody : 0 ∈ Bytes.join [slash] ((parts p).foldl (step (isAbsolute p)) []).reverse :=
    Bytes.mem_join_of_mem (List.mem_reverse.2 hs) hzero
  simp only [clean]
  split
  · exact List.mem_cons_of_mem _ hbody
  · split
    · next hnil => exact absurd (hnil ▸ hbody) List.not_mem_nil
    · exact hbody

theorem mem_of_mem_clean {b : UInt8} (hb : b ≠ slash) (h : b ∈ clean p) :
    b ∈ p ∨ clean p = dot := by
  have hbody (h : b ∈ Bytes.join [slash] ((parts p).foldl (step (isAbsolute p)) []).reverse) :
      b ∈ p := by
    rcases Bytes.mem_join h with h | ⟨x, hx, hbx⟩
    · exact absurd (List.mem_singleton.1 h) hb
    · have hpart : x ∈ parts p :=
        (mem_foldl_step (List.mem_reverse.1 hx)).resolve_left List.not_mem_nil
      have hcount := Bytes.count_le_of_mem_splitOn hb hpart
      have hpos := List.count_pos_iff.2 hbx
      exact List.count_pos_iff.1 (by omega)
  simp only [clean] at h ⊢
  split at h
  · exact .inl (hbody ((List.mem_cons.1 h).resolve_left hb))
  · next habsolute =>
    rw [if_neg habsolute]
    split at h
    · next hnil => exact .inr (if_pos hnil)
    · exact .inl (hbody h)

theorem zero_mem_clean {q : Path} (hq : q.count 46 ≤ 1) (hzero : 0 ∈ q) (p : Path) :
    0 ∈ clean q ∧ 0 ∈ clean (p ++ [slash] ++ q) := by
  have hback := ne_dotDot_of_count hq
  have hpart : ∃ part ∈ parts q, 0 ∈ part := Bytes.exists_mem_splitOn (by decide) hzero
  have hparts : parts (p ++ [slash] ++ q) = parts p ++ parts q := by
    rw [List.append_assoc]
    exact Bytes.splitOn_append slash p q
  exact ⟨zero_mem_clean_of_parts (List.nil_append _).symm hback hpart,
    zero_mem_clean_of_parts hparts hback hpart⟩

theorem join_cons_of_ne_nil (h : p ≠ []) (ps : List Path) :
    join (p :: ps) = clean (Bytes.join [slash] (p :: ps)) := by
  have hempty : p.isEmpty = false := by simpa using h
  rw [join, List.dropWhile_cons, hempty]
  rfl

theorem zero_mem_join {q : Path} {rest : List Path} (hq : q ≠ [])
    (hcount : (Bytes.join [slash] (q :: rest)).count 46 ≤ 1)
    (hzero : 0 ∈ Bytes.join [slash] (q :: rest)) (dir : Path) : 0 ∈ join (dir :: q :: rest) := by
  have hclean := zero_mem_clean hcount hzero dir
  by_cases hdir : dir = []
  · have hjoin : join (dir :: q :: rest) = join (q :: rest) := by
      rw [hdir]
      rfl
    rw [hjoin, join_cons_of_ne_nil hq]
    exact hclean.1
  · rw [join_cons_of_ne_nil hdir]
    exact hclean.2

end Path

namespace FileTree

theorem hasFile_of_zero_mem (t : FileTree) {p : Path} (h : 0 ∈ p) : t.hasFile p = false := by
  have hne : p ≠ [] := List.ne_nil_of_mem h
  have hany : p.any (· = 0) = true := by simpa using h
  have hlocate : t.locate p = .error .invalid := by rw [locate, if_neg hne, if_pos hany]
  simp [hasFile, stat, hlocate]

end FileTree

namespace Loader

variable {name : Name}

theorem zero_mem_relative (h : 0 ∈ name) :
    0 ∈ Path.join (Bytes.splitOn 46 name) ∧ 46 ∉ Path.join (Bytes.splitOn 46 name) := by
  obtain ⟨part, hpart, hzero⟩ : ∃ p ∈ Bytes.splitOn 46 name, 0 ∈ p :=
    Bytes.exists_mem_splitOn (by decide) h
  have hdots : ∀ q ∈ Bytes.splitOn 46 name, 46 ∉ q := fun q => Bytes.notMem_of_mem_splitOn
  generalize Bytes.splitOn 46 name = ps at hpart hdots
  induction ps with
  | nil => cases hpart
  | cons p ps ih =>
    by_cases hp : p = []
    · have hjoin : Path.join (p :: ps) = Path.join ps := by
        rw [hp]
        rfl
      rw [hjoin]
      refine ih ((List.mem_cons.1 hpart).resolve_left ?_) (List.forall_mem_cons.1 hdots).2
      rintro rfl
      exact absurd (hp ▸ hzero) List.not_mem_nil
    · rw [Path.join_cons_of_ne_nil hp]
      have hno : 46 ∉ Bytes.join [Path.slash] (p :: ps) := by
        intro hdot
        rcases Bytes.mem_join hdot with hdot | ⟨x, hx, hdot⟩
        · exact absurd hdot (by decide)
        · exact hdots x hx hdot
      have hcount : (Bytes.join [Path.slash] (p :: ps)).count 46 ≤ 1 := by
        rw [List.count_eq_zero.2 hno]
        omega
      have hclean : 0 ∈ Path.clean (Bytes.join [Path.slash] (p :: ps)) :=
        (Path.zero_mem_clean hcount (Bytes.mem_join_of_mem hpart hzero) []).1
      refine ⟨hclean, fun hdot => ?_⟩
      rcases Path.mem_of_mem_clean (by decide) hdot with hdot | hempty
      · exact hno hdot
      · rw [hempty] at hclean
        exact absurd hclean (by decide)

theorem zero_mem_of_mem_candidates (h : 0 ∈ name) {dir path : Path}
    (hpath : path ∈ candidates name dir) : 0 ∈ path := by
  obtain ⟨hzero, hdots⟩ := zero_mem_relative h
  have hnone := List.count_eq_zero.2 hdots
  have hlast : ((Bytes.splitOn 46 name).getLastD []).count 46 = 0 := by
    rw [List.count_eq_zero]
    cases hparts : Bytes.splitOn 46 name with
    | nil => exact List.not_mem_nil
    | cons p ps =>
      refine Bytes.notMem_of_mem_splitOn (s := name) ?_
      rw [hparts, List.getLastD_cons]
      exact List.getLastD_mem_cons
  have hunit : unitExtension.count 46 = 1 := by decide
  have hsource : sourceExtension.count 46 = 1 := by decide
  have hslash : ([Path.slash] : Path).count 46 = 0 := by decide
  have hne := List.ne_nil_of_mem hzero
  simp only [candidates, List.mem_cons, List.not_mem_nil, or_false] at hpath
  rcases hpath with rfl | rfl | rfl
  · refine Path.zero_mem_join (by simp [hne]) ?_ (List.mem_append_left _ hzero) dir
    rw [Bytes.join, List.count_append]
    omega
  · refine Path.zero_mem_join (by simp [hne]) ?_ (List.mem_append_left _ hzero) dir
    rw [Bytes.join, List.count_append]
    omega
  · refine Path.zero_mem_join hne ?_ (Bytes.mem_join_of_mem List.mem_cons_self hzero) dir
    simp only [Bytes.join, List.count_append]
    omega

theorem zero_notMem_of_find {l : Loader} {path : Path} (h : l.find name = .ok path) :
    0 ∉ name := by
  intro hzero
  simp only [find] at h
  split at h
  · cases h
  · split at h
    · next found hfound =>
      obtain ⟨dir, -, hpath⟩ := List.mem_flatMap.1 (List.mem_of_find?_eq_some hfound)
      have hmissing := l.files.hasFile_of_zero_mem (zero_mem_of_mem_candidates hzero hpath)
      rw [List.find?_some hfound] at hmissing
      cases hmissing
    · cases h

end Loader

end UnitScript
