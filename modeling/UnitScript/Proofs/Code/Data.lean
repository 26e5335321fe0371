import Mathlib.Data.List.Nodup
import UnitScript.Code.CodeUnit
import UnitScript.Proofs.NameMap

/-!
# The data of a unit

Of the entries of a name a machine takes the last, and a merge compares with the first. The two are the
same string as long as the entries agree. A merge adds entries of new names only, so it keeps agreement
and leaves the entries that were there at the front. It succeeds if and only if all entries together
agree, and then it has just the entries of both sides. So the order of merges does not matter to a
look-up, although it does to the section itself.
-/

namespace UnitScript

namespace Datum

variable {data more more' merged : List Datum} {conflict : Option Name} {name : Name} {s : Bytes}

/-- The string under a name on a machine: of two entries with the same name the last counts. -/
def last? (data : List Datum) (name : Name) : Option Bytes :=
  (NameMap.ofList (data.map fun d => (d.name, d.value))).get? name

theorem last?_append (data : List Datum) (d : Datum) (name : Name) :
    last? (data ++ [d]) name = if d.name = name then some d.value else last? data name := by
  simp [last?, NameMap.ofList]

theorem mem_of_last? (h : last? data name = some s) : ⟨name, s⟩ ∈ data := by
  obtain ⟨d, hd, heq⟩ := List.mem_map.1 (NameMap.mem_of_mem_ofList (NameMap.mem_of_get? h))
  cases heq
  exact hd

theorem mem_of_find? (h : find? data name = some s) : ⟨name, s⟩ ∈ data := by
  obtain ⟨d, hd, rfl⟩ := Option.map_eq_some_iff.1 h
  have hname : d.name = name := by simpa using List.find?_some hd
  rw [← hname]
  exact List.mem_of_find?_eq_some hd

theorem not_mem_of_find? (h : find? data name = none) : ⟨name, s⟩ ∉ data := by
  intro hs
  have hnone := List.find?_eq_none.1 (Option.map_eq_none_iff.1 h)
  simpa using hnone _ hs

/-! ## Agreement -/

def Agree (data : List Datum) (name : Name) : Prop :=
  ∀ s t, ⟨name, s⟩ ∈ data → ⟨name, t⟩ ∈ data → s = t

theorem agree_nil (name : Name) : Agree [] name := by
  intro s t hs
  cases hs

theorem Agree.mono (h : Agree data name) (hsub : more ⊆ data) : Agree more name :=
  fun s t hs ht => h s t (hsub hs) (hsub ht)

theorem agree_append {d : Datum} (h : Agree data name) (hne : d.name ≠ name) :
    Agree (data ++ [d]) name := by
  have hold : ∀ s, ⟨name, s⟩ ∈ data ++ [d] → ⟨name, s⟩ ∈ data := by
    intro s hs
    rcases List.mem_append.1 hs with hs | hs
    · exact hs
    · exact absurd (congrArg Datum.name (List.mem_singleton.1 hs)).symm hne
  exact fun s t hs ht => h s t (hold s hs) (hold t ht)

theorem agree_of_nodup (h : (data.map (·.name)).Nodup) (name : Name) : Agree data name :=
  fun _ _ hs ht => congrArg Datum.value (List.inj_on_of_nodup_map h hs ht rfl)

/-- Entries that agree are found alike from both ends. -/
theorem Agree.last? (h : Agree data name) (hs : ⟨name, s⟩ ∈ data) : last? data name = some s := by
  have hsome : (Datum.last? data name).isSome = true :=
    NameMap.isSome_get?_ofList (by simpa using ⟨_, hs, rfl⟩)
  obtain ⟨t, ht⟩ := Option.isSome_iff_exists.1 hsome
  rw [ht, h t s (mem_of_last? ht) hs]

theorem Agree.find?_eq_some_iff (h : Agree data name) : find? data name = some s ↔ ⟨name, s⟩ ∈ data := by
  refine ⟨mem_of_find?, fun hs => ?_⟩
  cases hfind : find? data name with
  | none => exact absurd hs (not_mem_of_find? hfind)
  | some t => rw [h t s (mem_of_find? hfind) hs]

/-! ## Merging -/

/-- The three ways in which a merge goes on with an entry. -/
theorem merge_cons {d : Datum} (h : merge data (d :: more) = (merged, conflict)) :
    (find? data d.name = none ∧ merge (data ++ [d]) more = (merged, conflict)) ∨
      (find? data d.name = some d.value ∧ merge data more = (merged, conflict)) ∨
      ∃ value, find? data d.name = some value ∧ value ≠ d.value ∧ data = merged ∧
        some d.name = conflict := by
  rw [merge] at h
  cases hfind : find? data d.name with
  | none =>
    simp only [hfind] at h
    exact .inl ⟨rfl, h⟩
  | some value =>
    simp only [hfind] at h
    split at h
    · next heq => exact .inr (.inl ⟨congrArg some heq, h⟩)
    · next hne => exact .inr (.inr ⟨value, rfl, hne, Prod.mk.inj h⟩)

/-- A merge is a series of additions of new names, also where it ends with a conflict. -/
theorem merge_induction {P : List Datum → Prop} (h : merge data more = (merged, conflict))
    (hdata : P data)
    (hadd : ∀ d ∈ more, ∀ data, find? data d.name = none → P data → P (data ++ [d])) : P merged := by
  induction more generalizing data with
  | nil =>
    cases h
    exact hdata
  | cons d rest ih =>
    rw [List.forall_mem_cons] at hadd
    rcases merge_cons h with ⟨hfind, h⟩ | ⟨-, h⟩ | ⟨_, -, -, rfl, -⟩
    · exact ih h (hadd.1 data hfind hdata) hadd.2
    · exact ih h hdata hadd.2
    · exact hdata

theorem prefix_of_merge (h : merge data more = (merged, conflict)) : data <+: merged :=
  merge_induction (P := fun grown => data <+: grown) h (List.prefix_refl data)
    fun _ _ _ _ hgrown => hgrown.trans (List.prefix_append _ _)

theorem subset_of_merge (h : merge data more = (merged, conflict)) : data ⊆ merged :=
  (prefix_of_merge h).subset

theorem nodup_of_merge (h : merge data more = (merged, conflict))
    (hdata : (data.map (·.name)).Nodup) : (merged.map (·.name)).Nodup := by
  refine merge_induction (P := fun grown => (grown.map (·.name)).Nodup) h hdata
    fun d _ grown hfind hgrown => ?_
  rw [List.map_append, List.map_singleton, ← List.concat_eq_append, List.nodup_concat]
  refine ⟨fun hmem => ?_, hgrown⟩
  obtain ⟨e, he, hname⟩ := List.mem_map.1 hmem
  exact not_mem_of_find? (hname ▸ hfind) he

/-- Nothing of what is merged without a conflict is lost. -/
theorem more_subset_of_merge (h : merge data more = (merged, none)) : more ⊆ merged := by
  induction more generalizing data with
  | nil => exact List.nil_subset _
  | cons d rest ih =>
    rw [List.cons_subset]
    rcases merge_cons h with ⟨-, h⟩ | ⟨hfind, h⟩ | ⟨_, -, -, -, hconflict⟩
    · exact ⟨subset_of_merge h (by simp), ih h⟩
    · exact ⟨subset_of_merge h (mem_of_find? hfind), ih h⟩
    · cases hconflict

theorem mem_of_merge (h : merge data more = (merged, none)) {d : Datum} :
    d ∈ merged ↔ d ∈ data ++ more := by
  constructor
  · have hsub : merged ⊆ data ++ more :=
      merge_induction (P := (· ⊆ data ++ more)) h (List.subset_append_left _ _)
        fun d hd _ _ hgrown => List.append_subset.2 ⟨hgrown, by simp [hd]⟩
    exact fun hd => hsub hd
  · rw [List.mem_append]
    exact fun hd => hd.elim (fun hd => subset_of_merge h hd) fun hd => more_subset_of_merge h hd

theorem Agree.merge (h : merge data more = (merged, none)) (hagree : Agree data name) :
    Agree merged name := by
  refine merge_induction (P := fun data => Agree data name) h hagree fun d _ data hfind ih => ?_
  by_cases hname : d.name = name
  · have honly : ∀ s, ⟨name, s⟩ ∈ data ++ [d] → s = d.value := by
      intro s hs
      rcases List.mem_append.1 hs with hs | hs
      · rw [← hname] at hs
        exact absurd hs (not_mem_of_find? hfind)
      · exact congrArg Datum.value (List.mem_singleton.1 hs)
    exact fun s t hs ht => (honly s hs).trans (honly t ht).symm
  · exact agree_append ih hname

theorem last?_of_merge (h : merge data more = (merged, none)) (hs : last? data name = some s) :
    last? merged name = some s := by
  refine merge_induction (P := fun data => last? data name = some s) h hs fun d _ data hfind ih => ?_
  have hne : d.name ≠ name := by
    rintro rfl
    exact not_mem_of_find? hfind (mem_of_last? ih)
  rw [last?_append, if_neg hne]
  exact ih

/-! ## Merging as a union -/

/-- The name that is given back has two strings. The first of them may have come with the list. -/
theorem not_agree_of_merge (h : merge data more = (merged, some name)) : ¬ Agree (data ++ more) name := by
  induction more generalizing data with
  | nil => cases h
  | cons d rest ih =>
    intro hagree
    rcases merge_cons h with ⟨-, h⟩ | ⟨-, h⟩ | ⟨value, hfind, hne, -, hname⟩
    · exact ih h (by simpa using hagree)
    · exact ih h (hagree.mono (by simp))
    · cases hname
      exact hne (hagree value d.value (List.mem_append_left _ (mem_of_find? hfind)) (by simp))

theorem merge_succeeds_iff (hdata : ∀ name, Agree data name) :
    (merge data more).2 = none ↔ ∀ name, Agree (data ++ more) name := by
  rcases hmerge : merge data more with ⟨merged, _ | name⟩
  · have hall : ∀ name, Agree (data ++ more) name := fun name =>
      ((hdata name).merge hmerge).mono fun _ hd => (mem_of_merge hmerge).2 hd
    exact iff_of_true rfl hall
  · exact iff_of_false (by simp) fun hall => not_agree_of_merge hmerge (hall name)

theorem find?_of_merge (h : merge data more = (merged, none)) (hdata : Agree data name) :
    find? merged name = some s ↔ ⟨name, s⟩ ∈ data ++ more := by
  rw [(hdata.merge h).find?_eq_some_iff, mem_of_merge h]

theorem merge_eq_self (h : ∀ d ∈ more, find? data d.name = some d.value) :
    merge data more = (data, none) := by
  induction more with
  | nil => rfl
  | cons d rest ih =>
    rw [List.forall_mem_cons] at h
    simp only [merge, h.1, if_true]
    exact ih h.2

/-- The data after a merge without a conflict. -/
def merged? (data more : List Datum) : Option (List Datum) :=
  if (merge data more).2 = none then some (merge data more).1 else none

theorem merged?_eq_some_iff : merged? data more = some merged ↔ merge data more = (merged, none) := by
  rw [merged?, Option.ite_none_right_eq_some, Option.some_inj, Prod.ext_iff, and_comm]

/-- Two lists that are merged one behind the other are merged as one. -/
theorem merged?_append (data more more' : List Datum) :
    merged? data (more ++ more') = (merged? data more).bind (merged? · more') := by
  induction more generalizing data with
  | nil => rfl
  | cons d rest ih =>
    cases hfind : find? data d.name with
    | none => simpa only [merged?, merge, hfind, List.cons_append] using ih (data ++ [d])
    | some value =>
      by_cases hvalue : value = d.value
      · simpa only [merged?, merge, hfind, if_pos hvalue, List.cons_append] using ih data
      · simp [merged?, merge, hfind, hvalue]

theorem map_find?_merged? (hdata : ∀ name, Agree data name) {f : Name → Option Bytes} :
    (merged? data more).map find? = some f ↔
      (∀ name, Agree (data ++ more) name) ∧ ∀ name s, f name = some s ↔ ⟨name, s⟩ ∈ data ++ more := by
  rw [Option.map_eq_some_iff]
  constructor
  · rintro ⟨merged, hmerged, rfl⟩
    have hmerge := merged?_eq_some_iff.1 hmerged
    exact ⟨(merge_succeeds_iff hdata).1 (congrArg Prod.snd hmerge),
      fun name s => find?_of_merge hmerge (hdata name)⟩
  · rintro ⟨hagree, hf⟩
    have hmerge : merge data more = ((merge data more).1, none) :=
      Prod.ext rfl ((merge_succeeds_iff hdata).2 hagree)
    refine ⟨_, merged?_eq_some_iff.2 hmerge, ?_⟩
    funext name
    exact Option.ext fun s => by rw [find?_of_merge hmerge (hdata name), hf]

/-- Merging data is a consistent union. It succeeds if and only if no name has two strings on the two
sides together. The old entries stay at the front and names stay distinct, even where it fails. After
success the listed names have their strings and the others what they had, a second merge changes
nothing, and of two lists it does not matter which is merged first. -/
theorem merge_consistent_union (data more : List Datum) (hdistinct : (data.map (·.name)).Nodup) :
    ((merge data more).2 = none ↔ ∀ name, Agree (data ++ more) name) ∧
      data <+: (merge data more).1 ∧ ((merge data more).1.map (·.name)).Nodup ∧
      ((merge data more).2 = none →
        (∀ d ∈ more, find? (merge data more).1 d.name = some d.value) ∧
        (∀ name ∉ more.map (·.name), find? (merge data more).1 name = find? data name) ∧
        merge (merge data more).1 more = ((merge data more).1, none)) ∧
      ∀ other, ((merged? data more).bind (merged? · other)).map find? =
        ((merged? data other).bind (merged? · more)).map find? := by
  have hagree := agree_of_nodup hdistinct
  refine ⟨merge_succeeds_iff hagree, prefix_of_merge rfl, nodup_of_merge rfl hdistinct,
    fun hnone => ?_, fun other => Option.ext fun f => ?_⟩
  · have hmerge : merge data more = ((merge data more).1, none) := Prod.ext rfl hnone
    have hlisted : ∀ d ∈ more, find? (merge data more).1 d.name = some d.value := fun d hd =>
      (find?_of_merge hmerge (hagree d.name)).2 (List.mem_append_right _ hd)
    refine ⟨hlisted, fun name hname => Option.ext fun s => ?_, merge_eq_self hlisted⟩
    have hnew : ⟨name, s⟩ ∉ more := fun hs => hname (List.mem_map_of_mem hs)
    rw [find?_of_merge hmerge (hagree name), (hagree name).find?_eq_some_iff, List.mem_append,
      or_iff_left hnew]
  · have hperm : (data ++ (more ++ other)).Perm (data ++ (other ++ more)) :=
      List.perm_append_comm.append_left data
    rw [← merged?_append, ← merged?_append, map_find?_merged? hagree, map_find?_merged? hagree]
    simp only [Agree, hperm.mem_iff]

/-- One string under two names, and a list with a new name twice. -/
def sampleData : List Datum :=
  [⟨Bytes.ofString "a", Bytes.ofString "x"⟩, ⟨Bytes.ofString "b", Bytes.ofString "x"⟩]

def sampleMore : List Datum :=
  let new : Datum := ⟨Bytes.ofString "c", Bytes.ofString "y"⟩
  [new, ⟨Bytes.ofString "a", Bytes.ofString "x"⟩, new]

theorem sampleData_union : (sampleData.map (·.name)).Nodup ∧ (merge sampleData sampleMore).2 = none ∧
    (∀ d ∈ sampleMore, find? (merge sampleData sampleMore).1 d.name = some d.value) ∧
    merge (merge sampleData sampleMore).1 sampleMore = ((merge sampleData sampleMore).1, none) := by
  have hdistinct : (sampleData.map (·.name)).Nodup := by decide
  have hnone : (merge sampleData sampleMore).2 = none := by decide
  obtain ⟨-, -, -, hsuccess, -⟩ := merge_consistent_union sampleData sampleMore hdistinct
  obtain ⟨hlisted, -, hagain⟩ := hsuccess hnone
  exact ⟨hdistinct, hnone, hlisted, hagain⟩

end Datum

end UnitScript
