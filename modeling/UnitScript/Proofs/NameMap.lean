import UnitScript.NameMap

/-!
# Maps made from lists of entries

A map made from entries with distinct names holds just those entries.
-/

namespace UnitScript.NameMap

variable {α : Type} {es : List (Name × α)} {m : NameMap α} {k : Name}

theorem ext_entries {n : NameMap α} (h : m.entries = n.entries) : m = n := by
  cases m
  cases n
  simpa using h

theorem insert_insert (m : NameMap α) (k : Name) (v w : α) :
    (m.insert k v).insert k w = m.insert k w := by
  refine ext_get? fun j => ?_
  by_cases h : k = j <;> simp [h]

theorem findEntry_eq_none (h : k ∉ es.map (·.1)) : findEntry k es = none := by
  induction es with
  | nil => rfl
  | cons e es ih =>
    rw [List.map_cons, List.mem_cons, not_or] at h
    rw [findEntry, if_neg (Ne.symm h.1), ih h.2]

theorem get?_foldl_insert (hes : (es.map (·.1)).Nodup) (m : NameMap α) (k : Name) :
    (es.foldl (fun m e => m.insert e.1 e.2) m).get? k = (findEntry k es).or (m.get? k) := by
  induction es generalizing m with
  | nil => rfl
  | cons e es ih =>
    rw [List.map_cons, List.nodup_cons] at hes
    rw [List.foldl_cons, ih hes.2, get?_insert]
    by_cases hk : e.1 = k
    · subst hk
      simp [findEntry, findEntry_eq_none hes.1]
    · simp [findEntry, hk]

theorem get?_foldl_insert_last (es : List (Name × α)) (m : NameMap α) (k : Name) :
    (es.foldl (fun m e => m.insert e.1 e.2) m).get? k =
      ((es.filter (·.1 = k)).getLast?.map (·.2)).or (m.get? k) := by
  induction es generalizing m with
  | nil => rfl
  | cons e es ih =>
    rw [List.foldl_cons, ih, get?_insert, List.filter_cons]
    by_cases hk : e.1 = k
    · simp only [hk, if_true, decide_true, List.getLast?_cons, Option.map_some]
      cases (es.filter (·.1 = k)).getLast? <;> rfl
    · simp [hk]

theorem get?_ofList (hes : (es.map (·.1)).Nodup) (k : Name) :
    (ofList es).get? k = findEntry k es := by
  rw [ofList, get?_foldl_insert hes, get?_empty, Option.or_none]

theorem isSome_get?_foldl_insert :
    ((es.foldl (fun m e => m.insert e.1 e.2) m).get? k).isSome = true ↔
      k ∈ es.map (·.1) ∨ (m.get? k).isSome = true := by
  induction es generalizing m with
  | nil => simp
  | cons e es ih =>
    rw [List.foldl_cons, ih, get?_insert, List.map_cons, List.mem_cons]
    by_cases hk : e.1 = k
    · simp [hk]
    · simp [hk, Ne.symm hk]

theorem isSome_get?_ofList (h : k ∈ es.map (·.1)) : ((ofList es).get? k).isSome = true :=
  isSome_get?_foldl_insert.2 (.inl h)

theorem findEntry_of_mem (hes : (es.map (·.1)).Nodup) {e : Name × α} (he : e ∈ es) :
    findEntry e.1 es = some e.2 := by
  induction es with
  | nil => cases he
  | cons x es ih =>
    rw [List.map_cons, List.nodup_cons] at hes
    rw [findEntry]
    rcases List.mem_cons.1 he with rfl | he
    · exact if_pos rfl
    · have hne : x.1 ≠ e.1 := fun h => hes.1 (h ▸ List.mem_map_of_mem he)
      rw [if_neg hne]
      exact ih hes.2 he

theorem mem_of_get? {v : α} (h : m.get? k = some v) : (k, v) ∈ m.entries := by
  unfold get? at h
  generalize m.entries = es at h
  induction es with
  | nil => cases h
  | cons e es ih =>
    rw [findEntry] at h
    split at h
    · next hk =>
      cases h
      exact List.mem_cons.2 (.inl (by rw [← hk]))
    · exact List.mem_cons_of_mem _ (ih h)

theorem length_insertEntry_le (k : Name) (v : α) (es : List (Name × α)) :
    (insertEntry k v es).length ≤ es.length + 1 := by
  induction es with
  | nil => simp [insertEntry]
  | cons e es ih =>
    unfold insertEntry
    split
    · simp
    · split <;> simp [ih]

theorem mem_foldl_insert {x : Name × α}
    (h : x ∈ (es.foldl (fun m e => m.insert e.1 e.2) m).entries) : x ∈ m.entries ∨ x ∈ es := by
  induction es generalizing m with
  | nil => exact .inl h
  | cons e es ih =>
    rcases ih h with h | h
    · rcases mem_insertEntry h with rfl | h
      · exact .inr List.mem_cons_self
      · exact .inl h
    · exact .inr (List.mem_cons_of_mem _ h)

theorem size_foldl_insert_le (m : NameMap α) :
    (es.foldl (fun m e => m.insert e.1 e.2) m).size ≤ m.size + es.length := by
  induction es generalizing m with
  | nil => exact Nat.le_refl _
  | cons e es ih =>
    have hstep : (m.insert e.1 e.2).size ≤ m.size + 1 := length_insertEntry_le e.1 e.2 m.entries
    have := ih (m.insert e.1 e.2)
    rw [List.foldl_cons, List.length_cons]
    omega

theorem mem_of_mem_ofList {x : Name × α} (h : x ∈ (ofList es).entries) : x ∈ es :=
  (mem_foldl_insert h).resolve_left (List.not_mem_nil)

theorem size_ofList_le : (ofList es).size ≤ es.length :=
  calc (ofList es).size ≤ (empty : NameMap α).size + es.length := size_foldl_insert_le empty
    _ = es.length := Nat.zero_add _

theorem ofList_entries (m : NameMap α) : ofList m.entries = m := by
  have hnodup : (m.entries.map (·.1)).Nodup := by
    refine List.pairwise_map.2 (m.sorted.imp fun {a b} hab heq => ?_)
    exact name_lt_irrefl b.1 (heq ▸ hab)
  exact ext_get? fun k => get?_ofList hnodup k

end UnitScript.NameMap
