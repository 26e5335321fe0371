import UnitScript.Bytes

/-!
# Maps from names

A finite map is the list of its entries by increasing name, so that two maps with the same entries
are equal. The view of a map is `get?`: the lemmas here say what each operation does to it, and
`ext_get?` that it determines the map.
-/

namespace UnitScript

/-- A finite map from names; the byte order of the names is the order of the entries. -/
structure NameMap (α : Type) where
  entries : List (Name × α)
  sorted : entries.Pairwise fun a b => a.1 < b.1
  deriving DecidableEq

namespace NameMap

variable {α β : Type}

instance [Repr α] : Repr (NameMap α) := ⟨fun m n => reprPrec m.entries n⟩

def empty : NameMap α := ⟨[], .nil⟩

instance : Inhabited (NameMap α) := ⟨empty⟩

/-- The entries with the one for `k` set. -/
def insertEntry (k : Name) (v : α) : List (Name × α) → List (Name × α)
  | [] => [(k, v)]
  | e :: rest =>
    if k < e.1 then (k, v) :: e :: rest
    else if e.1 < k then e :: insertEntry k v rest
    else (k, v) :: rest

attribute [local simp] insertEntry

theorem name_lt_trans {a b c : Name} (h : a < b) (g : b < c) : a < c := List.lt_trans h g

theorem name_lt_irrefl (a : Name) : ¬a < a := List.lt_irrefl a

theorem name_eq_of_not_lt {a b : Name} (h : ¬a < b) (g : ¬b < a) : a = b :=
  List.le_antisymm (List.not_lt.1 g) (List.not_lt.1 h)

theorem mem_insertEntry {k : Name} {v : α} {es : List (Name × α)} {x : Name × α}
    (h : x ∈ insertEntry k v es) : x = (k, v) ∨ x ∈ es := by
  induction es with
  | nil => simpa using h
  | cons e rest ih =>
    unfold insertEntry at h
    split at h
    · simpa using h
    · split at h
      · rcases List.mem_cons.1 h with rfl | h
        · simp
        · rcases ih h with rfl | h <;> simp [*]
      · rcases List.mem_cons.1 h with rfl | h <;> simp [*]

theorem sorted_insertEntry (k : Name) (v : α) {es : List (Name × α)}
    (h : es.Pairwise fun a b => a.1 < b.1) :
    (insertEntry k v es).Pairwise fun a b => a.1 < b.1 := by
  induction es with
  | nil => simp
  | cons e rest ih =>
    have he : ∀ x ∈ rest, e.1 < x.1 := fun x hx => List.rel_of_pairwise_cons h hx
    unfold insertEntry
    split
    · next hk =>
      refine .cons ?_ h
      intro x hx
      rcases List.mem_cons.1 hx with rfl | hx
      · exact hk
      · exact name_lt_trans hk (he x hx)
    · next hk =>
      split
      · next hk' =>
        refine .cons ?_ (ih h.of_cons)
        intro x hx
        rcases mem_insertEntry hx with rfl | hx
        · exact hk'
        · exact he x hx
      · next hk' =>
        have hke : k = e.1 := name_eq_of_not_lt hk hk'
        refine .cons ?_ h.of_cons
        intro x hx
        simpa [hke] using he x hx

def insert (m : NameMap α) (k : Name) (v : α) : NameMap α :=
  ⟨insertEntry k v m.entries, sorted_insertEntry k v m.sorted⟩

/-- The value under a name in a list of entries. -/
def findEntry (k : Name) : List (Name × α) → Option α
  | [] => none
  | e :: rest => if e.1 = k then some e.2 else findEntry k rest

attribute [local simp] findEntry

def get? (m : NameMap α) (k : Name) : Option α := findEntry k m.entries

def contains (m : NameMap α) (k : Name) : Bool := (m.get? k).isSome

/-- Whether increasing entries have one for `k`: the search ends at the first larger name. -/
def hasEntry (k : Name) : List (Name × α) → Bool
  | [] => false
  | e :: rest => if k < e.1 then false else if e.1 < k then hasEntry k rest else true

/-- The same as `contains`, without a look at the names behind `k`. -/
def has (m : NameMap α) (k : Name) : Bool := hasEntry k m.entries

def erase (m : NameMap α) (k : Name) : NameMap α :=
  ⟨m.entries.filter (fun e => !decide (e.1 = k)), m.sorted.filter _⟩

def names (m : NameMap α) : List Name := m.entries.map (·.1)

def size (m : NameMap α) : Nat := m.entries.length

def isEmpty (m : NameMap α) : Bool := m.entries.isEmpty

/-- Later entries win over earlier ones. -/
def ofList (es : List (Name × α)) : NameMap α := es.foldl (fun m e => m.insert e.1 e.2) empty

/-- The entries of `m` and `other`; where both have a name, `other` wins. -/
def merge (m other : NameMap α) : NameMap α :=
  other.entries.foldl (fun m e => m.insert e.1 e.2) m

@[simp] theorem get?_empty (k : Name) : (empty : NameMap α).get? k = none := rfl

theorem findEntry_insertEntry (k j : Name) (v : α) (es : List (Name × α)) :
    findEntry j (insertEntry k v es) = if k = j then some v else findEntry j es := by
  induction es with
  | nil => simp
  | cons e rest ih =>
    unfold insertEntry
    split
    · simp
    · next hk =>
      split
      · next hk' =>
        have hne : e.1 ≠ k := fun h => name_lt_irrefl k (h ▸ hk')
        by_cases h : k = j
        · subst h
          simp [ih, hne]
        · simp [ih, h]
      · next hk' =>
        have hke : k = e.1 := name_eq_of_not_lt hk hk'
        subst hke
        by_cases h : e.1 = j <;> simp [h]

@[simp] theorem get?_insert (m : NameMap α) (k j : Name) (v : α) :
    (m.insert k v).get? j = if k = j then some v else m.get? j :=
  findEntry_insertEntry k j v m.entries

theorem findEntry_filter_ne (k j : Name) (es : List (Name × α)) :
    findEntry j (es.filter fun e => !decide (e.1 = k)) = if k = j then none else findEntry j es := by
  induction es with
  | nil => simp
  | cons e rest ih =>
    by_cases he : e.1 = k
    · subst he
      rw [List.filter_cons_of_neg (by simp), ih]
      by_cases h : e.1 = j <;> simp [h]
    · rw [List.filter_cons_of_pos (by simpa using he)]
      by_cases h : k = j
      · subst h
        simpa [he] using ih
      · simp [h, ih]

@[simp] theorem get?_erase (m : NameMap α) (k j : Name) :
    (m.erase k).get? j = if k = j then none else m.get? j :=
  findEntry_filter_ne k j m.entries

theorem findEntry_eq_none_of_lt {k : Name} {es : List (Name × α)}
    (h : ∀ e ∈ es, k < e.1) : findEntry k es = none := by
  induction es with
  | nil => rfl
  | cons e rest ih =>
    have hne : e.1 ≠ k := fun he => name_lt_irrefl k (by simpa [he] using h e (by simp))
    simp [hne, ih fun x hx => h x (by simp [hx])]

theorem hasEntry_eq_isSome {k : Name} {es : List (Name × α)}
    (h : es.Pairwise fun a b => a.1 < b.1) : hasEntry k es = (findEntry k es).isSome := by
  induction es with
  | nil => rfl
  | cons e rest ih =>
    have he : ∀ x ∈ rest, e.1 < x.1 := fun x hx => List.rel_of_pairwise_cons h hx
    unfold hasEntry
    split
    · next hk =>
      rw [findEntry_eq_none_of_lt fun x hx => ?_]
      · rfl
      · rcases List.mem_cons.1 hx with rfl | hx
        · exact hk
        · exact name_lt_trans hk (he x hx)
    · next hk =>
      split
      · next hk' =>
        have hne : e.1 ≠ k := fun h => name_lt_irrefl k (h ▸ hk')
        rw [ih h.of_cons, findEntry, if_neg hne]
      · next hk' =>
        rw [findEntry, if_pos (name_eq_of_not_lt hk hk').symm]
        rfl

theorem has_eq_contains (m : NameMap α) (k : Name) : m.has k = m.contains k :=
  hasEntry_eq_isSome m.sorted

theorem eq_of_findEntry_eq {es fs : List (Name × α)}
    (hes : es.Pairwise fun a b => a.1 < b.1) (hfs : fs.Pairwise fun a b => a.1 < b.1)
    (h : ∀ k, findEntry k es = findEntry k fs) : es = fs := by
  induction es generalizing fs with
  | nil =>
    cases fs with
    | nil => rfl
    | cons f fs => simpa using h f.1
  | cons e es ih =>
    cases fs with
    | nil => simpa using h e.1
    | cons f fs =>
      have he : ∀ x ∈ es, e.1 < x.1 := fun x hx => List.rel_of_pairwise_cons hes hx
      have hf : ∀ x ∈ fs, f.1 < x.1 := fun x hx => List.rel_of_pairwise_cons hfs hx
      have hnone {k : Name} {gs : List (Name × α)} (hk : ∀ x ∈ gs, k < x.1) :
          findEntry k gs = none := findEntry_eq_none_of_lt hk
      have hkey : e.1 = f.1 := by
        refine name_eq_of_not_lt (fun hlt => ?_) (fun hlt => ?_)
        · have hn : findEntry e.1 (f :: fs) = none := hnone fun x hx => by
            rcases List.mem_cons.1 hx with rfl | hx
            · exact hlt
            · exact name_lt_trans hlt (hf x hx)
          have := h e.1
          rw [hn] at this
          simp at this
        · have hn : findEntry f.1 (e :: es) = none := hnone fun x hx => by
            rcases List.mem_cons.1 hx with rfl | hx
            · exact hlt
            · exact name_lt_trans hlt (he x hx)
          have := h f.1
          rw [hn] at this
          simp at this
      have hval : e.2 = f.2 := by
        have := h e.1
        simpa [hkey] using this
      have hef : e = f := Prod.ext hkey hval
      subst hef
      congr 1
      refine ih hes.of_cons hfs.of_cons fun k => ?_
      by_cases hk : e.1 = k
      · subst hk
        rw [hnone fun x hx => he x hx, hnone fun x hx => hf x hx]
      · simpa [hk] using h k

/-- A map is determined by what it holds under each name. -/
theorem ext_get? {m n : NameMap α} (h : ∀ k, m.get? k = n.get? k) : m = n := by
  have := eq_of_findEntry_eq m.sorted n.sorted h
  cases m
  cases n
  simpa using this

end NameMap

end UnitScript
