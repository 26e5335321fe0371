import UnitScript.Module.Loader
import UnitScript.Proofs.Computation

/-!
# What loading does to a loader

However an action on a loader ends, the units that were at hand are still there, the modules that
were being loaded are being loaded still, and none of these has got a unit in the meantime. The last
holds because a module that is being loaded is refused, and without it a unit could be replaced.
-/

namespace UnitScript

namespace Load

variable {α β : Type} {l l' : Loader} {x : Load α} {f : α → Load β} {a : α} {e : IncludeError}

/-- The outcome of an action on a loader, and the loader after it. -/
def on (x : Load α) (l : Loader) : Except IncludeError α × Loader := x.run.run l

theorem on_get (l : Loader) : on get l = (.ok l, l) := rfl

theorem on_modify (g : Loader → Loader) (l : Loader) : on (modify g) l = (.ok ⟨⟩, g l) := rfl

theorem on_bind_ok (h : on x l = (.ok a, l')) : on (x >>= f) l = on (f a) l' := by
  have hbind : on (x >>= f) l = (ExceptT.bindCont f (on x l).1).run (on x l).2 := rfl
  rw [hbind, h]
  rfl

theorem on_bind_error (h : on x l = (.error e, l')) : on (x >>= f) l = (.error e, l') := by
  have hbind : on (x >>= f) l = (ExceptT.bindCont f (on x l).1).run (on x l).2 := rfl
  rw [hbind, h]
  rfl

theorem on_get_bind (f : Loader → Load β) (l : Loader) : on (get >>= f) l = on (f l) l :=
  on_bind_ok (on_get l)

theorem on_tryCatch_ok {handle : IncludeError → Load α} (h : on x l = (.ok a, l')) :
    on (tryCatch x handle) l = (.ok a, l') := by
  have hrun : StateT.run x l = (.ok a, l') := h
  simp only [on, tryCatch, tryCatchThe, MonadExceptOf.tryCatch, ExceptT.tryCatch, ExceptT.run_mk,
    StateT.run_bind]
  rw [hrun]
  rfl

theorem on_tryCatch_error {handle : IncludeError → Load α} (h : on x l = (.error e, l')) :
    on (tryCatch x handle) l = on (handle e) l' := by
  have hrun : StateT.run x l = (.error e, l') := h
  simp only [on, tryCatch, tryCatchThe, MonadExceptOf.tryCatch, ExceptT.tryCatch, ExceptT.run_mk,
    StateT.run_bind]
  rw [hrun]
  rfl

end Load

open Load

namespace Loader

variable {l l' l'' : Loader}

/-- What every action keeps of a loader. -/
structure Grows (l l' : Loader) : Prop where
  settings : l'.settings = l.settings
  files : l'.files = l.files
  loading : l'.loading = l.loading
  units : ∀ name u, l.units.get? name = some u → l'.units.get? name = some u
  absent : ∀ name ∈ l.loading, l.units.get? name = none → l'.units.get? name = none

theorem Grows.refl (l : Loader) : Grows l l := ⟨rfl, rfl, rfl, fun _ _ => id, fun _ _ => id⟩

theorem Grows.trans (h : Grows l l') (h' : Grows l' l'') : Grows l l'' where
  settings := h'.settings.trans h.settings
  files := h'.files.trans h.files
  loading := h'.loading.trans h.loading
  units name u hu := h'.units name u (h.units name u hu)
  absent name hname hnone := h'.absent name (h.loading ▸ hname) (h.absent name hname hnone)

/-- A preorder of loaders in which the log may change and a unit may be stored. -/
class Lasting (R : Loader → Loader → Prop) : Prop where
  refl : ∀ l, R l l
  trans : ∀ {l l' l''}, R l l' → R l' l'' → R l l''
  log : ∀ l log, R l { l with log }
  toStore : ∀ name key u path deps l, R l (on (toStore name key u path deps) l).2

/-- The action leads from every loader to a related one, however it ends. -/
def Acts (R : Loader → Loader → Prop) {α : Type} (x : Load α) : Prop := ∀ l, R l (on x l).2

abbrev Growing {α : Type} (x : Load α) : Prop := Acts Grows x

variable {R : Loader → Loader → Prop} [Lasting R]

section Acts

variable {α β : Type} {x : Load α} {f : α → Load β}

theorem acts_pure (a : α) : Acts R (pure a) := Lasting.refl

theorem acts_throw (e : IncludeError) : Acts R (throw e : Load α) := Lasting.refl

theorem acts_get : Acts R get := Lasting.refl

theorem Acts.bind (hx : Acts R x) (hf : ∀ a, Acts R (f a)) : Acts R (x >>= f) := by
  intro l
  have hfirst := hx l
  rcases h : on x l with ⟨r, mid⟩
  rw [h] at hfirst
  cases r with
  | error e =>
    rw [on_bind_error h]
    exact hfirst
  | ok a =>
    rw [on_bind_ok h]
    exact Lasting.trans hfirst (hf a mid)

theorem Acts.tryCatch {handle : IncludeError → Load α} (hx : Acts R x)
    (hhandle : ∀ e, Acts R (handle e)) : Acts R (tryCatch x handle) := by
  intro l
  have hfirst := hx l
  rcases h : on x l with ⟨r, mid⟩
  rw [h] at hfirst
  cases r with
  | error e =>
    rw [on_tryCatch_error h]
    exact Lasting.trans hfirst (hhandle e mid)
  | ok a =>
    rw [on_tryCatch_ok h]
    exact hfirst

theorem acts_noteAll (es : List LogEntry) : Acts R (noteAll es) := fun l => Lasting.log l _

theorem acts_orFault (r : Except ModuleFault α) : Acts R (orFault r) := by
  cases r with
  | ok a => exact acts_pure a
  | error f => exact acts_throw _

theorem Acts.within (place : Bytes) (hx : Acts R x) : Acts R (within place x) :=
  hx.tryCatch fun _ => acts_throw _

theorem acts_toStore (name key : Bytes) (u : CodeUnit) (path : Path) (deps : List Bytes) :
    Acts R (toStore name key u path deps) :=
  Lasting.toStore name key u path deps

end Acts

/-! ## The store -/

theorem row_of_get {store : UnitStore} {key : Bytes} {a : Artifact} (h : store.get key = .ok a) :
    ∃ row, store.rows.get? key = some row ∧ a.code = row.code := by
  unfold UnitStore.get at h
  split at h
  · cases h
  · split at h
    · cases h
    · next row hrow =>
      refine ⟨row, hrow, ?_⟩
      unfold StoreRow.artifact at h
      split at h
      · cases h
      · split at h
        · cases h
        · cases h
          rfl

theorem decode_of_unit {a : Artifact} {u : CodeUnit} (h : a.unit = .ok u) :
    CodeUnit.decode a.code = .ok u := by
  unfold Artifact.unit at h
  split at h
  · next v hv =>
    cases h
    exact hv
  · cases h

/-- Looking for a unit changes the log only, and what is found was decoded from the row under the
key. -/
theorem fromStore_on (name key : Bytes) (deps : List Bytes) (l : Loader) : ∃ r log,
    on (fromStore name key deps) l = (.ok r, { l with log }) ∧
      ∀ u, r = some u → ∃ store row, l.store = some store ∧ store.rows.get? key = some row ∧
        CodeUnit.decode row.code = .ok u := by
  unfold fromStore
  rw [on_get_bind]
  split
  · exact ⟨none, l.log, rfl, nofun⟩
  · next store hstore =>
    split
    · exact ⟨none, l.log, rfl, nofun⟩
    · exact ⟨none, _, rfl, nofun⟩
    · next a ha =>
      split
      · exact ⟨none, _, rfl, nofun⟩
      · next u hu =>
        refine ⟨some u, _, rfl, ?_⟩
        rintro _ ⟨⟩
        obtain ⟨row, hrow, hcode⟩ := row_of_get ha
        obtain ⟨_, -, hunit⟩ := ok_bind.1 hu
        exact ⟨store, row, hstore, hrow, hcode ▸ decode_of_unit hunit⟩

theorem acts_fromStore (name key : Bytes) (deps : List Bytes) :
    Acts R (fromStore name key deps) := by
  intro l
  obtain ⟨r, log, h, -⟩ := fromStore_on name key deps l
  rw [h]
  exact Lasting.log l log

theorem acts_digested (name : Name) (u : CodeUnit) : Acts R (digested name u) := by
  refine acts_get.bind fun l => ?_
  split
  · exact acts_pure _
  · split
    · exact acts_pure _
    · exact acts_throw _

/-- Storing a unit changes the store, the ids and the log only. -/
theorem toStore_on (name key : Bytes) (u : CodeUnit) (path : Path) (deps : List Bytes)
    (l : Loader) : ∃ store nextId log,
      on (toStore name key u path deps) l = (.ok (), { l with store, nextId, log }) := by
  unfold toStore
  rw [on_get_bind]
  split
  · exact ⟨l.store, l.nextId, l.log, rfl⟩
  · split
    · exact ⟨l.store, l.nextId, _, rfl⟩
    · split
      · exact ⟨l.store, l.nextId, _, rfl⟩
      · exact ⟨_, _, l.log, rfl⟩

theorem fromStore_of_bare (h : l.store = none) (name key : Bytes) (deps : List Bytes) :
    on (fromStore name key deps) l = (.ok none, l) := by
  unfold fromStore
  rw [on_get_bind, h]
  rfl

theorem toStore_of_bare (h : l.store = none) (name key : Bytes) (u : CodeUnit) (path : Path)
    (deps : List Bytes) : on (toStore name key u path deps) l = (.ok (), l) := by
  unfold toStore
  rw [on_get_bind, h]
  rfl

theorem digested_of_bare (h : l.store = none) (name : Name) (u : CodeUnit) :
    on (digested name u) l = (.ok (u, []), l) := by
  unfold digested
  rw [on_get_bind, h]
  rfl

instance : Lasting Grows where
  refl := .refl
  trans := .trans
  log _ _ := ⟨rfl, rfl, rfl, fun _ _ => id, fun _ _ => id⟩
  toStore name key u path deps l := by
    obtain ⟨store, nextId, log, h⟩ := toStore_on name key u path deps l
    rw [h]
    exact ⟨rfl, rfl, rfl, fun _ _ => id, fun _ _ => id⟩

/-! ## Programs and their imports -/

section Programs

variable {load : Name → Load CodeUnit} (hload : ∀ name, Acts R (load name))

include hload

theorem acts_loadImports (path : Path) (prelude : Prelude) (names : List Name) :
    Acts R (loadImports load path prelude names) := by
  induction names generalizing prelude with
  | nil => exact acts_pure _
  | cons name rest ih =>
    exact (((hload name).bind (acts_digested name)).within _).bind fun _ =>
      (ih _).bind fun _ => acts_pure _

theorem acts_lower (o : CompileOptions) (body : List Node) (rounds : Nat) :
    Acts R (lower load o body rounds) := by
  induction rounds with
  | zero => exact acts_throw _
  | succ rounds ih =>
    refine acts_get.bind fun l => ?_
    cases CodeUnit.compile { o with includer := some (includer l.units) } (.program body) with
    | ok u => exact acts_pure u
    | error failure =>
      rcases hmissing : failure.missingImport? with _ | ⟨pos, name⟩
      · simp only [hmissing]
        exact acts_throw _
      · simp only [hmissing]
        exact ((hload name).tryCatch fun e => acts_throw _).bind fun _ => ih

theorem acts_provide (inputs : KeyInputs) (scratch : Scratch) (path : Path) (body : List Node) :
    Acts R (provide load inputs scratch path body) := by
  refine acts_get.bind fun l => (acts_fromStore _ _ _).bind fun found => ?_
  cases found with
  | some u => exact acts_pure u
  | none =>
    exact ((acts_lower hload _ _ _).within _).bind fun u =>
      (acts_toStore _ _ _ _ _).bind fun _ => acts_pure u

theorem acts_compileProgram (name : Name) (path : Path) (source : Bytes) (body : List Node) :
    Acts R (compileProgram load name path source body) := by
  refine acts_get.bind fun l => (acts_loadImports hload _ _ _).bind ?_
  rintro ⟨prelude, deps⟩
  exact (acts_noteAll _).bind fun _ => acts_provide hload _ _ _ _

theorem acts_compileAt (isEntry : Bool) (name : Name) (path : Path) :
    Acts R (compileAt load isEntry name path) := by
  refine acts_get.bind fun l => (acts_orFault _).bind ?_
  rintro ⟨source, body⟩
  exact acts_compileProgram hload _ _ _ _

end Programs

/-! ## Modules -/

def marked (l : Loader) (name : Name) : Loader := { l with loading := name :: l.loading }

def unmarked (l : Loader) (name : Name) : Loader :=
  { l with loading := l.loading.filter (· ≠ name) }

theorem whileLoading_on {α : Type} (name : Name) (x : Load α) (l : Loader) :
    on (whileLoading name x) l =
      ((on x (l.marked name)).1, (on x (l.marked name)).2.unmarked name) := by
  unfold whileLoading
  refine (on_bind_ok (on_modify _ l)).trans ?_
  rcases h : on x (l.marked name) with ⟨r, mid⟩
  cases r with
  | error e => exact on_bind_error (on_tryCatch_error h)
  | ok a => exact on_bind_ok (on_tryCatch_ok h)

def contents (depth : Nat) (files : FileTree) (name : Name) (path : Path) : Load CodeUnit :=
  if unitExtension.isSuffixOf path then orFault (readUnit files path)
  else compileAt (loadWithin depth) false name path

def enter (name : Name) (path : Path) (u : CodeUnit) : Load CodeUnit := do
  modify fun l => { l with units := l.units.insert name u, order := l.order ++ [name] }
  note (.loaded name path u.exports.size)
  return u

def entered (l : Loader) (name : Name) (path : Path) (u : CodeUnit) : Loader :=
  { l with
    units := l.units.insert name u
    order := l.order ++ [name]
    log := l.log ++ [.loaded name path u.exports.size] }

theorem enter_on (name : Name) (path : Path) (u : CodeUnit) (l : Loader) :
    on (enter name path u) l = (.ok u, l.entered name path u) := rfl

section Modules

variable {name : Name} {path : Path} {u : CodeUnit}

theorem Grows.unmarked (h : Grows (l.marked name) l') (hname : name ∉ l.loading) :
    Grows l (l'.unmarked name) where
  settings := h.settings
  files := h.files
  loading := by
    have hfilter : l.loading.filter (· ≠ name) = l.loading := by
      rw [List.filter_eq_self]
      intro other hother
      simpa using fun heq : other = name => hname (heq ▸ hother)
    have hself : (name :: l.loading).filter (· ≠ name) = l.loading.filter (· ≠ name) := by simp
    calc (l'.unmarked name).loading = (name :: l.loading).filter (· ≠ name) := by
          unfold Loader.unmarked
          rw [h.loading]
          rfl
      _ = l.loading := by rw [hself, hfilter]
  units := h.units
  absent other hother := h.absent other (List.mem_cons_of_mem _ hother)

theorem grows_whileLoading {α : Type} {x : Load α} (hx : Growing x)
    (hunit : l.units.get? name = none) (hname : name ∉ l.loading) :
    Grows l (on (whileLoading name x) l).2 ∧
      (on (whileLoading name x) l).2.units.get? name = none := by
  rw [whileLoading_on]
  have hgrows := hx (l.marked name)
  exact ⟨hgrows.unmarked hname, hgrows.absent name List.mem_cons_self hunit⟩

theorem grows_entered (h : l.units.get? name = none) (hname : name ∉ l.loading) :
    Grows l (l.entered name path u) where
  settings := rfl
  files := rfl
  loading := rfl
  units other v hv := by
    have hne : name ≠ other := by
      rintro rfl
      rw [h] at hv
      cases hv
    simpa [entered, hne] using hv
  absent other hother hnone := by
    have hne : name ≠ other := fun heq => hname (heq ▸ hother)
    simpa [entered, hne] using hnone

variable (depth : Nat)

theorem loadWithin_of_loaded (h : l.units.get? name = some u) :
    on (loadWithin (depth + 1) name) l = (.ok u, l) := by
  refine (on_get_bind _ l).trans ?_
  rw [h]
  rfl

theorem loadWithin_of_loading (h : l.units.get? name = none) (hloading : name ∈ l.loading) :
    on (loadWithin (depth + 1) name) l = (.error (.fault (.cycle name)), l) := by
  refine (on_get_bind _ l).trans ?_
  simp only [h, hloading, if_true]
  rfl

theorem loadWithin_of_missing {f : ModuleFault} (h : l.units.get? name = none)
    (hloading : name ∉ l.loading) (hfind : l.find name = .error f) :
    on (loadWithin (depth + 1) name) l = (.error (.fault f), l) := by
  refine (on_get_bind _ l).trans ?_
  simp only [h, hloading, if_false, hfind]
  rfl

theorem loadWithin_of_found (h : l.units.get? name = none) (hloading : name ∉ l.loading)
    (hfind : l.find name = .ok path) :
    on (loadWithin (depth + 1) name) l =
      on (whileLoading name (contents depth l.files name path) >>= enter name path) l := by
  refine (on_get_bind _ l).trans ?_
  simp only [h, hloading, if_false, hfind]
  rfl

theorem acts_contents (hload : ∀ name, Acts R (loadWithin depth name)) (files : FileTree)
    (name : Name) (path : Path) : Acts R (contents depth files name path) := by
  unfold contents
  split
  · exact acts_orFault _
  · exact acts_compileAt hload _ _ _

theorem growing_loadWithin (name : Name) : Growing (loadWithin depth name) := by
  induction depth generalizing name with
  | zero => exact acts_throw _
  | succ depth ih =>
    intro l
    rcases hunit : l.units.get? name with _ | u
    · by_cases hloading : name ∈ l.loading
      · rw [loadWithin_of_loading depth hunit hloading]
        exact .refl l
      · rcases hfind : l.find name with f | path
        · rw [loadWithin_of_missing depth hunit hloading hfind]
          exact .refl l
        · rw [loadWithin_of_found depth hunit hloading hfind]
          have hgrows := grows_whileLoading (acts_contents depth ih l.files name path) hunit
            hloading
          rcases hrun : on (whileLoading name (contents depth l.files name path)) l with ⟨r, mid⟩
          rw [hrun] at hgrows
          cases r with
          | error e =>
            rw [on_bind_error hrun]
            exact hgrows.1
          | ok u =>
            rw [on_bind_ok hrun, enter_on]
            have hnot : name ∉ mid.loading := by rwa [hgrows.1.loading]
            exact hgrows.1.trans (grows_entered hgrows.2 hnot)
    · rw [loadWithin_of_loaded depth hunit]
      exact .refl l

end Modules

end Loader

end UnitScript
