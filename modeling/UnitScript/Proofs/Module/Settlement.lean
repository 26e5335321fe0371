import UnitScript.Proofs.Lowering.Demand
import UnitScript.Proofs.Module.Growth

/-!
# The order in which modules are completed

A loader without a store lists the modules in the order of completion, each one behind all that it
imports, at its top level or further inside. Every action keeps this up, whether it succeeds or fails:
a unit is only added after its program was compiled, and the program is not compiled before all its
imports are at hand.
-/

namespace UnitScript

open Load

namespace Loader

/-- The names that a module imports, at its top level or further inside. A module that was compiled
before imports nothing, and neither does one that is not to be had. -/
def importsOf (l : Loader) (name : Name) : List Name :=
  match l.find name with
  | .error _ => []
  | .ok path =>
    if unitExtension.isSuffixOf path then []
    else
      match readSource l.files path with
      | .error _ => []
      | .ok (_, body) => Node.importsOfAll body

/-- There is no store, the loaded modules are listed once each, and what a module imports stands in
front of it. -/
structure Ordered (l : Loader) : Prop where
  bare : l.store = none
  nodup : l.order.Nodup
  listed : ∀ name, name ∈ l.order ↔ (l.units.get? name).isSome = true
  earlier : ∀ before name after, l.order = before ++ name :: after →
    ∀ other ∈ l.importsOf name, other ∈ before

variable {l l' : Loader} {name : Name} {path : Path} {u : CodeUnit}

theorem ordered_start (settings : LoaderSettings) (files : FileTree) :
    Ordered { settings, files } where
  bare := rfl
  nodup := List.nodup_nil
  listed := by simp [NameMap.empty, NameMap.get?, NameMap.findEntry]
  earlier := by simp

/-- A unit is added behind those that its module imports. -/
theorem Ordered.entered (h : Ordered l) (hnone : l.units.get? name = none)
    (himports : ∀ other ∈ l.importsOf name, (l.units.get? other).isSome = true) :
    Ordered (l.entered name path u) where
  bare := h.bare
  nodup := by
    have hnew : name ∉ l.order := by
      rw [h.listed, hnone]
      simp
    refine List.nodup_append.2 ⟨h.nodup, by simp, ?_⟩
    rintro other hother _ hname rfl
    exact hnew (List.mem_singleton.1 hname ▸ hother)
  listed other := by
    simp only [Loader.entered, List.mem_append, List.mem_singleton, h.listed]
    by_cases heq : name = other
    · simp [heq]
    · simp [heq, Ne.symm heq]
  earlier := by
    intro before other after horder
    rcases List.eq_nil_or_concat after with rfl | ⟨front, last, rfl⟩
    · obtain ⟨rfl, hlast⟩ := List.append_inj' horder rfl
      cases hlast
      intro m hm
      exact (h.listed m).2 (himports m hm)
    · have hsplit : l.order ++ [name] = (before ++ other :: front) ++ [last] := by
        simpa [Loader.entered] using horder
      exact h.earlier before other front (List.append_inj' hsplit rfl).1

def noted (l : Loader) (es : List LogEntry) : Loader := { l with log := l.log ++ es }

theorem noteAll_on (es : List LogEntry) (l : Loader) : on (noteAll es) l = (.ok (), l.noted es) := rfl

theorem ordered_noted (h : Ordered l) (es : List LogEntry) : Ordered (l.noted es) :=
  ⟨h.bare, h.nodup, h.listed, h.earlier⟩

abbrev Keeps {α : Type} (x : Load α) : Prop := Acts (fun l l' => Ordered l → Ordered l') x

instance : Lasting (fun l l' => Ordered l → Ordered l') where
  refl _ := id
  trans h h' hl := h' (h hl)
  log _ _ h := ⟨h.bare, h.nodup, h.listed, h.earlier⟩
  toStore _ _ _ _ _ _ h := by
    rw [toStore_of_bare h.bare]
    exact h

/-! ## Programs -/

section Programs

variable {load : Name → Load CodeUnit} (hload : ∀ name, Keeps (load name))

include hload

theorem provide_on (inputs : KeyInputs) (scratch : Scratch) (body : List Node) (hl : Ordered l) :
    on (provide load inputs scratch path body) l =
      on (within path (lower load { name := inputs.name, prelude := inputs.prelude, scratch } body
        ((Node.importsOfAll body).length + 1))) l := by
  unfold provide
  rw [on_get_bind]
  refine (on_bind_ok (fromStore_of_bare hl.bare _ _ _)).trans ?_
  have hkept := (acts_lower hload { name := inputs.name, prelude := inputs.prelude, scratch } body
    ((Node.importsOfAll body).length + 1)).within path l hl
  rcases hrun : on (within path (lower load
    { name := inputs.name, prelude := inputs.prelude, scratch } body
    ((Node.importsOfAll body).length + 1))) l with ⟨r, mid⟩
  rw [hrun] at hkept
  cases r with
  | error e => exact on_bind_error hrun
  | ok u => exact (on_bind_ok hrun).trans ((on_bind_ok (toStore_of_bare hkept.bare _ _ _ _ _)).trans rfl)

omit hload in
theorem at_hand_of_lower {o : CompileOptions} {body : List Node} {rounds : Nat}
    (h : on (lower load o body rounds) l = (.ok u, l')) :
    ∀ other ∈ Node.importsOfAll body, (l'.units.get? other).isSome = true := by
  induction rounds generalizing l with
  | zero => cases h
  | succ rounds ih =>
    rw [lower, on_get_bind] at h
    cases hcompile : CodeUnit.compile { o with includer := some (includer l.units) }
        (.program body) with
    | ok v =>
      rw [hcompile] at h
      cases h
      exact CodeUnit.imports_at_hand hcompile
    | error failure =>
      rw [hcompile] at h
      rcases hmissing : failure.missingImport? with _ | ⟨pos, name⟩
      · simp only [hmissing] at h
        cases h
      · simp only [hmissing] at h
        rcases hfirst : on (tryCatch (load name) fun e =>
          throw (.compile (.because .unresolvedSymbol pos (.inclusion e)))) l with ⟨r, mid⟩
        cases r with
        | error e =>
          rw [on_bind_error hfirst] at h
          cases h
        | ok v =>
          rw [on_bind_ok hfirst] at h
          exact ih h

omit hload in
theorem on_within_ok {α : Type} {x : Load α} {place : Bytes} {a : α}
    (h : on (within place x) l = (.ok a, l')) : on x l = (.ok a, l') := by
  unfold within at h
  rcases hrun : on x l with ⟨r, mid⟩
  cases r with
  | error e =>
    rw [on_tryCatch_error hrun] at h
    cases h
  | ok b =>
    rw [on_tryCatch_ok hrun] at h
    exact h

theorem at_hand_of_compileProgram {source : Bytes} {body : List Node} (hl : Ordered l)
    (h : on (compileProgram load name path source body) l = (.ok u, l')) :
    ∀ other ∈ Node.importsOfAll body, (l'.units.get? other).isSome = true := by
  rw [compileProgram, on_get_bind] at h
  have hkept := acts_loadImports hload path l.settings.prelude (Program.topImports body) l hl
  rcases hrun : on (loadImports load path l.settings.prelude (Program.topImports body)) l with
    ⟨r, mid⟩
  rw [hrun] at hkept
  cases r with
  | error e =>
    rw [on_bind_error hrun] at h
    cases h
  | ok made =>
    obtain ⟨prelude, deps⟩ := made
    rw [on_bind_ok hrun] at h
    simp only [on_bind_ok (noteAll_on _ mid)] at h
    rw [provide_on hload _ _ _ (ordered_noted hkept _)] at h
    exact at_hand_of_lower (on_within_ok h)

end Programs

/-! ## Modules -/

theorem ordered_marked (h : Ordered l) (name : Name) : Ordered (l.marked name) :=
  ⟨h.bare, h.nodup, h.listed, h.earlier⟩

theorem ordered_unmarked (h : Ordered l) (name : Name) : Ordered (l.unmarked name) :=
  ⟨h.bare, h.nodup, h.listed, h.earlier⟩

section Modules

variable {depth : Nat} (hload : ∀ name, Keeps (loadWithin depth name))

include hload

theorem at_hand_of_contents (hl : Ordered l) (hfind : l.find name = .ok path)
    (h : on (contents depth l.files name path) (l.marked name) = (.ok u, l')) :
    ∀ other ∈ l.importsOf name, (l'.units.get? other).isSome = true := by
  intro other hother
  simp only [importsOf, hfind] at hother
  unfold contents at h
  split at hother
  · cases hother
  · next hunit =>
    rw [if_neg hunit, compileAt, on_get_bind] at h
    split at hother
    · cases hother
    · next source body hread =>
      have horFault : on (orFault (readSource (l.marked name).files path)) (l.marked name) =
          (.ok (source, body), l.marked name) := by
        have hfiles : (l.marked name).files = l.files := rfl
        rw [hfiles, hread]
        rfl
      rw [on_bind_ok horFault] at h
      exact at_hand_of_compileProgram hload (ordered_marked hl name) h other hother

end Modules

theorem importsOf_eq (hsettings : l'.settings = l.settings) (hfiles : l'.files = l.files)
    (name : Name) : l'.importsOf name = l.importsOf name := by
  have hfind : l'.find name = l.find name := by
    unfold find
    rw [hsettings, hfiles]
  unfold importsOf
  rw [hfind, hfiles]

theorem keeps_loadWithin (depth : Nat) (name : Name) : Keeps (loadWithin depth name) := by
  induction depth generalizing name with
  | zero => exact acts_throw _
  | succ depth ih =>
    intro l hl
    rcases hunit : l.units.get? name with _ | u
    · by_cases hloading : name ∈ l.loading
      · rw [loadWithin_of_loading depth hunit hloading]
        exact hl
      · rcases hfind : l.find name with f | path
        · rw [loadWithin_of_missing depth hunit hloading hfind]
          exact hl
        · rw [loadWithin_of_found depth hunit hloading hfind]
          have hgrows := acts_contents depth (growing_loadWithin depth) l.files name path
            (l.marked name)
          have hkept := acts_contents depth ih l.files name path _ (ordered_marked hl name)
          have hwhile := whileLoading_on name (contents depth l.files name path) l
          rcases hrun : on (contents depth l.files name path) (l.marked name) with ⟨r, mid⟩
          rw [hrun] at hgrows hkept hwhile
          cases r with
          | error e =>
            rw [on_bind_error hwhile]
            exact ordered_unmarked hkept name
          | ok u =>
            rw [on_bind_ok hwhile, enter_on]
            have hnone : mid.units.get? name = none :=
              hgrows.absent name List.mem_cons_self hunit
            refine (ordered_unmarked hkept name).entered hnone fun other hother => ?_
            have hsame : (mid.unmarked name).importsOf name = l.importsOf name :=
              importsOf_eq hgrows.settings hgrows.files name
            exact at_hand_of_contents ih hl hfind hrun other (hsame ▸ hother)
    · rw [loadWithin_of_loaded depth hunit]
      exact hl

end Loader

end UnitScript
