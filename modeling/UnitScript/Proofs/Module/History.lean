import Mathlib.Logic.Relation
import UnitScript.Proofs.Module.Transparency
import UnitScript.Proofs.Module.Unbounded

/-!
# Histories of loads

What holds of a loader without a store after any sequence of loads, whichever of them fail: nothing is
left marked as being loaded, the modules stand in the order of completion behind all that they import,
no unit is ever replaced, no module is loaded that comes to import itself, and the next load comes to an
end.
-/

namespace UnitScript

open Load

namespace Loader

variable {l : Loader} {a b name : Name}

def afterLoads (l : Loader) (names : List Name) : Loader :=
  names.foldl (fun l name => (l.load name).2) l

structure Resting (l : Loader) : Prop where
  ordered : Ordered l
  loading : l.loading = []

theorem Resting.load (h : Resting l) (name : Name) : Resting (l.load name).2 := by
  rw [load_on]
  exact ⟨keeps_loadWithin _ _ l h.ordered, (growing_loadWithin _ _ l).loading.trans h.loading⟩

theorem Resting.afterLoads (h : Resting l) (names : List Name) : Resting (l.afterLoads names) := by
  induction names generalizing l with
  | nil => exact h
  | cons name rest ih => exact ih (h.load name)

theorem Resting.ready (h : Resting l) (name : Name) : Ready l.maxDepth l name where
  nodup := by
    rw [h.loading]
    exact List.nodup_nil
  mentioned := by simp [h.loading]
  named hne := absurd h.loading hne
  depth := by
    unfold maxDepth
    omega

theorem grows_afterLoads (l : Loader) (names : List Name) : Grows l (l.afterLoads names) := by
  induction names generalizing l with
  | nil => exact .refl l
  | cons name rest ih =>
    have hfirst : Grows l (l.load name).2 := by
      rw [load_on]
      exact growing_loadWithin _ _ l
    exact hfirst.trans (ih _)

theorem load_of_loaded {u : CodeUnit} (h : l.units.get? name = some u) : l.load name = (.ok u, l) := by
  rw [load_on]
  exact loadWithin_of_loaded _ h

theorem Ordered.idxOf_lt (h : Ordered l) (ha : a ∈ l.order) (hb : b ∈ l.importsOf a) :
    b ∈ l.order ∧ l.order.idxOf b < l.order.idxOf a := by
  obtain ⟨front, back, horder, hfirst⟩ := List.eq_append_cons_of_mem ha
  have hfront : b ∈ front := h.earlier front a back horder b hb
  rw [horder]
  refine ⟨List.mem_append_left _ hfront, ?_⟩
  rw [List.idxOf_append_of_mem hfront, List.idxOf_append_of_notMem hfirst, List.idxOf_cons_self]
  exact Nat.lt_of_lt_of_le (List.idxOf_lt_length_of_mem hfront) (Nat.le_add_right _ _)

theorem Ordered.acyclic (h : Ordered l)
    (hcycle : Relation.TransGen (fun a b => b ∈ l.importsOf a) a a) : a ∉ l.order := by
  intro ha
  have hpath : ∀ b, Relation.TransGen (fun a b => b ∈ l.importsOf a) a b →
      b ∈ l.order ∧ l.order.idxOf b < l.order.idxOf a := by
    intro b hb
    induction hb with
    | single hstep => exact h.idxOf_lt ha hstep
    | tail _ hstep ih =>
      obtain ⟨hmem, hlt⟩ := h.idxOf_lt ih.1 hstep
      exact ⟨hmem, Nat.lt_trans hlt ih.2⟩
  exact Nat.lt_irrefl _ (hpath a hcycle).2

/-- After any sequence of loads without a store: the next load ends within the bounds; nothing is marked
as being loaded; the order lists the loaded modules, each once and behind all that it imports; every
unit at hand stays the answer for its name; and a module that comes to import itself is not loaded. -/
theorem loads_invariant (settings : LoaderSettings) (files : FileTree) (names : List Name) :
    let l : Loader := afterLoads { settings, files } names
    (∀ name, Errand.load name l = some (l.load name)) ∧
      l.loading = [] ∧
      l.order.Nodup ∧
      (∀ name, name ∈ l.order ↔ (l.units.get? name).isSome = true) ∧
      (∀ name u later, l.units.get? name = some u →
        (l.afterLoads later).load name = (.ok u, l.afterLoads later)) ∧
      (∀ before name after, l.order = before ++ name :: after →
        ∀ other ∈ l.importsOf name, other ∈ before) ∧
      (∀ name, Relation.TransGen (fun a b => b ∈ l.importsOf a) name name →
        l.units.get? name = none) := by
  intro l
  have hrest : Resting l := Resting.afterLoads ⟨ordered_start settings files, rfl⟩ names
  refine ⟨fun name => ?_, hrest.loading, hrest.ordered.nodup, hrest.ordered.listed, ?_,
    hrest.ordered.earlier, ?_⟩
  · rw [load_on]
    exact load_unbounded _ hrest.ordered (hrest.ready name)
  · intro name u later hu
    exact load_of_loaded ((grows_afterLoads l later).units name u hu)
  · intro name hcycle
    have hnot := hrest.ordered.acyclic hcycle
    rw [hrest.ordered.listed] at hnot
    exact Option.not_isSome_iff_eq_none.1 hnot

/-! ## A module that imports itself further inside -/

def ringFiles : FileTree where
  entries := .ofList
    [(Bytes.ofString "/lib.myst", .file (Bytes.ofString "func g() \x7b return 1; \x7d")),
      (Bytes.ofString "/main.myst", .file (Bytes.ofString "func f() \x7b import lib; \x7d")),
      (Bytes.ofString "/ring.myst", .file (Bytes.ofString "import lib; if 1 \x7b import ring; \x7d"))]

/-- The ring is refused, the library that it has loaded is kept, and then the main file is loaded. -/
def ringLoader : Loader :=
  afterLoads { settings := sampleSettings, files := ringFiles }
    [Bytes.ofString "ring", Bytes.ofString "main"]

theorem ring_not_loaded :
    ringLoader.order = [Bytes.ofString "lib", Bytes.ofString "main"] ∧
      ringLoader.importsOf (Bytes.ofString "main") = [Bytes.ofString "lib"] ∧
      Bytes.ofString "ring" ∈ ringLoader.importsOf (Bytes.ofString "ring") ∧
      ringLoader.units.get? (Bytes.ofString "ring") = none ∧
      Bytes.ofString "lib" ∈ [Bytes.ofString "lib"] ∧
      ∃ u, ringLoader.units.get? (Bytes.ofString "lib") = some u ∧
        (ringLoader.afterLoads [Bytes.ofString "ring"]).load (Bytes.ofString "lib") =
          (.ok u, ringLoader.afterLoads [Bytes.ofString "ring"]) := by
  obtain ⟨-, -, -, -, hkept, hearlier, hcycle⟩ := loads_invariant sampleSettings ringFiles
    [Bytes.ofString "ring", Bytes.ofString "main"]
  have hchecks : ringLoader.order = [Bytes.ofString "lib", Bytes.ofString "main"] ∧
      ringLoader.importsOf (Bytes.ofString "main") = [Bytes.ofString "lib"] ∧
      Bytes.ofString "ring" ∈ ringLoader.importsOf (Bytes.ofString "ring") ∧
      (ringLoader.units.get? (Bytes.ofString "lib")).isSome = true := by
    decide +kernel
  obtain ⟨horder, hmain, hring, hlib⟩ := hchecks
  obtain ⟨u, hu⟩ := Option.isSome_iff_exists.1 hlib
  have hmem : Bytes.ofString "lib" ∈ ringLoader.importsOf (Bytes.ofString "main") := by
    rw [hmain]
    exact List.mem_singleton_self _
  exact ⟨horder, hmain, hring, hcycle _ (.single hring), hearlier [_] _ [] horder _ hmem, u, hu,
    hkept _ u _ hu⟩

end Loader

end UnitScript
