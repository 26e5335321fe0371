import UnitScript.Proofs.Module.Twins

/-!
# Sessions with a store answer as sessions without

A session is a sequence of acts: files are edited, a new loader takes over the store, modules are
loaded and entry files compiled. With a hash without collisions, the answers are the same with a
store and without, provided that

* every import stands at the top level of its program, since the key has no digests of others;
* the units are representable, since another unit may be read back than was stored;
* all loaders have the same prelude, or no zero bytes hide where it begins.
-/

namespace UnitScript

open Load

namespace Loader

/-- What happens in the course of a session. -/
inductive Act where
  | edit (files : FileTree)
  /-- A new loader takes over the files and the store. -/
  | renew (settings : LoaderSettings)
  | load (name : Name)
  | compile (name : Name) (path : Path)

/-- The answer of the loader, where one is asked for, and the loader after the act. -/
def Act.run : Act → Loader → Option (Except IncludeError CodeUnit) × Loader
  | edit files, l => (none, { l with files })
  | renew settings, l => (none, { l.fresh with settings })
  | load name, l => (some (l.load name).1, (l.load name).2)
  | compile name path, l => (some (l.compileFile name path).1, (l.compileFile name path).2)

def outcomes : Loader → List Act → List (Option (Except IncludeError CodeUnit) × Loader)
  | _, [] => []
  | l, act :: acts => act.run l :: outcomes (act.run l).2 acts

def answers (l : Loader) (acts : List Act) : List (Option (Except IncludeError CodeUnit)) :=
  (outcomes l acts).map (·.1)

/-- What is asked of an act. -/
def Act.Orderly (common : Option Prelude) : Act → Prop
  | edit files => files.Orderly common
  | renew settings => settings.Orderly common
  | load _ => True
  | compile name _ => 0 ∉ name

/-- What is asked of an outcome: the units that are given as an answer or kept by the loader are
representable. -/
structure Fits (common : Option Prelude) (o : Option (Except IncludeError CodeUnit) × Loader) :
    Prop where
  answer : ∀ r ∈ o.1, ∀ u ∈ r.toOption, u.Representable
  units : ∀ e ∈ o.2.units.entries, e.2.Representable
  exports : common = none → ∀ e ∈ o.2.units.entries, ∀ x ∈ e.2.exports.entries, 0 ∉ x.1

instance (common : Option Prelude) (o : Option (Except IncludeError CodeUnit) × Loader) :
    Decidable (Fits common o) :=
  decidable_of_iff ((∀ r ∈ o.1, ∀ u ∈ r.toOption, u.Representable) ∧
      (∀ e ∈ o.2.units.entries, e.2.Representable) ∧
      (common = none → ∀ e ∈ o.2.units.entries, ∀ x ∈ e.2.exports.entries, 0 ∉ x.1))
    ⟨fun ⟨h₁, h₂, h₃⟩ => ⟨h₁, h₂, h₃⟩, fun ⟨h₁, h₂, h₃⟩ => ⟨h₁, h₂, h₃⟩⟩

variable {hash : Bytes → Bytes} {common : Option Prelude} {c l : Loader}

theorem Fits.storable {o : Option (Except IncludeError CodeUnit) × Loader} (h : Fits common o) :
    Storable common o.2.units where
  representable _ _ hu := h.units _ (NameMap.mem_of_get? hu)
  exports hcommon _ _ hu := h.exports hcommon _ (NameMap.mem_of_get? hu)

theorem load_on (l : Loader) (name : Name) :
    l.load name = on (loadWithin l.maxDepth name) l := rfl

theorem compileFile_on (l : Loader) (name : Name) (path : Path) :
    l.compileFile name path = on (compileAt (loadWithin l.maxDepth) true name path) l := rfl

theorem Twins.maxDepth (h : Twins hash common c l) : c.maxDepth = l.maxDepth := by
  unfold Loader.maxDepth
  rw [h.settings, h.files]

theorem Alike.eq {α : Type} {R : α → α → Prop} {r q : Except IncludeError α} (h : Alike R r q)
    (hR : ∀ a b, q = .ok b → R a b → a = b) : r = q := by
  cases h with
  | ok hab => rw [hR _ _ rfl hab]
  | error e => rfl

/-- An act has the same answer on twins, and they are twins after it. -/
theorem Twins.run (hhash : Function.Injective hash) (h : Twins hash common c l) {act : Act}
    (hact : act.Orderly common) (hfits : Fits common (act.run l)) :
    (act.run c).1 = (act.run l).1 ∧ Twins hash common (act.run c).2 (act.run l).2 := by
  have hload : Mirrored hash common (loadWithin l.maxDepth) := mirrored_loadWithin hhash _ _
  cases act with
  | edit files =>
    exact ⟨rfl, h.settings, rfl, h.units, h.loading, h.bare, h.store, h.names, h.plain, h.orderly,
      hact⟩
  | renew settings =>
    exact ⟨rfl, rfl, h.files, rfl, rfl, h.bare, h.store, nofun, nofun, hact, h.sources⟩
  | load name =>
    have hfollows := hload.follows name c l h hfits.storable
    simp only [Act.run, load_on, h.maxDepth]
    exact ⟨congrArg some (hfollows.2.eq fun _ _ _ hR => hR.1), hfollows.1⟩
  | compile name path =>
    have hfollows := hload.compileAt hhash hact h true path hfits.storable
    have hanswer := hfits.answer
    simp only [Act.run, compileFile_on, h.maxDepth] at hanswer ⊢
    refine ⟨congrArg some (hfollows.2.eq fun u v hv hagree => hagree.2 ?_), hfollows.1⟩
    exact hanswer _ rfl v (by rw [hv]; rfl)

theorem Twins.answers_eq (hhash : Function.Injective hash) (h : Twins hash common c l)
    {acts : List Act} (hacts : ∀ act ∈ acts, act.Orderly common)
    (hfits : ∀ o ∈ outcomes l acts, Fits common o) : answers c acts = answers l acts := by
  induction acts generalizing c l with
  | nil => rfl
  | cons act acts ih =>
    rw [List.forall_mem_cons] at hacts
    rw [outcomes, List.forall_mem_cons] at hfits
    obtain ⟨hanswer, hnext⟩ := h.run hhash hacts.1 hfits.1
    have hrest := ih hnext hacts.2 hfits.2
    unfold answers at hrest ⊢
    rw [outcomes, outcomes, List.map_cons, List.map_cons, hanswer, hrest]

/-- A session that starts with an empty store has the answers of the same session without one. -/
theorem answers_with_store {settings : LoaderSettings} {files : FileTree} {acts : List Act}
    (hhash : Function.Injective hash) (hsettings : settings.Orderly common)
    (hfiles : files.Orderly common) (hacts : ∀ act ∈ acts, act.Orderly common)
    (hfits : ∀ o ∈ outcomes { settings, files } acts, Fits common o) :
    answers { settings, files, store := some { hash } } acts = answers { settings, files } acts := by
  have hstart : Twins hash common { settings, files, store := some { hash } } { settings, files } :=
    ⟨rfl, rfl, rfl, rfl, rfl, ⟨_, rfl, rfl, nofun⟩, nofun, nofun, hsettings, hfiles⟩
  exact hstart.answers_eq hhash hacts hfits

/-! ## An edited library -/

def sampleFiles (main lib : Bytes) : FileTree where
  entries := .ofList
    [(Bytes.ofString "/lib.myst", .file lib), (Bytes.ofString "/main.myst", .file main)]

def sampleSettings : LoaderSettings := { includeDirs := [Path.dot] }

def oldLibrary : Bytes := Bytes.ofString "func g() \x7b return 1; \x7d"

def newLibrary : Bytes := Bytes.ofString "func g() \x7b return 2; \x7d"

def sampleLoader (main : Bytes) (store : Option UnitStore) : Loader :=
  { settings := sampleSettings, files := sampleFiles main oldLibrary, store }

def compileMain : Act := .compile (Bytes.ofString "main") (Bytes.ofString "main.myst")

/-- The library is edited between two compilations of the main file. -/
def editedLibrary (main : Bytes) : List Act :=
  [compileMain, .edit (sampleFiles main newLibrary), .renew sampleSettings, compileMain]

theorem orderly_sampleFiles {main lib : Bytes} (p : Prelude)
    (hmain : Program.ImportsAtTop (Program.ofSource main).1)
    (hlib : Program.ImportsAtTop (Program.ofSource lib).1) :
    (sampleFiles main lib).Orderly (some p) where
  imports := by
    rintro source body ⟨path, hpath⟩ hparsed
    have hbody : Program.ImportsAtTop (Program.ofSource source).1 := by
      have hfiles := NameMap.mem_of_mem_ofList hpath
      simp only [List.mem_cons, List.not_mem_nil, or_false, Prod.mk.injEq, FileEntry.file.injEq]
        at hfiles
      rcases hfiles with ⟨-, rfl⟩ | ⟨-, rfl⟩
      · exact hlib
      · exact hmain
    rwa [hparsed] at hbody
  separate := nofun

def topImport : Bytes := Bytes.ofString "import lib; return g();"

def topImportActs : List Act := editedLibrary topImport ++ [.renew sampleSettings, compileMain]

def hits (l : Loader) : List Name :=
  l.log.filterMap fun
    | .hit name _ => some name
    | _ => none

/-- The last of three compilations takes both units from the store. -/
theorem topImport_answers :
    sampleSettings.Orderly (some .empty) ∧
      (sampleFiles topImport oldLibrary).Orderly (some .empty) ∧
      (∀ act ∈ topImportActs, act.Orderly (some .empty)) ∧
      (∀ o ∈ outcomes (sampleLoader topImport none) topImportActs, Fits (some .empty) o) ∧
      (outcomes (sampleLoader topImport (some { hash := id })) topImportActs).map (hits ·.2) =
        [[], [], [], [], [], [Bytes.ofString "lib", Bytes.ofString "main"]] ∧
      answers (sampleLoader topImport (some { hash := id })) topImportActs =
        answers (sampleLoader topImport none) topImportActs := by
  have hmain : Program.ImportsAtTop (Program.ofSource topImport).1 := by decide +kernel
  have hold : Program.ImportsAtTop (Program.ofSource oldLibrary).1 := by decide +kernel
  have hnew : Program.ImportsAtTop (Program.ofSource newLibrary).1 := by decide +kernel
  have hsettings : sampleSettings.Orderly (some .empty) :=
    ⟨fun p hp => Option.some.inj hp, by decide +kernel, nofun⟩
  have hfiles := orderly_sampleFiles .empty hmain hold
  have hname : 0 ∉ Bytes.ofString "main" := by decide
  have hacts : ∀ act ∈ topImportActs, act.Orderly (some .empty) := by
    simp only [topImportActs, editedLibrary, List.cons_append, List.nil_append,
      List.forall_mem_cons]
    exact ⟨hname, orderly_sampleFiles _ hmain hnew, hsettings, hname, hsettings, hname,
      fun act hact => absurd hact List.not_mem_nil⟩
  have hfits : ∀ o ∈ outcomes (sampleLoader topImport none) topImportActs,
      Fits (some .empty) o := by decide +kernel
  exact ⟨hsettings, hfiles, hacts, hfits, by decide +kernel,
    answers_with_store Function.injective_id hsettings hfiles hacts hfits⟩

def nestedImport : Bytes := Bytes.ofString "if 1 \x7b import lib; \x7d"

/-- The code in an answer, in its binary form. -/
def codeOf (r : Option (Except IncludeError CodeUnit)) : Option Bytes :=
  r.bind fun r => r.toOption.bind fun u => u.encode.toOption

/-- An import in a branch is not in the key: after the library was edited, the main file is answered
from the store, with the old code of the library in it. -/
theorem nestedImport_answers_differ :
    answers (sampleLoader nestedImport (some { hash := id })) (editedLibrary nestedImport) ≠
      answers (sampleLoader nestedImport none) (editedLibrary nestedImport) := by
  have hcode :
      (answers (sampleLoader nestedImport (some { hash := id })) (editedLibrary nestedImport)).map
          codeOf ≠
        (answers (sampleLoader nestedImport none) (editedLibrary nestedImport)).map codeOf := by
    decide +kernel
  exact fun h => hcode (by rw [h])

end Loader

end UnitScript
