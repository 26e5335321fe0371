import Mathlib.Data.List.Perm.Subperm
import UnitScript.Proofs.Module.Settlement
import UnitScript.Proofs.Module.Twins
import UnitScript.Proofs.Syntax.Silence
import UnitScript.Proofs.Syntax.Spelling

/-!
# Loading without bounds

Loading counts down a bound on the modules that are loaded one inside the other, and compiling one on
the imports that are found to be missing. Here both stand without a bound, for loaders without a store;
`none` is what never ends. The bounds are never met: a module that is loaded inside of another is named
by an import in some file, no name is loaded inside of itself, and after each round of compilation one
more import is at hand.
-/

namespace UnitScript

open Load

theorem Program.length_imports_ofSource_le (source : Bytes) :
    (Node.importsOfAll (ofSource source).1).length ≤ source.length := by
  let start : ParseState := ⟨(Token.scanBytes source).tokens, (Token.scanBytes source).eof, []⟩
  have hrun := (Parser.run_program start.whole start).length
  have htokens := Token.length_scanBytes_le source
  have hbody : (ofSource source).1 = (Parser.program start).1 := rfl
  have hrest : start.rest.length = (Token.scanBytes source).tokens.length := rfl
  rw [hbody]
  omega

theorem Program.mem_importsOfAll_of_topImports {name : Name} {body : List Node}
    (h : name ∈ topImports body) : name ∈ Node.importsOfAll body := by
  obtain ⟨n, hn, himported⟩ := List.mem_filterMap.1 (mem_newNames.1 h).1
  have himports : n.imports = [name] := by
    cases n with
    | importUnit pos other =>
      cases himported
      rfl
    | _ => cases himported
  obtain ⟨front, back, rfl⟩ := List.append_of_mem hn
  rw [Node.importsOfAll_append, Node.importsOfAll, himports]
  simp

def FileEntry.imports : FileEntry → List Name
  | .file content => Node.importsOfAll (Program.ofSource content).1
  | .folder => []

namespace FileTree

variable {files : FileTree}

def mentions (files : FileTree) : List Name := files.entries.entries.flatMap (·.2.imports)

theorem mem_mentions {content : Bytes} {name : Name} (h : files.Holds content)
    (hname : name ∈ Node.importsOfAll (Program.ofSource content).1) : name ∈ files.mentions := by
  obtain ⟨path, hpath⟩ := h
  exact List.mem_flatMap.2 ⟨_, hpath, hname⟩

theorem length_mentions_le (files : FileTree) : files.mentions.length ≤ files.totalSize := by
  have hfold : ∀ (add : Nat → Path × FileEntry → Nat),
      (∀ n e, n + e.2.imports.length ≤ add n e) → ∀ (es : List (Path × FileEntry)) (n : Nat),
        n + (es.flatMap (·.2.imports)).length ≤ es.foldl add n := by
    intro add hadd es
    induction es with
    | nil => exact fun n => Nat.le_refl n
    | cons e rest ih =>
      intro n
      rw [List.flatMap_cons, List.length_append, ← Nat.add_assoc, List.foldl_cons]
      exact Nat.le_trans (Nat.add_le_add_right (hadd n e) _) (ih _)
  unfold totalSize
  refine Nat.le_trans (Nat.le_of_eq (Nat.zero_add _).symm) (hfold _ ?_ files.entries.entries 0)
  rintro n ⟨path, entry⟩
  cases entry with
  | file content => exact Nat.add_le_add_left (Program.length_imports_ofSource_le content) n
  | folder => exact Nat.le_refl n

end FileTree

namespace Loader

/-- An action on a loader that need not come to an end. -/
abbrev Errand := StateT Loader Option

namespace Errand

-- Calls of what is being defined are given by `apply`, which keeps no source positions in the terms.

mutual

/-- The unit of a module, which is loaded on first use. -/
def load (name : Name) : Errand (Except IncludeError CodeUnit) := do
  let l ← get
  match l.units.get? name with
  | some u => return .ok u
  | none =>
    if name ∈ l.loading then return .error (.fault (.cycle name))
    else
      match l.find name with
      | .error f => return .error (.fault f)
      | .ok path =>
        modify (marked · name)
        let r : Except IncludeError CodeUnit ← by apply contents; exact name; exact path
        modify (unmarked · name)
        match r with
        | .error e => return .error e
        | .ok u =>
          modify (entered · name path u)
          return .ok u
partial_fixpoint

/-- What is in the file of a module. -/
def contents (name : Name) (path : Path) : Errand (Except IncludeError CodeUnit) := do
  let l ← get
  if unitExtension.isSuffixOf path then
    match readUnit l.files path with
    | .error f => return .error (.fault f)
    | .ok u => return .ok u
  else
    match readSource l.files path with
    | .error f => return .error (.fault f)
    | .ok (_, body) => by apply program; exact name; exact path; exact body
partial_fixpoint

/-- Compiles a program behind its imports. -/
def program (name : Name) (path : Path) (body : List Node) :
    Errand (Except IncludeError CodeUnit) := do
  let settings := (← get).settings
  let r : Except IncludeError Prelude ← by
    apply imports; exact path; exact settings.prelude; exact Program.topImports body
  match r with
  | .error e => return .error e
  | .ok prelude =>
    modify (noted · ((HazardReport.ofProgram prelude body).hazards.map (.hazard path)))
    let r : Except IncludeError CodeUnit ← by
      apply lower; exact { name, prelude, scratch := settings.scratch }; exact body
    match r with
    | .error e => return .error (.within path e)
    | .ok u => return .ok u
partial_fixpoint

/-- The kinds of the exports of the imported modules. -/
def imports (path : Path) (prelude : Prelude) : List Name → Errand (Except IncludeError Prelude)
  | [] => return .ok prelude
  | name :: rest => do
    let r : Except IncludeError CodeUnit ← by apply load; exact name
    match r with
    | .error e => return .error (.within (path ++ ": import " ++ name) e)
    | .ok u => by apply imports; exact path; exact prelude.merge u.exports; exact rest
partial_fixpoint

/-- Compiles a program and loads what is found to be missing. -/
def lower (o : CompileOptions) (body : List Node) : Errand (Except IncludeError CodeUnit) := do
  let l ← get
  match CodeUnit.compile { o with includer := some (includer l.units) } (.program body) with
  | .ok u => return .ok u
  | .error failure =>
    match failure.missingImport? with
    | none => return .error failure.asImport
    | some (pos, name) =>
      let r : Except IncludeError CodeUnit ← by apply load; exact name
      match r with
      | .error e => return .error (.compile (.because .unresolvedSymbol pos (.inclusion e)))
      | .ok _ => by apply lower; exact o; exact body
partial_fixpoint

end

end Errand

variable {base l l' : Loader} {name : Name} {path : Path} {u : CodeUnit} {body : List Node}

structure Since (base l : Loader) : Prop where
  ordered : Ordered l
  grows : Grows base l

theorem Since.next {α : Type} {x : Load α} (h : Since base l) (hkeeps : Keeps x)
    (hgrowing : Growing x) : Since base (on x l).2 :=
  ⟨hkeeps l h.ordered, h.grows.trans (hgrowing l)⟩

section Programs

variable {depth : Nat}

/-- From all that has come about from `base`, loading within the bound is loading without one. -/
def Reaches (base : Loader) (depth : Nat) (name : Name) : Prop :=
  ∀ l, Since base l → Errand.load name l = some (on (loadWithin depth name) l)

theorem bind_errand {α β : Type} {x : Errand α} {f : α → Errand β} {a : α}
    (h : x l = some (a, l')) : (x >>= f) l = f a l' := by
  have hbind : (x >>= f) l = (x l).bind fun p => f p.1 p.2 := rfl
  rw [hbind, h]
  rfl

theorem within_error {α : Type} {x : Load α} {e : IncludeError} (h : on x l = (.error e, l'))
    (place : Bytes) : on (within place x) l = (.error (.within place e), l') :=
  on_tryCatch_error h

theorem imports_unbounded {names : List Name} (h : ∀ name ∈ names, Reaches base depth name)
    (path : Path) (prelude : Prelude) (hl : Since base l) :
    Errand.imports path prelude names l =
      some ((on (loadImports (loadWithin depth) path prelude names) l).1.map Prod.fst,
        (on (loadImports (loadWithin depth) path prelude names) l).2) := by
  induction names generalizing prelude l with
  | nil =>
    rw [Errand.imports]
    rfl
  | cons name rest ih =>
    have hfirst := h name List.mem_cons_self l hl
    have hnext := hl.next (keeps_loadWithin depth name) (growing_loadWithin depth name)
    rcases hrun : on (loadWithin depth name) l with ⟨r, mid⟩
    rw [hrun] at hfirst hnext
    rw [Errand.imports, bind_errand hfirst, loadImports]
    cases r with
    | error e =>
      rw [on_bind_error (within_error (on_bind_error hrun) _)]
      rfl
    | ok u =>
      have hdone : on (within (path ++ ": import " ++ name)
          (loadWithin depth name >>= digested name)) l = (.ok (u, []), mid) :=
        on_tryCatch_ok ((on_bind_ok hrun).trans (digested_of_bare hnext.ordered.bare _ _))
      rw [on_bind_ok hdone]
      have hrest := ih (fun other hother => h other (List.mem_cons_of_mem _ hother))
        (prelude.merge u.exports) hnext
      refine hrest.trans ?_
      rcases hmore : on (loadImports (loadWithin depth) path (prelude.merge u.exports) rest) mid with
        ⟨q, last⟩
      cases q with
      | error e => rw [on_bind_error hmore]
      | ok made => rw [on_bind_ok hmore]; rfl

def lacking (units : NameMap CodeUnit) (names : List Name) : Nat :=
  names.countP fun name => (units.get? name).isNone

theorem lacking_lt {units units' : NameMap CodeUnit} {names : List Name}
    (hkept : ∀ other v, units.get? other = some v → units'.get? other = some v) (hmem : name ∈ names)
    (hnone : units.get? name = none) (hnew : units'.get? name = some u) :
    lacking units' names < lacking units names := by
  have hle : ∀ others, lacking units' others ≤ lacking units others := by
    intro others
    refine List.countP_mono_left fun other _ hother => ?_
    cases hunit : units.get? other with
    | none => rfl
    | some v =>
      rw [hkept other v hunit] at hother
      cases hother
  obtain ⟨front, back, rfl⟩ := List.append_of_mem hmem
  have hfront := hle front
  have hback := hle back
  unfold lacking at hfront hback ⊢
  rw [List.countP_append, List.countP_append, List.countP_cons_of_neg (by rw [hnew]; simp),
    List.countP_cons_of_pos (by rw [hnone]; rfl)]
  omega

theorem unit_of_load (h : on (loadWithin depth name) l = (.ok u, l')) :
    l'.units.get? name = some u := by
  cases depth with
  | zero => cases h
  | succ depth =>
    rcases hunit : l.units.get? name with _ | v
    · by_cases hloading : name ∈ l.loading
      · rw [loadWithin_of_loading depth hunit hloading] at h
        cases h
      · rcases hfind : l.find name with f | path
        · rw [loadWithin_of_missing depth hunit hloading hfind] at h
          cases h
        · rw [loadWithin_of_found depth hunit hloading hfind] at h
          rcases hrun : on (whileLoading name (contents depth l.files name path)) l with ⟨r, mid⟩
          cases r with
          | error e =>
            rw [on_bind_error hrun] at h
            cases h
          | ok v =>
            rw [on_bind_ok hrun, enter_on] at h
            cases h
            simp [entered]
    · rw [loadWithin_of_loaded depth hunit] at h
      cases h
      exact hunit

theorem lower_unbounded
    (h : ∀ name ∈ Node.importsOfAll body, Reaches base depth name) (o : CompileOptions)
    (rounds : Nat) (hl : Since base l)
    (hrounds : lacking l.units (Node.importsOfAll body) < rounds) :
    Errand.lower o body l = some (on (lower (loadWithin depth) o body rounds) l) := by
  induction rounds generalizing l with
  | zero => exact absurd hrounds (Nat.not_lt_zero _)
  | succ rounds ih =>
    have hget : (get : Errand Loader) l = some (l, l) := rfl
    rw [Errand.lower, bind_errand hget, lower, on_get_bind]
    cases hcompile : CodeUnit.compile { o with includer := some (includer l.units) }
        (.program body) with
    | ok u => rfl
    | error failure =>
      rcases hmissing : failure.missingImport? with _ | ⟨pos, name⟩
      · simp only [hmissing]
        rfl
      · simp only [hmissing]
        obtain ⟨hname, hnone⟩ := CodeUnit.missing_import hcompile hmissing
        have hnext := hl.next (keeps_loadWithin depth name) (growing_loadWithin depth name)
        have hfirst := h name hname l hl
        rcases hrun : on (loadWithin depth name) l with ⟨r, mid⟩
        rw [hrun] at hfirst hnext
        rw [bind_errand hfirst]
        cases r with
        | error e =>
          rw [on_bind_error (on_tryCatch_error hrun)]
          rfl
        | ok u =>
          rw [on_bind_ok (on_tryCatch_ok hrun)]
          have hgrows := growing_loadWithin depth name l
          rw [hrun] at hgrows
          have hlt := lacking_lt hgrows.units hname hnone (unit_of_load hrun)
          exact ih hnext (Nat.lt_of_lt_of_le hlt (Nat.le_of_lt_succ hrounds))

theorem program_unbounded
    (h : ∀ other ∈ Node.importsOfAll body, Reaches base depth other) (name : Name) (path : Path)
    (source : Bytes) (hl : Since base l) : Errand.program name path body l =
      some (on (compileProgram (loadWithin depth) name path source body) l) := by
  have hget : (get : Errand Loader) l = some (l, l) := rfl
  have himports := imports_unbounded (fun other hother => h other
    (Program.mem_importsOfAll_of_topImports hother)) path l.settings.prelude hl
  have hnext := hl.next (acts_loadImports (keeps_loadWithin depth) path l.settings.prelude
    (Program.topImports body)) (acts_loadImports (growing_loadWithin depth) path
    l.settings.prelude (Program.topImports body))
  rcases hrun : on (loadImports (loadWithin depth) path l.settings.prelude (Program.topImports body))
    l with ⟨r, mid⟩
  rw [hrun] at himports hnext
  rw [Errand.program, bind_errand hget, bind_errand himports, compileProgram, on_get_bind]
  cases r with
  | error e =>
    rw [on_bind_error hrun]
    rfl
  | ok made =>
    obtain ⟨prelude, deps⟩ := made
    rw [on_bind_ok hrun]
    simp only [Except.map]
    generalize (HazardReport.ofProgram prelude body).hazards.map (LogEntry.hazard path) = es
    have hnoted : Since base (mid.noted es) := hnext.next (acts_noteAll es) (acts_noteAll es)
    have hmodify : (modify (noted · es) : Errand PUnit) mid = some (⟨⟩, mid.noted es) := rfl
    have hlower := lower_unbounded h { name, prelude, scratch := l.settings.scratch } _ hnoted
      (Nat.lt_succ_of_le List.countP_le_length)
    rw [bind_errand hmodify, on_bind_ok (noteAll_on es mid),
      provide_on (keeps_loadWithin depth) _ _ _ hnoted.ordered]
    rcases hdone : on (lower (loadWithin depth) { name, prelude, scratch := l.settings.scratch } body
      ((Node.importsOfAll body).length + 1)) (mid.noted es) with ⟨q, last⟩
    rw [hdone] at hlower
    rw [bind_errand hlower]
    cases q with
    | error e => exact congrArg some (within_error hdone path).symm
    | ok u => exact congrArg some (on_tryCatch_ok hdone).symm

theorem read_of_readSource {files : FileTree} {source : Bytes}
    (h : readSource files path = .ok (source, body)) :
    files.read path = .ok source ∧ (Program.ofSource source).1 = body := by
  unfold readSource at h
  split at h
  · cases h
  · next content hread =>
    split at h
    · next found hsource =>
      cases h
      exact ⟨hread, by rw [hsource]⟩
    · cases h

theorem contents_unbounded
    (h : ∀ other ∈ base.files.mentions, Reaches base depth other) (name : Name) (path : Path)
    (hl : Since base l) : Errand.contents name path l =
      some (on (contents depth l.files name path) l) := by
  have hget : (get : Errand Loader) l = some (l, l) := rfl
  rw [Errand.contents, bind_errand hget]
  unfold contents
  by_cases hunit : unitExtension.isSuffixOf path = true
  · rw [if_pos hunit, if_pos hunit]
    cases readUnit l.files path with
    | error f => rfl
    | ok u => rfl
  · rw [if_neg hunit, if_neg hunit, compileAt, on_get_bind]
    cases hread : readSource l.files path with
    | error f => rfl
    | ok found =>
      obtain ⟨source, body⟩ := found
      have horFault : on (orFault (.ok (source, body) : Except ModuleFault (Bytes × List Node))) l =
          (.ok (source, body), l) := rfl
      have hmentions : ∀ other ∈ Node.importsOfAll body, Reaches base depth other := by
        intro other hother
        obtain ⟨hread, hbody⟩ := read_of_readSource hread
        refine h other ?_
        rw [← hl.grows.files]
        exact FileTree.mem_mentions (FileTree.holds_of_read hread) (hbody ▸ hother)
      rw [on_bind_ok horFault]
      exact program_unbounded hmentions name path source hl

end Programs

/-! ## Modules -/

/-- The modules that are being loaded are different, and all but the outermost one are named in some
file; so is the one to be loaded if there is another around it. The depth is what there is to go. -/
structure Ready (depth : Nat) (l : Loader) (name : Name) : Prop where
  nodup : l.loading.Nodup
  mentioned : ∀ other ∈ l.loading.dropLast, other ∈ l.files.mentions
  named : l.loading ≠ [] → name ∈ l.files.mentions
  depth : l.files.totalSize + 2 ≤ depth + l.loading.length

theorem not_ready_zero : ¬Ready 0 l name := by
  intro h
  have hnodup : l.loading.dropLast.Nodup := h.nodup.sublist (List.dropLast_sublist _)
  have hle := (List.Nodup.subperm hnodup h.mentioned).length_le
  have hfiles := l.files.length_mentions_le
  have hdepth := h.depth
  rw [List.length_dropLast] at hle
  omega

theorem Ready.inner {depth : Nat} (h : Ready (depth + 1) l name) (hname : name ∉ l.loading)
    (hgrows : Grows (l.marked name) l') {other : Name} (hother : other ∈ l.files.mentions) :
    Ready depth l' other := by
  have hloading : l'.loading = name :: l.loading := hgrows.loading
  have hfiles : l'.files = l.files := hgrows.files
  refine ⟨?_, ?_, fun _ => ?_, ?_⟩
  · rw [hloading]
    exact List.nodup_cons.2 ⟨hname, h.nodup⟩
  · rw [hloading, hfiles]
    cases hrest : l.loading with
    | nil => simp
    | cons first rest =>
      rw [List.dropLast_cons_cons, ← hrest]
      have hne : l.loading ≠ [] := by simp [hrest]
      exact List.forall_mem_cons.2 ⟨h.named hne, h.mentioned⟩
  · rw [hfiles]
    exact hother
  · have hdepth := h.depth
    rw [hfiles, hloading, List.length_cons]
    omega

theorem load_unbounded (depth : Nat) (hl : Ordered l) (h : Ready depth l name) :
    Errand.load name l = some (on (loadWithin depth name) l) := by
  induction depth generalizing l name with
  | zero => exact absurd h not_ready_zero
  | succ depth ih =>
    have hget : (get : Errand Loader) l = some (l, l) := rfl
    rw [Errand.load, bind_errand hget]
    rcases hunit : l.units.get? name with _ | u
    · by_cases hloading : name ∈ l.loading
      · rw [loadWithin_of_loading depth hunit hloading]
        simp only [hloading, if_true]
        rfl
      · simp only [hloading, if_false]
        rcases hfind : l.find name with f | path
        · rw [loadWithin_of_missing depth hunit hloading hfind]
          rfl
        · rw [loadWithin_of_found depth hunit hloading hfind]
          have hmark : (modify (marked · name) : Errand PUnit) l = some (⟨⟩, l.marked name) := rfl
          have hinner : ∀ other ∈ (l.marked name).files.mentions,
              Reaches (l.marked name) depth other :=
            fun other hother l' hl' => ih hl'.ordered (h.inner hloading hl'.grows hother)
          have hcontents := contents_unbounded hinner name path
            ⟨ordered_marked hl name, .refl _⟩
          have hwhile := whileLoading_on name (contents depth l.files name path) l
          rcases hrun : on (contents depth l.files name path) (l.marked name) with ⟨r, mid⟩
          have hfiles : (l.marked name).files = l.files := rfl
          rw [hfiles, hrun] at hcontents
          rw [hrun] at hwhile
          have hunmark : (modify (unmarked · name) : Errand PUnit) mid =
              some (⟨⟩, mid.unmarked name) := rfl
          simp only []
          rw [bind_errand hmark, bind_errand hcontents, bind_errand hunmark]
          cases r with
          | error e =>
            rw [on_bind_error hwhile]
            rfl
          | ok u =>
            rw [on_bind_ok hwhile, enter_on]
            rfl
    · rw [loadWithin_of_loaded depth hunit]
      rfl

end Loader

end UnitScript
