import UnitScript.Proofs.Cache.Determination
import UnitScript.Proofs.Module.Finding
import UnitScript.Proofs.Module.Growth

/-!
# Loading with a store and without

Two loaders are twins if they agree in everything but the store, the log and the ids, and the store
of the one has only recorded results in it. An action on both of them has the same outcome, and they
are twins after it. The one place where they part is a hit: the loader with the store takes the unit
from there and the other compiles it, which gives the same unit because a key determines the result.

The units that are loaded have to be representable, or else what is stored is not what was compiled.
As units are never replaced, it is enough to ask this of the units at hand at the end.
-/

namespace UnitScript

open Load

/-- What is asked of settings. Where the preludes are not all the same, there must be no zero bytes
that could hide where one begins. -/
structure LoaderSettings.Orderly (common : Option Prelude) (settings : LoaderSettings) : Prop where
  prelude : ∀ p ∈ common, settings.prelude = p
  scratch : ∀ s ∈ settings.scratch.names, 0 ∉ s
  separate : common = none → ∀ e ∈ settings.prelude.entries, 0 ∉ e.1 ∧ e.2.Plain

namespace FileTree

def Holds (files : FileTree) (content : Bytes) : Prop :=
  ∃ path, (path, .file content) ∈ files.entries.entries

/-- What is asked of files: the imports of a program all stand at its top level. -/
structure Orderly (common : Option Prelude) (files : FileTree) : Prop where
  imports : ∀ source body, files.Holds source → Program.ofSource source = (body, []) →
    Program.ImportsAtTop body
  separate : common = none → ∀ source body, files.Holds source →
    Program.ofSource source = (body, []) → 0 ∉ source

theorem holds_of_read {files : FileTree} {path : Path} {content : Bytes}
    (h : files.read path = .ok content) : files.Holds content := by
  unfold read at h
  split at h
  · cases h
  · cases h
  · next found hstat =>
    cases h
    unfold stat at hstat
    split at hstat
    · cases hstat
    · split at hstat
      · cases hstat
      · next place _ e hentry =>
        cases hstat
        unfold entry? at hentry
        split at hentry
        · cases hentry
        · exact ⟨_, NameMap.mem_of_get? hentry⟩

end FileTree

namespace Loader

/-- What is asked of the units at hand. -/
structure Storable (common : Option Prelude) (units : NameMap CodeUnit) : Prop where
  representable : ∀ name u, units.get? name = some u → u.Representable
  exports : common = none → ∀ name u, units.get? name = some u → ∀ e ∈ u.exports.entries, 0 ∉ e.1

/-- A loader with a store and one without, in the same state otherwise. -/
structure Twins (hash : Bytes → Bytes) (common : Option Prelude) (c l : Loader) : Prop where
  settings : c.settings = l.settings
  files : c.files = l.files
  units : c.units = l.units
  loading : c.loading = l.loading
  bare : l.store = none
  store : ∃ s, c.store = some s ∧ s.hash = hash ∧
    ∀ key row, s.rows.get? key = some row → Recorded hash common key row.code
  names : ∀ name u, l.units.get? name = some u → 0 ∉ name
  plain : ∀ name u, l.units.get? name = some u → u.PlainExports
  orderly : l.settings.Orderly common
  sources : l.files.Orderly common

/-- Two outcomes that are the same error, or values in a relation. -/
inductive Alike {α β : Type} (R : α → β → Prop) :
    Except IncludeError α → Except IncludeError β → Prop where
  | ok {a : α} {b : β} (h : R a b) : Alike R (.ok a) (.ok b)
  | error (e : IncludeError) : Alike R (.error e) (.error e)

/-- The action on the loader with a store does the same as the other action on its twin. The values
may be related by way of the units at the end. -/
def Follows {α β : Type} (hash : Bytes → Bytes) (common : Option Prelude)
    (R : α → β → Loader → Prop) (x : Load α) (y : Load β) (c l : Loader) : Prop :=
  Storable common (on y l).2.units →
    Twins hash common (on x c).2 (on y l).2 ∧
      Alike (fun a b => R a b (on y l).2) (on x c).1 (on y l).1

variable {hash : Bytes → Bytes} {common : Option Prelude} {c c' l l' : Loader}
  {u : CodeUnit} {body : List Node} {source : Bytes} {name : Name}

theorem Storable.of_grows (h : Storable common l'.units) (hgrows : Grows l l') :
    Storable common l.units where
  representable name u hu := h.representable name u (hgrows.units name u hu)
  exports hcommon name u hu := h.exports hcommon name u (hgrows.units name u hu)

theorem Twins.settled (h : Twins hash common c l) (hstorable : Storable common l.units) :
    Settled common l.units where
  names := h.names
  faithful name u hu := ⟨hstorable.representable name u hu, h.plain name u hu⟩
  exports := hstorable.exports

theorem Twins.withLog (h : Twins hash common c l) (log log' : List LogEntry) :
    Twins hash common { c with log } { l with log := log' } :=
  ⟨h.settings, h.files, h.units, h.loading, h.bare, h.store, h.names, h.plain, h.orderly, h.sources⟩

/-! ## Rules for actions -/

section Rules

variable {α β γ δ : Type} {R : α → β → Loader → Prop} {S : γ → δ → Loader → Prop}
  {x : Load α} {y : Load β} {f : α → Load γ} {g : β → Load δ}

theorem follows_pure {a : α} {b : β} (h : Twins hash common c l) (hR : R a b l) :
    Follows hash common R (pure a) (pure b) c l := fun _ => ⟨h, .ok hR⟩

theorem follows_throw (h : Twins hash common c l) (e : IncludeError) :
    Follows hash common R (throw e) (throw e) c l := fun _ => ⟨h, .error e⟩

theorem follows_orFault (h : Twins hash common c l) (r : Except ModuleFault α) :
    Follows hash common (fun a b _ => a = b ∧ r = .ok b) (orFault r) (orFault r) c l := by
  cases r with
  | ok a => exact follows_pure h ⟨rfl, rfl⟩
  | error f => exact follows_throw h _

theorem follows_noteAll (h : Twins hash common c l) (es : List LogEntry) :
    Follows hash common (fun _ _ _ => True) (noteAll es) (noteAll es) c l :=
  fun _ => ⟨h.withLog _ _, .ok trivial⟩

theorem Follows.of_on {x' : Load γ} {y' : Load δ} (h : Follows hash common S x' y' c' l')
    {x : Load γ} {y : Load δ} (hx : on x c = on x' c') (hy : on y l = on y' l') :
    Follows hash common S x y c l := by
  unfold Follows
  rw [hx, hy]
  exact h

theorem Follows.ok (h : Follows hash common R x y c l) {b : β} (hy : on y l = (.ok b, l'))
    (hstorable : Storable common l'.units) :
    ∃ a c', on x c = (.ok a, c') ∧ Twins hash common c' l' ∧ R a b l' := by
  unfold Follows at h
  rw [hy] at h
  obtain ⟨htwins, halike⟩ := h hstorable
  rcases hx : on x c with ⟨r, c'⟩
  rw [hx] at htwins halike
  cases halike with
  | ok hR => exact ⟨_, c', rfl, htwins, hR⟩

theorem Follows.error (h : Follows hash common R x y c l) {e : IncludeError}
    (hy : on y l = (.error e, l')) (hstorable : Storable common l'.units) :
    ∃ c', on x c = (.error e, c') ∧ Twins hash common c' l' := by
  unfold Follows at h
  rw [hy] at h
  obtain ⟨htwins, halike⟩ := h hstorable
  rcases hx : on x c with ⟨r, c'⟩
  rw [hx] at htwins halike
  cases halike
  exact ⟨c', rfl, htwins⟩

theorem Follows.bind (h : Follows hash common R x y c l) (hy : Growing y)
    (hg : ∀ b, Growing (g b))
    (hf : ∀ a b c' l', Twins hash common c' l' → Grows l l' → R a b l' →
      Follows hash common S (f a) (g b) c' l') :
    Follows hash common S (x >>= f) (y >>= g) c l := by
  intro hstorable
  have hgrows := hy l
  rcases hyl : on y l with ⟨e | b, l'⟩
  · rw [on_bind_error hyl] at hstorable ⊢
    obtain ⟨c', hxc, htwins⟩ := h.error hyl hstorable
    rw [on_bind_error hxc]
    exact ⟨htwins, .error e⟩
  · rw [on_bind_ok hyl] at hstorable ⊢
    obtain ⟨a, c', hxc, htwins, hR⟩ := h.ok hyl (hstorable.of_grows (hg b l'))
    rw [on_bind_ok hxc]
    rw [hyl] at hgrows
    exact hf a b c' l' htwins hgrows hR hstorable

theorem Follows.mapError (h : Follows hash common R x y c l) (k : IncludeError → IncludeError) :
    Follows hash common R (tryCatch x fun e => throw (k e)) (tryCatch y fun e => throw (k e))
      c l := by
  intro hstorable
  rcases hyl : on y l with ⟨e | b, l'⟩
  · rw [on_tryCatch_error hyl] at hstorable ⊢
    obtain ⟨c', hxc, htwins⟩ := h.error hyl hstorable
    rw [on_tryCatch_error hxc]
    exact ⟨htwins, .error (k e)⟩
  · rw [on_tryCatch_ok hyl] at hstorable ⊢
    obtain ⟨a, c', hxc, htwins, hR⟩ := h.ok hyl hstorable
    rw [on_tryCatch_ok hxc]
    exact ⟨htwins, .ok hR⟩

end Rules

/-! ## The store -/

/-- Looking for a unit leaves the twins as they are, and what is found is a record under the key. -/
theorem Twins.fromStore (h : Twins hash common c l) (name key : Bytes) (deps : List Bytes) :
    ∃ r c', on (fromStore name key deps) c = (.ok r, c') ∧ Twins hash common c' l ∧
      ∀ u, r = some u → ∃ code, Recorded hash common key code ∧ CodeUnit.decode code = .ok u := by
  obtain ⟨r, log, hon, hfound⟩ := fromStore_on name key deps c
  refine ⟨r, _, hon, h.withLog log l.log, fun u hu => ?_⟩
  obtain ⟨store, row, hstore, hrow, hdecode⟩ := hfound u hu
  obtain ⟨s, hs, -, hrecorded⟩ := h.store
  obtain rfl : store = s := Option.some.inj (hstore.symm.trans hs)
  exact ⟨row.code, hrecorded key row hrow, hdecode⟩

theorem ofUnit_eq_ok {id : BuildId} {key : Bytes}
    {deps : List Bytes} {a : Artifact} (h : Artifact.ofUnit id key u source deps = .ok a) :
    a.key = key ∧ u.encode = .ok a.code := by
  obtain ⟨code, hcode, ha⟩ := ok_bind.1 h
  have hencode : u.encode = .ok code := by
    unfold CodeUnit.encoded at hcode
    split at hcode
    · next w hw => rw [hw, Except.ok.inj hcode]
    · cases hcode
  cases ha
  exact ⟨rfl, hencode⟩

theorem Twins.toStore (h : Twins hash common c l) {key : Bytes}
    (hrecord : ∀ code, u.encode = .ok code → Recorded hash common key code) (name : Name)
    (path : Path) (deps : List Bytes) :
    ∃ c', on (toStore name key u path deps) c = (.ok (), c') ∧ Twins hash common c' l := by
  obtain ⟨s, hs, hhash, hrows⟩ := h.store
  unfold Loader.toStore
  rw [on_get_bind, hs]
  cases hunit : Artifact.ofUnit (.ofNat c.nextId) key u path deps with
  | error e => exact ⟨_, rfl, h.withLog _ l.log⟩
  | ok a =>
    dsimp only
    cases hput : s.put a with
    | error e => exact ⟨_, rfl, h.withLog _ l.log⟩
    | ok s' =>
      refine ⟨_, rfl, h.settings, h.files, h.units, h.loading, h.bare, ⟨s', rfl, ?_⟩, h.names,
        h.plain, h.orderly, h.sources⟩
      obtain ⟨hkey, hcode⟩ := ofUnit_eq_ok hunit
      unfold UnitStore.put at hput
      split at hput
      · cases hput
        refine ⟨hhash, fun other row hrow => ?_⟩
        rw [NameMap.get?_insert, hkey] at hrow
        split at hrow
        · next heq =>
          cases hrow
          exact heq ▸ hrecord _ hcode
        · exact hrows other row hrow
      · cases hput

/-! ## Programs and their imports -/

/-- A way to load modules that does the same on twins. -/
structure Mirrored (hash : Bytes → Bytes) (common : Option Prelude) (load : Name → Load CodeUnit) :
    Prop where
  growing : ∀ name, Growing (load name)
  follows : ∀ name c l, Twins hash common c l → Follows hash common
    (fun u v l' => u = v ∧ l'.units.get? name = some v) (load name) (load name) c l

section Programs

variable {load : Name → Load CodeUnit}

theorem digested_of_store {s : UnitStore} (h : c.store = some s) {code : Bytes}
    (hcode : u.encode = .ok code) (name : Name) :
    on (digested name u) c = (.ok (u, [dependency s.hash name code]), c) := by
  have hdigest : u.digestBy s.hash = .ok (hexDigestBy s.hash code) := by
    simp only [CodeUnit.digestBy, CodeUnit.encoded, hcode]
    rfl
  unfold digested
  rw [on_get_bind, h]
  simp only [hdigest]
  rfl

/-- The imports of a program have the same exports on both sides. On the side of the store they
also have digests. -/
theorem Mirrored.loadImports (hload : Mirrored hash common load) (path : Path) (names : List Name)
    (prelude : Prelude) (h : Twins hash common c l) :
    Follows hash common (fun r r' l' => r.1 = r'.1 ∧ Gathered hash l'.units prelude names r.1 r.2)
      (loadImports load path prelude names) (loadImports load path prelude names) c l := by
  induction names generalizing prelude c l with
  | nil => exact follows_pure h ⟨rfl, .nil prelude⟩
  | cons name rest ih =>
    -- one import: its unit is at hand afterwards, and the store has its digest
    have himport : Follows hash common (fun r r' l' => r.1 = r'.1 ∧ ∃ code,
        l'.units.get? name = some r.1 ∧ r.1.encode = .ok code ∧ r.2 = [dependency hash name code])
        (load name >>= digested name) (load name >>= digested name) c l := by
      refine (hload.follows name c l h).bind (hload.growing name) (acts_digested name) ?_
      rintro u _ c₁ l₁ h₁ - ⟨rfl, hunit⟩ hstorable
      rw [digested_of_bare h₁.bare] at hstorable ⊢
      have hnamed : ∀ e ∈ u.exports.entries, e.2.IsNamed :=
        fun e he => (h₁.plain name u hunit e he).2
      obtain ⟨code, hcode⟩ := CodeUnit.encode_ok (hstorable.representable name u hunit) hnamed
      obtain ⟨s, hs, rfl, -⟩ := h₁.store
      rw [digested_of_store hs hcode]
      exact ⟨h₁, .ok ⟨rfl, code, hunit, hcode, rfl⟩⟩
    refine (himport.mapError _).bind (((hload.growing name).bind (acts_digested name)).within _)
      (fun _ => (acts_loadImports hload.growing _ _ _).bind fun _ => acts_pure _) ?_
    rintro ⟨u, digest⟩ ⟨_, _⟩ c₁ l₁ h₁ - ⟨rfl, code, hunit, hcode, rfl⟩
    refine (ih (prelude.merge u.exports) h₁).bind (acts_loadImports hload.growing _ _ _)
      (fun _ => acts_pure _) ?_
    rintro ⟨all, deps⟩ ⟨_, _⟩ c₂ l₂ h₂ hgrows ⟨rfl, hgathered⟩
    exact follows_pure h₂ ⟨rfl, .cons (hgrows.units name u hunit) hcode hgathered⟩

/-- Both sides compile a program in the same rounds. -/
theorem Mirrored.lower (hload : Mirrored hash common load) (o : CompileOptions) (body : List Node)
    (rounds : Nat) (h : Twins hash common c l) :
    Follows hash common (fun u v l' => u = v ∧
        CodeUnit.compile { o with includer := some (includer l'.units) } (.program body) = .ok v)
      (lower load o body rounds) (lower load o body rounds) c l := by
  induction rounds generalizing c l with
  | zero => exact follows_throw h _
  | succ rounds ih =>
    refine .of_on ?_ (on_get_bind _ c) (on_get_bind _ l)
    rw [h.units]
    cases hcompile :
      CodeUnit.compile { o with includer := some (includer l.units) } (.program body) with
    | ok u => exact follows_pure h ⟨rfl, hcompile⟩
    | error failure =>
      rcases hmissing : failure.missingImport? with _ | ⟨pos, name⟩
      · simp only [hmissing]
        exact follows_throw h _
      · simp only [hmissing]
        refine ((hload.follows name c l h).mapError _).bind
          ((hload.growing name).tryCatch fun _ => acts_throw _)
          (fun _ => acts_lower hload.growing _ _ _) ?_
        exact fun _ _ c₁ l₁ h₁ _ _ => ih h₁

/-- A program that compiles with the units at hand is compiled in the first round. -/
theorem lower_of_compile {o : CompileOptions}
    (h : CodeUnit.compile { o with includer := some (includer l.units) } (.program body) = .ok u)
    (rounds : Nat) : on (Loader.lower load o body (rounds + 1)) l = (.ok u, l) := by
  rw [Loader.lower, on_get_bind, h]
  rfl

/-- What a program compiles to is the same on both sides, if it is representable. -/
def Agree (u v : CodeUnit) (_ : Loader) : Prop := v.PlainExports ∧ (v.Representable → u = v)

/-- A program whose imports are loaded has the same unit on both sides, whether the store has it or
not. The other side has no digests of the imports. -/
theorem Mirrored.provide (hhash : Function.Injective hash) (hload : Mirrored hash common load)
    {prelude : Prelude} {deps : List Bytes}
    (hname : 0 ∉ name) (hsourced : Compilation.Sourced common source body)
    (h : Twins hash common c l)
    (hgathered : Gathered hash l.units l.settings.prelude (Program.topImports body) prelude deps)
    (path : Path) (deps' : List Bytes) :
    Follows hash common Agree
      (provide load ⟨name, source, prelude, l.settings.scratch.names, deps⟩ l.settings.scratch path
        body)
      (provide load ⟨name, source, prelude, l.settings.scratch.names, deps'⟩ l.settings.scratch path
        body) c l := by
  let compilation (units : NameMap CodeUnit) : Compilation :=
    { name, source, body, base := l.settings.prelude, prelude, scratch := l.settings.scratch, deps
      units }
  have horderly {c₁ l₁ : Loader} (h₁ : Twins hash common c₁ l₁) (hgrows : Grows l l₁)
      (hstorable : Storable common l₁.units) : (compilation l₁.units).Orderly hash common :=
    ⟨hname, h.orderly.scratch, hsourced, h₁.settled hstorable, hgathered.mono hgrows.units,
      h.orderly.prelude, h.orderly.separate⟩
  let key := (c.store.map fun s => (compilation l.units).inputs.keyBy s.hash).getD []
  have hkey : (compilation l.units).inputs.keyBy hash = key := by
    obtain ⟨s, hs, rfl, -⟩ := h.store
    simp [key, hs]
  obtain ⟨r, c₁, hon, h₁, hfound⟩ := h.fromStore name key deps
  refine .of_on ?_ ((on_get_bind _ c).trans (on_bind_ok hon))
    ((on_get_bind _ l).trans (on_bind_ok (fromStore_of_bare h.bare _ _ _)))
  have hgrowing (v : CodeUnit) (key' : Bytes) :
      Growing (do Loader.toStore name key' v path deps'; return v) :=
    (acts_toStore _ _ _ _ _).bind fun _ => acts_pure v
  have hstored (v : CodeUnit) (key' : Bytes) {l₁ : Loader} (hbare : l₁.store = none) :
      on (do Loader.toStore name key' v path deps'; return v) l₁ = on (pure v) l₁ :=
    on_bind_ok (toStore_of_bare hbare _ _ _ _ _)
  let lowering : Load CodeUnit := within path (Loader.lower load
    { name, prelude, scratch := l.settings.scratch } body ((Node.importsOfAll body).length + 1))
  have hlowering : Growing lowering := (acts_lower hload.growing _ _ _).within path
  cases r with
  | some u =>
    -- a hit: the other side compiles the program, in one round
    intro hstorable
    have hhere := hstorable.of_grows (hlowering.bind (fun v => hgrowing v _) l)
    obtain ⟨code, hrecorded, hdecode⟩ := hfound u rfl
    obtain ⟨v, hresult, hsame⟩ :=
      hrecorded.result_of_decode hhash (horderly h (.refl l) hhere) hkey hdecode
    have hagree : Agree u v l := ⟨CodeUnit.plainExports_of_compile hresult, hsame⟩
    have hcompiled : on lowering l = (.ok v, l) := on_tryCatch_ok (lower_of_compile hresult _)
    exact Follows.of_on (follows_pure h₁ hagree) rfl
      ((on_bind_ok hcompiled).trans (hstored v _ h.bare)) hstorable
  | none =>
    refine ((hload.lower _ body _ h₁).mapError _).bind hlowering (fun v => hgrowing v _) ?_
    rintro u _ c₂ l₂ h₂ hgrows ⟨rfl, hcompile⟩ hstorable
    have hhere := hstorable.of_grows (hgrowing u _ l₂)
    have hrecord (code : Bytes) (hcode : u.encode = .ok code) : Recorded hash common key code :=
      ⟨compilation l₂.units, u, horderly h₂ hgrows hhere, hkey, hcompile, hcode⟩
    obtain ⟨c₃, hstore, h₃⟩ := h₂.toStore hrecord name path deps
    have hagree : Agree u u l₂ := ⟨CodeUnit.plainExports_of_compile hcompile, fun _ => rfl⟩
    exact Follows.of_on (follows_pure h₃ hagree) (on_bind_ok hstore) (hstored u _ h₂.bare) hstorable

theorem Mirrored.compileProgram (hhash : Function.Injective hash)
    (hload : Mirrored hash common load)
    (hname : 0 ∉ name) (hsourced : Compilation.Sourced common source body)
    (h : Twins hash common c l) (path : Path) :
    Follows hash common Agree (compileProgram load name path source body)
      (compileProgram load name path source body) c l := by
  refine .of_on ?_ (on_get_bind _ c) (on_get_bind _ l)
  rw [h.settings]
  refine (hload.loadImports path _ _ h).bind (acts_loadImports hload.growing _ _ _)
    (fun _ => (acts_noteAll _).bind fun _ => acts_provide hload.growing _ _ _ _) ?_
  rintro ⟨prelude, deps⟩ ⟨_, deps'⟩ c₁ l₁ h₁ hgrows ⟨rfl, hgathered⟩
  refine (follows_noteAll h₁ _).bind (acts_noteAll _)
    (fun _ => acts_provide hload.growing _ _ _ _) ?_
  intro _ _ c₂ l₂ h₂ hgrows' _
  have hsettings : l.settings = l₂.settings := (hgrows.trans hgrows').settings.symm
  rw [hsettings] at hgathered ⊢
  exact hload.provide hhash hname hsourced h₂ (hgathered.mono hgrows'.units) path deps'

theorem holds_of_readSource {files : FileTree} {path : Path}
    (h : readSource files path = .ok (source, body)) :
    files.Holds source ∧ Program.ofSource source = (body, []) := by
  unfold readSource at h
  split at h
  · cases h
  · next content hread =>
    split at h
    · next hparse =>
      cases h
      exact ⟨FileTree.holds_of_read hread, hparse⟩
    · cases h

theorem Mirrored.compileAt (hhash : Function.Injective hash) (hload : Mirrored hash common load)
    (hname : 0 ∉ name) (h : Twins hash common c l) (isEntry : Bool) (path : Path) :
    Follows hash common Agree (compileAt load isEntry name path) (compileAt load isEntry name path)
      c l := by
  refine .of_on ?_ (on_get_bind _ c) (on_get_bind _ l)
  rw [h.settings, h.files]
  refine (follows_orFault h _).bind (acts_orFault _)
    (fun _ => acts_compileProgram hload.growing _ _ _ _) ?_
  rintro ⟨source, parsed⟩ _ c₁ l₁ h₁ - ⟨rfl, hread⟩
  obtain ⟨hholds, hparsed⟩ := holds_of_readSource hread
  have htop := h.sources.imports source parsed hholds hparsed
  have hsource : common = none → 0 ∉ source :=
    fun hcommon => h.sources.separate hcommon source parsed hholds hparsed
  refine hload.compileProgram hhash hname ?_ h₁ path
  cases isEntry with
  | true => exact ⟨⟨_, parsed, hparsed, rfl⟩, htop.withImports _, hsource⟩
  | false => exact ⟨⟨[], parsed, hparsed, rfl⟩, htop, hsource⟩

end Programs

/-! ## Modules -/

section Modules

variable {name : Name} {path : Path}

theorem Twins.marked (h : Twins hash common c l) (name : Name) :
    Twins hash common (c.marked name) (l.marked name) :=
  ⟨h.settings, h.files, h.units, congrArg (name :: ·) h.loading, h.bare, h.store, h.names, h.plain,
    h.orderly, h.sources⟩

theorem Twins.unmarked (h : Twins hash common c l) (name : Name) :
    Twins hash common (c.unmarked name) (l.unmarked name) :=
  ⟨h.settings, h.files, h.units, congrArg (List.filter (· ≠ name)) h.loading, h.bare, h.store,
    h.names, h.plain, h.orderly, h.sources⟩

theorem Twins.entered (h : Twins hash common c l) (hname : 0 ∉ name)
    (hplain : u.PlainExports) :
    Twins hash common (c.entered name path u) (l.entered name path u) where
  settings := h.settings
  files := h.files
  units := congrArg (·.insert name u) h.units
  loading := h.loading
  bare := h.bare
  store := h.store
  names other v hv := by
    simp only [Loader.entered, NameMap.get?_insert] at hv
    split at hv
    · next heq => exact heq ▸ hname
    · exact h.names other v hv
  plain other v hv := by
    simp only [Loader.entered, NameMap.get?_insert] at hv
    split at hv
    · cases hv
      exact hplain
    · exact h.plain other v hv
  orderly := h.orderly
  sources := h.sources

theorem Twins.find (h : Twins hash common c l) (name : Name) : c.find name = l.find name := by
  unfold Loader.find
  rw [h.settings, h.files]

theorem Follows.whileLoading {α β : Type} {R : α → β → Prop} {x : Load α} {y : Load β}
    (h : Follows hash common (fun a b _ => R a b) x y (c.marked name) (l.marked name)) :
    Follows hash common (fun a b _ => R a b) (whileLoading name x) (whileLoading name y) c l := by
  unfold Follows at *
  rw [whileLoading_on, whileLoading_on]
  intro hstorable
  obtain ⟨htwins, halike⟩ := h hstorable
  exact ⟨htwins.unmarked name, halike⟩

theorem plainExports_of_readUnit {files : FileTree}
    (h : readUnit files path = .ok u) : u.PlainExports := by
  unfold readUnit at h
  split at h
  · cases h
  · split at h
    · cases h
    · next hdecode =>
      cases h
      exact fun e he => (CodeUnit.canonical_of_decode hdecode e he).imp_left (·.plain)

theorem follows_contents (hhash : Function.Injective hash) {depth : Nat}
    (hload : Mirrored hash common (loadWithin depth)) (hname : 0 ∉ name)
    (h : Twins hash common c l) (files : FileTree) (path : Path) :
    Follows hash common Agree (contents depth files name path) (contents depth files name path)
      c l := by
  unfold contents
  split
  · cases hread : readUnit files path with
    | error f => exact follows_throw h _
    | ok u => exact follows_pure h ⟨plainExports_of_readUnit hread, fun _ => rfl⟩
  · exact hload.compileAt hhash hname h false path

/-- A module that is read or compiled on both sides has the same unit on both sides. -/
theorem follows_enter {x y : Load CodeUnit} (hx : Follows hash common Agree x y c l)
    (hname : 0 ∉ name)
    (hfresh : (on y l).2.units.get? name = none ∧ name ∉ (on y l).2.loading) :
    Follows hash common (fun u v l' => u = v ∧ l'.units.get? name = some v)
      (x >>= enter name path) (y >>= enter name path) c l := by
  intro hstorable
  rcases hyl : on y l with ⟨e | v, l'⟩
  · rw [on_bind_error hyl] at hstorable ⊢
    obtain ⟨c', hxc, htwins⟩ := hx.error hyl hstorable
    rw [on_bind_error hxc]
    exact ⟨htwins, .error e⟩
  · rw [on_bind_ok hyl, enter_on] at hstorable ⊢
    rw [hyl] at hfresh
    have hentry : (l'.entered name path v).units.get? name = some v := by simp [Loader.entered]
    obtain ⟨u, c', hxc, htwins, hagree⟩ :=
      hx.ok hyl (hstorable.of_grows (grows_entered hfresh.1 hfresh.2))
    obtain rfl : u = v := hagree.2 (hstorable.representable name v hentry)
    rw [on_bind_ok hxc, enter_on]
    exact ⟨htwins.entered hname hagree.1, .ok ⟨rfl, hentry⟩⟩

theorem mirrored_loadWithin (hhash : Function.Injective hash) (common : Option Prelude)
    (depth : Nat) : Mirrored hash common (loadWithin depth) := by
  refine ⟨growing_loadWithin depth, ?_⟩
  induction depth with
  | zero => exact fun name c l h => follows_throw h _
  | succ depth ih =>
    intro name c l h
    have hload : Mirrored hash common (loadWithin depth) := ⟨growing_loadWithin depth, ih⟩
    rcases hunit : l.units.get? name with _ | u
    · have hunit' : c.units.get? name = none := by rw [h.units, hunit]
      by_cases hloading : name ∈ l.loading
      · have hloading' : name ∈ c.loading := by rwa [h.loading]
        exact .of_on (follows_throw h _) (loadWithin_of_loading depth hunit' hloading')
          (loadWithin_of_loading depth hunit hloading)
      · have hloading' : name ∉ c.loading := by rwa [h.loading]
        rcases hfind : l.find name with f | path
        · have hfind' : c.find name = .error f := by rw [h.find, hfind]
          exact .of_on (follows_throw h _) (loadWithin_of_missing depth hunit' hloading' hfind')
            (loadWithin_of_missing depth hunit hloading hfind)
        · have hfind' : c.find name = .ok path := by rw [h.find, hfind]
          have hname := zero_notMem_of_find hfind
          refine .of_on ?_ (loadWithin_of_found depth hunit' hloading' hfind')
            (loadWithin_of_found depth hunit hloading hfind)
          rw [h.files]
          have hcontents := follows_contents hhash hload hname (h.marked name) l.files path
          have hgrows := grows_whileLoading (acts_contents depth (growing_loadWithin depth)
            l.files name path) hunit hloading
          exact follows_enter hcontents.whileLoading hname
            ⟨hgrows.2, by rwa [hgrows.1.loading]⟩
    · have hunit' : c.units.get? name = some u := by rw [h.units, hunit]
      exact .of_on (follows_pure h ⟨rfl, hunit⟩) (loadWithin_of_loaded depth hunit')
        (loadWithin_of_loaded depth hunit)

end Modules

end Loader

end UnitScript
