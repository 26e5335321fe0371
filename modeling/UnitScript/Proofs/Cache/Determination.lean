import UnitScript.Module.Loader
import UnitScript.Proofs.Cache.Separation
import UnitScript.Proofs.Code.Unique
import UnitScript.Proofs.Lowering.Imports
import UnitScript.Proofs.Lowering.ReadBack
import UnitScript.Proofs.Module.Imports

/-!
# A key determines the result of a compilation

The key has the source in it, but not the program that is compiled: the standard imports are put in
front of what is parsed, and the units that the imports stand for are only there as digests. Where
every import of a program stands at its top level, the dependencies name all imported units, and
with a hash without collisions they determine them. So two compilations under one key have the same
result.
-/

namespace UnitScript

namespace Program

variable {body : List Node}

/-- Every import of the program, inside of functions, branches and loops as well, stands at its top
level too. -/
def ImportsAtTop (body : List Node) : Prop :=
  ∀ name ∈ Node.importsOfAll body, name ∈ topImports body

instance (body : List Node) : Decidable (ImportsAtTop body) :=
  inferInstanceAs (Decidable (∀ name ∈ Node.importsOfAll body, name ∈ topImports body))

theorem ImportsAtTop.withImports (h : ImportsAtTop body) (std : List Name) :
    ImportsAtTop (withImports std body) := by
  have hall (ns : List Name) : Node.importsOfAll (ns.map (Node.importUnit .unknown) ++ body) =
      ns ++ Node.importsOfAll body := by
    induction ns with
    | nil => rfl
    | cons n ns ih =>
      rw [List.map_cons, List.cons_append, Node.importsOfAll, ih]
      rfl
  intro name hname
  rw [topImports_withImports, List.mem_append]
  unfold Program.withImports at hname
  rw [hall, List.mem_append] at hname
  exact hname.imp_right (h name)

end Program

/-! ## Imports as dependencies -/

/-- How an import is listed among the dependencies: by its name and the digest of its unit. -/
def dependency (hash : Bytes → Bytes) (name : Name) (code : Bytes) : Bytes :=
  name ++ Bytes.ofString "@" ++ hexDigestBy hash code

variable {hash : Bytes → Bytes}

theorem dependency_ne_nil (name : Name) (code : Bytes) : dependency hash name code ≠ [] := by
  have hat : Bytes.ofString "@" ≠ [] := by decide
  simp [dependency, hat]

theorem zero_notMem_dependency {name : Name} (h : 0 ∉ name) (code : Bytes) :
    0 ∉ dependency hash name code := by
  simp only [dependency, List.mem_append, not_or]
  exact ⟨⟨h, by decide⟩, fun hzero => (Bytes.ne_of_mem_toHex hzero).1 rfl⟩

theorem dependency_injective (hhash : Function.Injective hash) {name name' : Name}
    {code code' : Bytes} (h : dependency hash name code = dependency hash name' code') :
    name = name' ∧ code = code' := by
  have hsplit : name ++ 64 :: hexDigestBy hash code = name' ++ 64 :: hexDigestBy hash code' := by
    rw [dependency, dependency, List.append_assoc, List.append_assoc] at h
    exact h
  have hat (s : Bytes) : 64 ∉ hexDigestBy hash s := fun h => (Bytes.ne_of_mem_toHex h).2 rfl
  obtain ⟨hname, hdigest⟩ := split_at_last (hat code) (hat code') hsplit
  exact ⟨hname, hhash (Bytes.toHex_injective hdigest)⟩

/-- What a list of imports adds up to, from a first prelude and with units from a table: a prelude
with all exports, and the dependencies. -/
inductive Gathered (hash : Bytes → Bytes) (units : NameMap CodeUnit) :
    Prelude → List Name → Prelude → List Bytes → Prop where
  | nil (p : Prelude) : Gathered hash units p [] p []
  | cons {p q : Prelude} {name : Name} {names : List Name} {u : CodeUnit} {code : Bytes}
      {deps : List Bytes} (hunit : units.get? name = some u) (hcode : u.encode = .ok code)
      (hrest : Gathered hash units (p.merge u.exports) names q deps) :
      Gathered hash units p (name :: names) q (dependency hash name code :: deps)

/-- What is asked of the units in a table. Where preludes may differ, their exports must not have
zero bytes in their names. -/
structure Settled (common : Option Prelude) (units : NameMap CodeUnit) : Prop where
  names : ∀ name u, units.get? name = some u → 0 ∉ name
  faithful : ∀ name u, units.get? name = some u → u.Faithful
  exports : common = none → ∀ name u, units.get? name = some u → ∀ e ∈ u.exports.entries, 0 ∉ e.1

namespace Gathered

variable {common : Option Prelude} {units units' : NameMap CodeUnit} {p p' q q' : Prelude}
  {names names' : List Name} {deps : List Bytes}

theorem mono (h : Gathered hash units p names q deps)
    (hunits : ∀ name u, units.get? name = some u → units'.get? name = some u) :
    Gathered hash units' p names q deps := by
  induction h with
  | nil p => exact .nil p
  | cons hunit hcode _ ih => exact .cons (hunits _ _ hunit) hcode ih

theorem deps_proper (h : Gathered hash units p names q deps) (hunits : Settled common units) :
    ∀ d ∈ deps, d ≠ [] ∧ 0 ∉ d := by
  induction h with
  | nil p => exact fun d hd => absurd hd List.not_mem_nil
  | cons hunit hcode _ ih =>
    rw [List.forall_mem_cons]
    exact ⟨⟨dependency_ne_nil _ _, zero_notMem_dependency (hunits.names _ _ hunit) _⟩, ih⟩

theorem prelude_cases (h : Gathered hash units p names q deps) :
    ∀ e ∈ q.entries, e ∈ p.entries ∨
      ∃ name u, units.get? name = some u ∧ e ∈ u.exports.entries := by
  induction h with
  | nil p => exact fun e he => .inl he
  | cons hunit _ _ ih =>
    intro e he
    rcases ih e he with he | he
    · rcases NameMap.mem_foldl_insert he with he | he
      · exact .inl he
      · exact .inr ⟨_, _, hunit, he⟩
    · exact .inr he

theorem unique (hhash : Function.Injective hash) (hunits : Settled common units)
    (hunits' : Settled common units') (h : Gathered hash units p names q deps)
    (h' : Gathered hash units' p' names' q' deps) :
    names = names' ∧ (∀ name ∈ names, units.get? name = units'.get? name) ∧
      (p = p' → q = q') := by
  induction h generalizing p' names' with
  | nil p =>
    cases h'
    exact ⟨rfl, fun _ hname => absurd hname List.not_mem_nil, id⟩
  | @cons p q name names u code deps hunit hcode _ ih =>
    generalize hdeps : dependency hash name code :: deps = ds at h'
    cases h' with
    | nil => cases hdeps
    | @cons _ _ name' names' u' code' deps' hunit' hcode' hrest' =>
      obtain ⟨hdep, rfl⟩ := List.cons.inj hdeps
      obtain ⟨rfl, rfl⟩ := dependency_injective hhash hdep
      have hsame : u = u' := (hunits.faithful _ _ hunit).encode_injective
        (hunits'.faithful _ _ hunit') hcode hcode'
      subst hsame
      obtain ⟨hnames, hagree, hprelude⟩ := ih hrest'
      refine ⟨by rw [hnames], ?_, fun hp => hprelude (by rw [hp])⟩
      rw [List.forall_mem_cons]
      exact ⟨by rw [hunit, hunit'], hagree⟩

end Gathered

/-! ## Scratch names in effect -/

namespace Scratch

theorem nil_notMem_names (s : Scratch) : [] ∉ s.names := by
  have horDefault {fallback : Name} (hfallback : fallback ≠ []) (name : Name) :
      orDefault name fallback ≠ [] := by
    unfold orDefault
    split
    · exact hfallback
    · rename_i h
      exact fun hnil => h (by rw [hnil]; rfl)
  intro h
  simp only [names, Role.all, List.map_cons, List.map_nil, List.mem_cons, List.not_mem_nil,
    or_false] at h
  rcases h with h | h | h | h
  all_goals exact horDefault (by decide) _ h.symm

theorem withDefaults_eq_of_names {s t : Scratch} (h : s.names = t.names) :
    s.withDefaults = t.withDefaults := by
  simp only [names, Role.all, List.map_cons, List.map_nil, List.cons.injEq] at h
  obtain ⟨hprimary, hsecondary, haggregate, hstruct, -⟩ := h
  generalize s.withDefaults = s' at *
  generalize t.withDefaults = t' at *
  cases s'
  cases t'
  simp_all [name]

end Scratch

/-! ## Compilations -/

/-- A compilation of a program that was read from a source. -/
structure Compilation where
  name : Name
  source : Bytes
  body : List Node
  /-- The prelude before the exports of the imports are in it. -/
  base : Prelude
  prelude : Prelude
  scratch : Scratch
  deps : List Bytes
  units : NameMap CodeUnit

namespace Compilation

def inputs (c : Compilation) : KeyInputs :=
  { name := c.name, source := c.source, prelude := c.prelude, scratch := c.scratch.names
    deps := c.deps }

def options (c : Compilation) : CompileOptions :=
  { name := c.name, prelude := c.prelude, scratch := c.scratch }

def result (c : Compilation) : Except CompileFailure CodeUnit :=
  CodeUnit.compile { c.options with includer := some (Loader.includer c.units) } (.program c.body)

/-- What is asked of the program of a compilation: it is what was read from the source, with imports
in front of it. -/
structure Sourced (common : Option Prelude) (source : Bytes) (body : List Node) : Prop where
  program : ∃ std parsed, Program.ofSource source = (parsed, []) ∧
    body = Program.withImports std parsed
  importsAtTop : Program.ImportsAtTop body
  separate : common = none → 0 ∉ source

/-- What is asked of a compilation for its key to stand for its result. Either all compilations
start from one common prelude, or no source has zero bytes, and neither have the names in the
prelude. -/
structure Orderly (hash : Bytes → Bytes) (common : Option Prelude) (c : Compilation) : Prop where
  name : 0 ∉ c.name
  scratch : ∀ s ∈ c.scratch.names, 0 ∉ s
  sourced : Sourced common c.source c.body
  units : Settled common c.units
  gathered : Gathered hash c.units c.base (Program.topImports c.body) c.prelude c.deps
  base : ∀ p ∈ common, c.base = p
  separate : common = none → ∀ e ∈ c.base.entries, 0 ∉ e.1 ∧ e.2.Plain

variable {common : Option Prelude} {c d : Compilation}

theorem Orderly.proper_absorbed (h : c.Orderly hash common) : c.inputs.absorbed.Proper where
  name := h.name
  preludeNames _ he := absurd he List.not_mem_nil
  preludeKinds _ he := absurd he List.not_mem_nil
  scratch s hs := ⟨fun hnil => Scratch.nil_notMem_names c.scratch (hnil ▸ hs), h.scratch s hs⟩
  deps := h.gathered.deps_proper h.units

theorem Orderly.proper (h : c.Orderly hash common) (hcommon : common = none) :
    c.inputs.Proper := by
  have hentry : ∀ e ∈ c.prelude.entries, 0 ∉ e.1 ∧ e.2.Plain := by
    intro e he
    rcases h.gathered.prelude_cases e he with he | ⟨name, u, hunit, he⟩
    · exact h.separate hcommon e he
    · exact ⟨h.units.exports hcommon name u hunit e he,
        ((h.units.faithful name u hunit).plain e he).1⟩
  exact ⟨h.proper_absorbed.name, fun e he => (hentry e he).1, fun e he => (hentry e he).2,
    h.proper_absorbed.scratch, h.proper_absorbed.deps⟩

theorem Orderly.inputs_eq (hhash : Function.Injective hash) (hc : c.Orderly hash common)
    (hd : d.Orderly hash common) (h : c.inputs.keyBy hash = d.inputs.keyBy hash) :
    c.inputs = d.inputs := by
  have hpreimage : c.inputs.preimage = d.inputs.preimage := hhash (Bytes.toHex_injective h)
  cases hcommon : common with
  | none =>
    exact KeyInputs.eq_of_preimage_eq (hc.proper hcommon) (hd.proper hcommon)
      (hc.sourced.separate hcommon) (hd.sourced.separate hcommon) hpreimage
  | some p =>
    obtain ⟨hname, hscratch, hdeps, hsource⟩ :=
      KeyInputs.source_eq_of_preimage_eq hc.proper_absorbed hd.proper_absorbed hpreimage
    have hbase : c.base = d.base := by rw [hc.base p hcommon, hd.base p hcommon]
    have hgathered : Gathered hash d.units d.base (Program.topImports d.body) d.prelude c.deps := by
      rw [show c.deps = d.deps from hdeps]
      exact hd.gathered
    have hprelude : c.prelude = d.prelude :=
      (hc.gathered.unique hhash hc.units hd.units hgathered).2.2 hbase
    have hsource := hsource hprelude
    unfold inputs at *
    simp_all

theorem Orderly.result_eq (hhash : Function.Injective hash) (hc : c.Orderly hash common)
    (hd : d.Orderly hash common) (h : c.inputs.keyBy hash = d.inputs.keyBy hash) :
    c.result = d.result := by
  have hinputs := hc.inputs_eq hhash hd h
  simp only [inputs, KeyInputs.mk.injEq] at hinputs
  obtain ⟨hname, hsource, hprelude, hscratch, hdeps⟩ := hinputs
  have hgathered := hd.gathered
  rw [← hdeps] at hgathered
  obtain ⟨htop, hagree, -⟩ := hc.gathered.unique hhash hc.units hd.units hgathered
  have hbody : c.body = d.body := by
    obtain ⟨std, parsed, hparsed, hwith⟩ := hc.sourced.program
    obtain ⟨std', parsed', hparsed', hwith'⟩ := hd.sourced.program
    rw [hsource, hparsed'] at hparsed
    obtain rfl : parsed' = parsed := (Prod.mk.inj hparsed).1
    rw [hwith, hwith'] at htop ⊢
    exact Program.withImports_eq_of_topImports htop
  have hincluder : ∀ name ∈ Node.importsOfAll c.body,
      Loader.includer c.units name = Loader.includer d.units name := by
    intro name himport
    unfold Loader.includer
    rw [hagree name (hc.sourced.importsAtTop name himport)]
  let o : CompileOptions := ⟨c.name, c.prelude, c.scratch, some (Loader.includer d.units)⟩
  calc c.result
    _ = CodeUnit.compile o (.program c.body) := CodeUnit.compile_congr_includer hincluder
    _ = CodeUnit.compile ⟨c.name, c.prelude, d.scratch, o.includer⟩ (.program c.body) :=
        CodeUnit.compile_congr_scratch (o := o) (Scratch.withDefaults_eq_of_names hscratch) _
    _ = d.result := by
        rw [hname, hprelude, hbody]
        rfl

end Compilation

/-- Encoded code that was the result of an orderly compilation under a key. -/
def Recorded (hash : Bytes → Bytes) (common : Option Prelude) (key code : Bytes) : Prop :=
  ∃ (c : Compilation) (u : CodeUnit), c.Orderly hash common ∧ c.inputs.keyBy hash = key ∧
    c.result = .ok u ∧ u.encode = .ok code

theorem Recorded.result_of_decode {common : Option Prelude} {key code : Bytes} {c : Compilation}
    {v : CodeUnit} (hhash : Function.Injective hash) (h : Recorded hash common key code)
    (hc : c.Orderly hash common) (hkey : c.inputs.keyBy hash = key)
    (hdecode : CodeUnit.decode code = .ok v) :
    ∃ u, c.result = .ok u ∧ (u.Representable → v = u) := by
  obtain ⟨d, u, hd, hkey', hresult, hencode⟩ := h
  have hsame : c.result = d.result := hc.result_eq hhash hd (by rw [hkey, hkey'])
  refine ⟨u, by rw [hsame, hresult], fun hu => ?_⟩
  have hfaithful : u.Faithful := ⟨hu, CodeUnit.plainExports_of_compile hresult⟩
  exact hfaithful.eq_of_decode hencode hdecode

end UnitScript
