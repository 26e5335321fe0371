import UnitScript.Project.Config
import UnitScript.Proofs.Module.Finding

/-!
# Names of stores in the settings

The settings resolve the name of a store against their folder, unless it is absolute or looks like an
address. The store has rules of its own for which names are addresses. Every address of the store looks
like one to the settings; the two part at the name of the store in memory, which is resolved like a path,
and at relative paths with a colon in their first part, which are left alone.
-/

namespace UnitScript

namespace Path

variable {p : Path}

theorem isAbsolute_iff : isAbsolute p = true ↔ ∃ q, p = slash :: q := by
  cases p with
  | nil => simp [isAbsolute]
  | cons b q => simp [isAbsolute]

theorem isAbsolute_clean (h : isAbsolute p = true) : isAbsolute (clean p) = true := by
  simp only [clean, h, if_true]
  rfl

theorem isAbsolute_join (h : isAbsolute p = true) (ps : List Path) :
    isAbsolute (join (p :: ps)) = true := by
  obtain ⟨q, rfl⟩ := isAbsolute_iff.1 h
  rw [join_cons_of_ne_nil (List.cons_ne_nil _ _)]
  apply isAbsolute_clean
  cases ps <;> rfl

end Path

/-- A name with a colon behind at least one byte, and no colon, slash, backslash or dot before it. -/
def Schemed (name : Bytes) : Prop :=
  ∃ lead rest, name = lead ++ 58 :: rest ∧ lead ≠ [] ∧ ∀ b ∈ lead, b ∉ [(58 : UInt8), 47, 92, 46]

variable {name : Bytes}

theorem Schemed.append (h : Schemed name) (more : Bytes) : Schemed (name ++ more) := by
  obtain ⟨lead, rest, rfl, hne, hlead⟩ := h
  exact ⟨lead, rest ++ more, by simp, hne, hlead⟩

theorem Schemed.not_absolute (h : Schemed name) : Path.isAbsolute name = false := by
  obtain ⟨_ | ⟨b, lead⟩, rest, rfl, hne, hlead⟩ := h
  · exact absurd rfl hne
  · have hb : b ≠ 47 := fun heq => hlead b (by simp) (by simp [heq])
    simpa [Path.isAbsolute, Path.slash] using hb

namespace StoreTarget

def leads : List Bytes := serverLeads ++ [embeddedLead, addressLead]

theorem schemed_of_lead {lead : Bytes} (hlead : lead ∈ leads) (h : lead <+: name) :
    Schemed name := by
  obtain ⟨rest, rfl⟩ := h
  have hscheme : ∀ l ∈ leads, l = l.takeWhile (· ≠ 58) ++ 58 :: (l.dropWhile (· ≠ 58)).tail ∧
      l.takeWhile (· ≠ 58) ≠ [] ∧
      ∀ b ∈ l.takeWhile (· ≠ 58), b ∉ [(58 : UInt8), 47, 92, 46] := by
    decide +kernel
  exact Schemed.append ⟨_, _, hscheme lead hlead⟩ rest

theorem ofEmbedded_eq_file_iff {source p : Bytes} : ofEmbedded source = .file p ↔
    ¬addressLead <+: source ∧ source ≠ memoryName ∧ p = source := by
  by_cases haddress : addressLead <+: source
  · simp [ofEmbedded, haddress]
  · by_cases hmemory : source = memoryName
    · rw [ofEmbedded, if_neg (by simpa using haddress), if_pos hmemory]
      simp [hmemory]
    · rw [ofEmbedded, if_neg (by simpa using haddress), if_neg hmemory]
      simp [haddress, hmemory, eq_comm]

theorem isPlainFile_iff :
    IsPlainFile name ↔ name ≠ memoryName ∧ ∀ lead ∈ leads, ¬lead <+: name := by
  have hleads : (∀ lead ∈ leads, ¬lead <+: name) ↔ ¬serverLeads.any (·.isPrefixOf name) = true ∧
      ¬embeddedLead <+: name ∧ ¬addressLead <+: name := by
    rw [leads, List.forall_mem_append]
    simp
  rw [hleads, IsPlainFile, ofName]
  by_cases hserver : serverLeads.any (·.isPrefixOf name) = true
  · simp [hserver]
  rw [if_neg hserver, ofEmbedded_eq_file_iff]
  by_cases hembedded : embeddedLead <+: name
  · -- what is opened is the rest behind the lead, which is not the whole name
    obtain ⟨rest, rfl⟩ := hembedded
    have hdrop : Bytes.dropLead? embeddedLead (embeddedLead ++ rest) = some rest := by
      simp [Bytes.dropLead?]
    have hne : embeddedLead ≠ [] := by decide
    simp [hdrop, hne]
  · have hdrop : Bytes.dropLead? embeddedLead name = none := by
      simp [Bytes.dropLead?, hembedded]
    rw [hdrop, Option.getD_none]
    simp [hserver, hembedded, and_comm]

end StoreTarget

namespace ProjectConfig

theorem hasScheme_iff : hasScheme name = true ↔ Schemed name := by
  let free (b : UInt8) : Bool := !(b = 58 || b = 47 || b = 92 || b = 46)
  have hfree : ∀ b, free b = true ↔ b ∉ [(58 : UInt8), 47, 92, 46] := by
    intro b
    simp [free, and_assoc]
  have hscheme : hasScheme name = true ↔
      name.takeWhile free ≠ [] ∧ name[(name.takeWhile free).length]? = some 58 := by
    simp [hasScheme, free]
  rw [hscheme]
  constructor
  · rintro ⟨hne, hcolon⟩
    have hsplit : name.takeWhile free ++ name.dropWhile free = name :=
      List.takeWhile_append_dropWhile
    have hhead : (name.dropWhile free)[0]? = some 58 := by
      have happend : (name.takeWhile free ++ name.dropWhile free)[(name.takeWhile free).length]? = _ :=
        List.getElem?_append_right (Nat.le_refl _)
      rw [hsplit, hcolon, Nat.sub_self] at happend
      exact happend.symm
    obtain ⟨rest, hrest⟩ : ∃ rest, name.dropWhile free = 58 :: rest := by
      cases hdrop : name.dropWhile free <;> simp_all
    rw [hrest] at hsplit
    refine ⟨name.takeWhile free, rest, hsplit.symm, hne, fun b hb => (hfree b).1 ?_⟩
    exact List.all_eq_true.1 List.all_takeWhile b hb
  · rintro ⟨lead, rest, rfl, hne, hlead⟩
    have htake : (lead ++ 58 :: rest).takeWhile free = lead := by
      rw [List.takeWhile_append_of_pos fun b hb => (hfree b).2 (hlead b hb)]
      simp [free]
    rw [htake]
    exact ⟨hne, by simp⟩

instance : Decidable (Schemed name) := decidable_of_iff _ hasScheme_iff

theorem not_schemed_memoryName : ¬Schemed StoreTarget.memoryName := by decide

/-- The settings keep the name of a store just where the store does not take it for a plain relative
path, except for the name of the store in memory and for plain paths that look like an address. -/
theorem cacheTarget_agrees_iff (c : ProjectConfig) (henabled : c.cacheEnabled = true)
    (hdir : Path.isAbsolute c.dir = true) :
    (StoreTarget.IsPlainFile c.cacheName ↔ c.cacheName ≠ StoreTarget.memoryName ∧
      ∀ lead ∈ StoreTarget.leads, ¬lead <+: c.cacheName) ∧
    (c.cacheTarget = (if Path.isAbsolute c.cacheName ∨ ¬StoreTarget.IsPlainFile c.cacheName then
        c.cacheName else Path.join [c.dir, c.cacheName]) ↔
      c.cacheName ≠ StoreTarget.memoryName ∧
        ¬(StoreTarget.IsPlainFile c.cacheName ∧ Schemed c.cacheName)) := by
  refine ⟨StoreTarget.isPlainFile_iff, ?_⟩
  have htarget : c.cacheTarget = if Path.isAbsolute c.cacheName ∨ Schemed c.cacheName then
      c.cacheName else Path.join [c.dir, c.cacheName] := by
    simp [cacheTarget, henabled, hasScheme_iff]
  rw [htarget]
  by_cases habsolute : Path.isAbsolute c.cacheName = true
  · have hmemory : c.cacheName ≠ StoreTarget.memoryName := by
      intro heq
      rw [heq] at habsolute
      exact absurd habsolute (by decide)
    have hscheme : ¬Schemed c.cacheName := by
      intro h
      rw [h.not_absolute] at habsolute
      cases habsolute
    simp [habsolute, hmemory, hscheme]
  · -- a relative name differs from its resolved path
    have hjoin : c.cacheName ≠ Path.join [c.dir, c.cacheName] := by
      intro heq
      rw [heq] at habsolute
      exact habsolute (Path.isAbsolute_join hdir _)
    have hplain : StoreTarget.IsPlainFile c.cacheName ↔ _ := StoreTarget.isPlainFile_iff
    by_cases hmemory : c.cacheName = StoreTarget.memoryName
    · have hscheme : ¬Schemed c.cacheName := hmemory ▸ not_schemed_memoryName
      have hnot : ¬StoreTarget.IsPlainFile c.cacheName := fun h => (hplain.1 h).1 hmemory
      rw [if_neg (not_or.2 ⟨habsolute, hscheme⟩), if_pos (.inr hnot)]
      exact iff_of_false (Ne.symm hjoin) fun h => h.1 hmemory
    · by_cases hscheme : Schemed c.cacheName
      · rw [if_pos (.inr hscheme)]
        by_cases hfile : StoreTarget.IsPlainFile c.cacheName <;>
          simp [habsolute, hfile, hmemory, hscheme, hjoin]
      · have hfile : StoreTarget.IsPlainFile c.cacheName :=
          hplain.2 ⟨hmemory, fun lead hlead h => hscheme (StoreTarget.schemed_of_lead hlead h)⟩
        simp [habsolute, hfile, hmemory, hscheme]

/-- Settings of a folder `/w` that keep units in the store of this name. -/
def storing (name : Bytes) : ProjectConfig :=
  { dir := Bytes.ofString "/w", cacheEnabled := true, cacheName := name }

/-- The store in memory becomes a file of the folder, and `my:cache.db` is not looked for there. -/
theorem cacheTarget_of_memoryName :
    (storing StoreTarget.memoryName).cacheTarget = Bytes.ofString "/w/:memory:" ∧
      ¬StoreTarget.IsPlainFile StoreTarget.memoryName ∧
      (storing (Bytes.ofString "my:cache.db")).cacheTarget = Bytes.ofString "my:cache.db" ∧
      ¬((storing (Bytes.ofString "my:cache.db")).cacheTarget =
        if Path.isAbsolute (Bytes.ofString "my:cache.db") ∨
            ¬StoreTarget.IsPlainFile (Bytes.ofString "my:cache.db") then Bytes.ofString "my:cache.db"
        else Path.join [Bytes.ofString "/w", Bytes.ofString "my:cache.db"]) := by
  refine ⟨by decide, by decide, by decide, ?_⟩
  intro hagrees
  have hiff := (cacheTarget_agrees_iff (storing (Bytes.ofString "my:cache.db")) rfl
    (by decide)).2
  exact (hiff.1 hagrees).2 (by decide)

end ProjectConfig

end UnitScript
