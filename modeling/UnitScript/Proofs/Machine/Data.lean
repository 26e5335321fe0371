import UnitScript.Proofs.Code.Data
import UnitScript.Proofs.Machine.Runs

/-!
# The data of a unit on the machine

Runs leave the data alone, so a data operand is loaded as the last entry of its name wherever a run
comes to.
-/

namespace UnitScript

namespace Machine

open Instruction

variable {limits : Limits} {code all rest : List Instruction} {start m : Machine}

theorem Visits.data (h : Visits limits code start all rest m) : m.data = start.data := by
  induction h with
  | start => rfl
  | next _ hi ih => exact hi.cellsKept.data.trans ih
  | jump _ _ hc _ ih | pass _ _ hc ih | enter _ _ hc ih =>
    obtain rfl := countStep_eq_ok hc
    exact ih
  | @leave _ i _ m _ _ fuel _ _ hc hin ih =>
    obtain rfl := countStep_eq_ok hc
    have hkept := cellsKept_exec limits fuel i.children i.children m.tick
    rw [hin] at hkept
    exact hkept.data.trans ih
  | call _ _ _ hc _ _ hp ih =>
    obtain rfl := countStep_eq_ok hc
    exact (popParams_eq_ok hp).data.trans ih

end Machine

open Machine

variable {u : CodeUnit} {m : Machine} {name : Name} {s : Bytes}

/-- The machines that runs of the unit come by: those that a run can be started on, and those at the
places of a run. -/
inductive CodeUnit.ComesBy (u : CodeUnit) : Machine → Prop where
  | serving {m₀} : Serves u m₀ → u.ComesBy m₀
  | running {limits m₀ all rest m} : Serves u m₀ → u.RunsInto limits m₀ all rest m → u.ComesBy m

theorem CodeUnit.ComesBy.data (h : u.ComesBy m) :
    m.data = NameMap.ofList (u.data.map fun d => (d.name, d.value)) := by
  cases h with
  | serving hm => exact hm.data
  | @running _ m₀ _ _ _ hm hplace =>
    obtain ⟨start, hstart, hvisits⟩ := hplace
    have hregister := congrArg Machine.data (registerAll_eq hstart)
    exact hvisits.data.trans (hregister.trans hm.data)

/-- Wherever runs of the unit come to, a data operand of the name is loaded as the string. -/
def CodeUnit.Loads (u : CodeUnit) (name : Name) (s : Bytes) : Prop :=
  ∀ m, u.ComesBy m → load (.data name) m = (.ok (.string s), m)

theorem CodeUnit.loads_iff : u.Loads name s ↔ Datum.last? u.data name = some s := by
  have hvalue : ∀ {m}, u.ComesBy m →
      m.value? (.data name) = (Datum.last? u.data name).map Value.string := by
    intro m hm
    show (m.data.get? name).map Value.string = _
    rw [hm.data]
    rfl
  constructor
  · intro h
    have hnew : u.ComesBy (ofUnit u none) := .serving (.new none)
    obtain ⟨hloaded, -⟩ := load_eq_ok (h _ hnew)
    rw [hvalue hnew] at hloaded
    obtain ⟨t, ht, heq⟩ := Option.map_eq_some_iff.1 hloaded
    cases heq
    exact ht
  · intro h m hm
    apply load_of_some
    rw [hvalue hm, h]
    rfl

end UnitScript
