import Conform.Proofs.Schema.Recorded

namespace Conform

namespace Schema

theorem Refuses.considers {s : Schema Ty Func} {options : ApplyOptions} {present : Entries}
    {ends : Ty → Value → Result Value → Prop} {k : Key Ty} {e : Error}
    (h : s.Refuses options present ends k e) : s.considers options present k = true := by
  rw [← Bool.not_eq_false, considers_eq_false]
  cases h with
  | missing hp hf hr =>
    rw [supply_eq_missing.mpr ⟨hp, hf, hr⟩]
    exact fun h => by cases h
  | invalid hv he =>
    rw [supply_eq_value.mpr hv]
    exact fun h => by cases h

section

variable {scope : Scope} {s : Schema Ty Func} {options : ApplyOptions} {present : Entries}

/-- A key that fails when it is called has failed when it was tried. -/
theorem Notes.fails {k : Key Ty} {o : Outcome} {e : Error}
    (hn : s.Notes options present (Ty.Attempts scope) k o)
    (hr : s.Refuses options present (Ty.Coerces scope) k e) : o.isSuccess = false := by
  cases hr with
  | missing hp hf hr =>
    obtain rfl := (notes_iff_of_missing (supply_eq_missing.mpr ⟨hp, hf, hr⟩)).mp hn
    rfl
  | @invalid v f hv he =>
    have ho := (notes_iff_of_value (supply_eq_value.mpr hv)).mp hn
    cases o with
    | success w =>
      obtain ⟨fuel, ho⟩ := ho
      cases he.unique ⟨fuel, Ty.coerce_of_attempt ho⟩
    | failure w g => rfl

end

end Schema

end Conform
