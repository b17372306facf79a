import Conform.Value.Basic

/-! Classes and their names. -/

namespace Conform.Primitive

theorem admits_nil_iff {v : Value} : nil.admits v = true ↔ v = .nil := by
  cases v <;> simp [admits, Value.primitive, Value.isUndefined]

theorem name_inj {p q : Primitive} (h : p.name = q.name) : p = q := by
  have hp := ofName?_name p
  rw [h, ofName?_name q] at hp
  exact (Option.some.inj hp).symm

theorem noDot_name (p : Primitive) : '.' ∉ p.name.toList := by
  cases p <;> decide

end Conform.Primitive
