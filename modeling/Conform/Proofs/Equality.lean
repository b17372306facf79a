import Conform.Proofs.Value.Equality
import Conform.Ty.Equality

namespace Conform

theorem Value.beqItems_refl (vs : List Value) : beqItems vs vs = true :=
  beqItems_iff.mpr (List.forall₂_same.mpr fun v _ => v.beq_refl)

instance : ReflBEq Predicate where
  rfl {p} := by
    change (p.name == p.name && Value.beqItems p.args p.args) = true
    rw [BEq.rfl, Value.beqItems_refl, Bool.and_self]

theorem Rule.beq_refl (rule : Rule) : rule.beq rule = true := by
  induction rule with
  | predicate p => exact BEq.refl p
  | and l r hl hr => simp [beq, hl, hr]
  | or l r hl hr => simp [beq, hl, hr]

instance : ReflBEq Rule := ⟨fun {rule} => rule.beq_refl⟩

instance : ReflBEq Func := ⟨fun {f} => BEq.refl f.handle⟩

theorem Metadata.beqEntries_refl (entries : List (String × Value)) :
    beqEntries entries entries = true := by
  induction entries with
  | nil => rfl
  | cons e es ih => simp [beqEntries, ih]

instance : ReflBEq Metadata := ⟨fun {m} => Metadata.beqEntries_refl m.entries⟩

section

variable {φ : Type} [BEq φ] [ReflBEq φ]

instance : ReflBEq (Fallback φ) where
  rfl {value} := by
    cases value with
    | literal v => exact BEq.refl v
    | callable f => exact BEq.refl f

instance : ReflBEq (KeyTransform φ) where
  rfl {transform} := by
    cases transform with
    | custom f => exact BEq.refl f
    | _ => rfl

end

end Conform
