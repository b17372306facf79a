import Conform.Proofs.Run
import Conform.Proofs.Value.Equality
import Conform.Rule.Standard

namespace Conform

namespace PredicateSet

/-- Every predicate of the rule is in the vocabulary, with its first argument. -/
def Accepts (set : PredicateSet) (rule : Rule) : Prop :=
  ∀ p ∈ rule.predicates, ∃ compiled,
    set.compile p.name (p.args.head?.getD (.bool true)) = .ok compiled

end PredicateSet

namespace Standard

theorem predicateName_predicateName (option : String) :
    predicateName (predicateName option) = predicateName option := by
  have hmark : predicateName option = option ∨
      (predicateName option).toList.getLast? = some '?' := by
    unfold predicateName
    split
    next => exact Or.inl rfl
    next => exact Or.inr (by simp)
  rcases hmark with h | h
  · rw [h, h]
  · rw [predicateName, if_pos h]

/-- The predicates of a compiled rule compile again. -/
theorem accepts_compile {option : String} {arg : Value} {rule : Rule}
    (h : compile option arg = .ok rule) : predicates.Accepts rule := by
  have hname := predicateName_predicateName option
  unfold compile compileWith at h
  dsimp only at h
  intro p hp
  cases ha : arity? (predicateName option) with
  | none => simp [ha] at h
  | some n =>
    cases n with
    | zero =>
      simp only [ha] at h
      split at h
      next =>
        obtain rfl := Except.ok.inj h
        obtain rfl := List.mem_singleton.mp hp
        refine ⟨.predicate ⟨predicateName option, []⟩, ?_⟩
        simp [predicates, Formats.vocabulary, compileWith, hname, ha]
      next => simp at h
    | succ n =>
      simp only [ha] at h
      cases hr : refusal? Formats.standard.valid (predicateName option) arg with
      | some message => simp [hr] at h
      | none =>
        simp only [hr] at h
        obtain rfl := Except.ok.inj h
        obtain rfl := List.mem_singleton.mp hp
        refine ⟨.predicate ⟨predicateName option, [arg]⟩, ?_⟩
        simp [predicates, Formats.vocabulary, compileWith, hname, ha, hr]

end Standard

end Conform
