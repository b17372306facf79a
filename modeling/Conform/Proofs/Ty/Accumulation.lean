import Conform.Proofs.Primitive
import Conform.Proofs.Ty.Constraints
import Conform.Proofs.Ty.Settled

/-!
What types accept that have had constraints put on them. One that bears them accepts what it
accepted before and they hold of; where nil is let through it still is. Constraints are judged by
one vocabulary for each layer, which need not be the one that they are given in.
-/

namespace Conform

namespace Ty

section

variable {scope : Scope} {input v : Value} {rule : Rule}

theorem coerces_constrained_iff {inner : Ty} {set : PredicateSet} :
    (constrained inner rule set).Coerces scope input (.ok v) ↔
      inner.Coerces scope input (.ok v) ∧ (rule.judge set v).holds = true := by
  constructor
  · rintro ⟨fuel, h⟩
    cases fuel with
    | zero => simp [coerce] at h
    | succ fuel =>
      obtain ⟨r, hr, h⟩ := bind_eq_ok.mp h
      cases r with
      | error e => cases h
      | ok w =>
        obtain ⟨rfl, hholds⟩ := check_eq_success.mp (Outcome.toResult_eq_ok.mp (pure_eq_ok.mp h))
        exact ⟨⟨fuel, hr⟩, hholds⟩
  · rintro ⟨⟨fuel, h⟩, hholds⟩
    have hchecked := check_eq_success.mpr ⟨rfl, hholds⟩
    refine ⟨fuel + 1, ?_⟩
    simp only [coerce, h, ok_bind, hchecked]
    rfl

theorem coerces_restrict_iff (ty : Ty) (set : PredicateSet) :
    (ty.restrict set rule).Coerces scope input (.ok v) ↔
      ty.Coerces scope input (.ok v) ∧ (rule.judge (ty.judgedBy set) v).holds = true := by
  cases ty with
  | constrained inner own kept =>
    rw [restrict, coerces_constrained_iff, coerces_constrained_iff, Rule.holds_and,
      Bool.and_eq_true, and_assoc]
    exact Iff.rfl
  | _ => exact coerces_constrained_iff

theorem attempts_restrict_iff (ty : Ty) (set : PredicateSet) :
    (ty.restrict set rule).Attempts scope input (.success v) ↔
      ty.Attempts scope input (.success v) ∧ (rule.judge (ty.judgedBy set) v).holds = true := by
  cases ty with
  | constrained inner own kept =>
    rw [restrict, attempts_constrained_iff, attempts_constrained_iff, Rule.holds_and,
      Bool.and_eq_true, and_assoc]
    exact Iff.rfl
  | _ => exact attempts_constrained_iff

theorem coerces_sum_of_success {left right : Ty} {info : Metadata}
    (h : left.Attempts scope input (.success v)) :
    (sum left right info).Coerces scope input (.ok v) := by
  obtain ⟨fuel, h⟩ := h
  refine ⟨fuel + 1, ?_⟩
  simp only [coerce, h]
  rfl

theorem coerces_sum_of_failure {left right : Ty} {info : Metadata} {w : Value} {e : Explanation}
    (h : left.Attempts scope input (.failure w e)) (r : Result Value) :
    (sum left right info).Coerces scope input r ↔ right.Coerces scope input r := by
  constructor
  · rintro ⟨fuel, hr⟩
    cases fuel with
    | zero => simp [coerce] at hr
    | succ fuel =>
      obtain ⟨o, ho, hr⟩ := bind_eq_ok.mp hr
      obtain rfl := h.unique ⟨fuel, ho⟩
      exact ⟨fuel, hr⟩
  · rintro ⟨more, hr⟩
    obtain ⟨fuel, h⟩ := h
    have h := attempt_mono (Nat.le_max_left fuel more) h
    have hr := coerce_mono (Nat.le_max_right fuel more) hr
    refine ⟨max fuel more + 1, ?_⟩
    simp only [coerce, h, ok_bind, hr]

/-- What is safe gives what is inside, or its input. -/
theorem coerces_safe_iff {t : Ty} {r : Result Value} : (safe t).Coerces scope input r ↔
    ∃ inner, t.Coerces scope input inner ∧ r = .ok (inner.toOption.getD input) := by
  constructor
  · rintro ⟨fuel, h⟩
    cases fuel with
    | zero => cases h
    | succ fuel =>
      obtain ⟨inner, hinner, h⟩ := bind_eq_ok.mp h
      refine ⟨inner, ⟨fuel, hinner⟩, ?_⟩
      cases inner with
      | ok v => exact (pure_eq_ok.mp h).symm
      | error e => exact (pure_eq_ok.mp h).symm
  · rintro ⟨inner, ⟨fuel, h⟩, rfl⟩
    refine ⟨fuel + 1, ?_⟩
    simp only [coerce, h, ok_bind]
    cases inner <;> rfl

theorem coerces_lax_iff {t : Ty} {r : Result Value} : (lax t).Coerces scope input r ↔
    ∃ inner, t.Coerces scope input inner ∧ r = .ok (inner.toOption.getD input) := by
  have hsame : ∀ fuel, coerce scope fuel (lax t) input = coerce scope fuel (safe t) input := by
    intro fuel
    cases fuel <;> rfl
  rw [← coerces_safe_iff]
  simp only [Coerces, hsame]

end

section

variable {scope : Scope} {fuel : Nat} {given : Option PredicateSet}

/-- A type on which constraints are put, and that does not hand them on, is found to bear them. -/
theorem bears_of_constrain {ty : Ty} {options : List (String × Value)} {r : Result Ty}
    (h : ¬ty.HandsOn scope) (hr : ty.constrain scope fuel options given = .ok r) :
    ty.Bears scope fuel := by
  cases ty with
  | sum left right info =>
    cases hp : left.primitive scope fuel with
    | error e =>
      rw [constrain_halted hp] at hr
      cases hr
    | ok p =>
      refine ⟨p, hp, ?_⟩
      rintro rfl
      exact h ⟨fuel, hp⟩
  | defaulted inner value => exact h trivial
  | maybe inner => exact h trivial
  | _ => trivial

end

end Ty

end Conform
