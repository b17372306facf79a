import Conform.Proofs.Ty.Accumulation

/-!
Constraints that are given in a vocabulary of their own. A type that is constrained already reads
them in its own vocabulary instead; what it then accepts is what is meant where the two agree on the
rule.
-/

namespace Conform

namespace Ty

section

variable {scope : Scope} {ty : Ty} {set : PredicateSet} {options : List (String × Value)}
  {rule : Rule}

/-- What is decided by one of two conditions is decided by the other where they agree. -/
theorem coerces_and_iff_agree {judged meant : Value → Bool} {t : Ty}
    (h : ∀ x v, t.Coerces scope x (.ok v) ↔ ty.Coerces scope x (.ok v) ∧ judged v = true) :
    (∀ x v, t.Coerces scope x (.ok v) ↔ ty.Coerces scope x (.ok v) ∧ meant v = true) ↔
      ∀ x v, ty.Coerces scope x (.ok v) → judged v = meant v := by
  constructor
  · intro hmeant x v hv
    have hiff := (h x v).symm.trans (hmeant x v)
    simp only [hv, true_and] at hiff
    exact Bool.eq_iff_iff.mpr hiff
  · intro hagree x v
    rw [h]
    exact and_congr_right fun hv => by rw [hagree x v hv]

theorem exists_bears (h : ¬ty.HandsOn scope)
    (hclass : ∀ left right info, ty = sum left right info →
      ∃ fuel p, left.primitive scope fuel = .ok p) : ∃ fuel, ty.Bears scope fuel := by
  cases ty with
  | sum left right info =>
    obtain ⟨fuel, p, hp⟩ := hclass left right info rfl
    refine ⟨fuel, p, hp, ?_⟩
    rintro rfl
    exact h ⟨fuel, hp⟩
  | defaulted inner value => exact absurd trivial h
  | maybe inner => exact absurd trivial h
  | _ => exact ⟨0, trivial⟩

/-- Constraints that compile in a vocabulary are put on any type that does not hand them on, and are
judged by the vocabulary of its layer. They mean what they mean in their own if and only if the two
have one verdict on all that the type gives. -/
theorem constrain_in_vocabulary (h : ¬ty.HandsOn scope)
    (hrule : set.compileOptions options = .ok rule) :
    ((∀ left right info, ty = sum left right info →
        ∃ fuel p, left.primitive scope fuel = .ok p) →
      ∃ fuel t, ty.constrain scope fuel options (some set) = .ok (.ok t)) ∧
    ∀ fuel r, ty.constrain scope fuel options (some set) = .ok r → ∃ t, r = .ok t ∧
      (∀ x v, t.Coerces scope x (.ok v) ↔
        ty.Coerces scope x (.ok v) ∧ (rule.judge (ty.judgedBy set) v).holds = true) ∧
      ((∀ x v, t.Coerces scope x (.ok v) ↔
          ty.Coerces scope x (.ok v) ∧ (rule.judge set v).holds = true) ↔
        ∀ x v, ty.Coerces scope x (.ok v) →
          (rule.judge (ty.judgedBy set) v).holds = (rule.judge set v).holds) := by
  have hbuild : ∀ fuel, ty.Bears scope fuel →
      ty.constrain scope fuel options (some set) = .ok (.ok (ty.restrict set rule)) := by
    intro fuel hbears
    rw [hbears.constrain, Option.getD_some, hrule]
    rfl
  constructor
  · intro hclass
    obtain ⟨fuel, hbears⟩ := exists_bears h hclass
    exact ⟨fuel, _, hbuild fuel hbears⟩
  · intro fuel r hr
    obtain rfl := Except.ok.inj ((hbuild fuel (bears_of_constrain h hr)).symm.trans hr)
    have hjudged : ∀ x v, (ty.restrict set rule).Coerces scope x (.ok v) ↔
        ty.Coerces scope x (.ok v) ∧ (rule.judge (ty.judgedBy set) v).holds = true :=
      fun x v => coerces_restrict_iff ty set
    exact ⟨_, rfl, hjudged, coerces_and_iff_agree hjudged⟩

end

/-- A vocabulary that has a predicate for each option, which holds of its argument alone. -/
def literalVocabulary : PredicateSet where
  name := "literal"
  compile option arg := .ok (.predicate ⟨"m:" ++ option, [arg]⟩)
  holds p v := "m:".toList.isPrefixOf p.name.toList && p.args.head?.any fun arg => arg == v

theorem constrain_in_literalVocabulary :
    (¬(strict .int).HandsOn chainScope ∧
      literalVocabulary.compileOptions [("x", .int 5)] = .ok (.predicate ⟨"m:x", [.int 5]⟩)) ∧
    ∃ fuel t, (strict .int).constrain chainScope fuel [("x", .int 5)] (some literalVocabulary) =
        .ok (.ok t) ∧
      ∀ x v, t.Coerces chainScope x (.ok v) ↔ (strict .int).Coerces chainScope x (.ok v) ∧
        (Rule.judge Standard.predicates v (.predicate ⟨"m:x", [.int 5]⟩)).holds = true := by
  have hrule : literalVocabulary.compileOptions [("x", .int 5)] =
      .ok (.predicate ⟨"m:x", [.int 5]⟩) := rfl
  have hbears : ¬(strict .int).HandsOn chainScope := fun h => h
  obtain ⟨hbuilds, hlaw⟩ := constrain_in_vocabulary hbears hrule
  obtain ⟨fuel, t, ht⟩ := hbuilds fun _ _ _ h => by cases h
  obtain ⟨u, hu, hjudged, -⟩ := hlaw fuel _ ht
  obtain rfl := Except.ok.inj hu
  exact ⟨⟨hbears, hrule⟩, fuel, t, ht, hjudged⟩

/-- An integer that is checked to be one is refused, although it is the one that is asked for. -/
theorem strict_int_refuses_literal : ∃ rule t,
    ¬(strict .int).HandsOn chainScope ∧
    literalVocabulary.compileOptions [("x", .int 5)] = .ok rule ∧
    (strict .int).constrain chainScope 1 [("x", .int 5)] (some literalVocabulary) = .ok (.ok t) ∧
    (strict .int).Coerces chainScope (.int 5) (.ok (.int 5)) ∧
    (rule.judge literalVocabulary (.int 5)).holds = true ∧
    ¬t.Coerces chainScope (.int 5) (.ok (.int 5)) := by
  refine ⟨_, _, fun h => h, rfl, rfl, ⟨2, rfl⟩, rfl, ?_⟩
  intro h
  have hrefused := (coerces_constrained_iff.mp h).2
  cases hrefused

end Ty

end Conform
