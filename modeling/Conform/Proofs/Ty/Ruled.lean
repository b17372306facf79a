import Conform.Proofs.Rule.Options
import Conform.Proofs.Ty.Acceptance
import Conform.Proofs.Ty.Info
import Conform.Ty.Build

/-!
Types that differ in one rule, at the place where constraints are put. If the two rules have the
same verdicts the types do the same; if they only hold of the same values, the types accept the
same.
-/

namespace Conform

/-- A way to compare what becomes of a value: what is accepted is to be the same. -/
structure Comparison where
  outcome : Outcome → Outcome → Prop
  result : Result Value → Result Value → Prop
  outcome_refl : ∀ o, outcome o o
  result_refl : ∀ r, result r r
  success_iff : ∀ {o o'}, outcome o o' → ∀ v, o = .success v ↔ o' = .success v
  ok_iff : ∀ {r r'}, result r r' → ∀ v, r = .ok v ↔ r' = .ok v
  list : ∀ {v w e f}, outcome (.failure v e) (.failure w f) →
    ∀ d, outcome (.failure v (.list [d, e])) (.failure w (.list [d, f]))
  toResult : ∀ {o o'}, outcome o o' → result o.toResult o'.toResult

namespace Comparison

/-- Everything is compared. -/
def exactly : Comparison where
  outcome := Eq
  result := Eq
  outcome_refl _ := rfl
  result_refl _ := rfl
  success_iff h _ := by rw [h]
  ok_iff h _ := by rw [h]
  list h _ := by
    obtain ⟨rfl, rfl⟩ := Outcome.failure.inj h
    rfl
  toResult h := by rw [h]

/-- Only what is accepted is compared. -/
def accepted : Comparison where
  outcome o o' := ∀ v, o = .success v ↔ o' = .success v
  result r r' := ∀ v, r = .ok v ↔ r' = .ok v
  outcome_refl _ _ := Iff.rfl
  result_refl _ _ := Iff.rfl
  success_iff h := h
  ok_iff h := h
  list _ _ _ := by simp
  toResult {o o'} h v := by
    have hv := h v
    cases o <;> cases o' <;> simp_all [Outcome.toResult]

theorem isSuccess_eq {c : Comparison} {o o' : Outcome} (h : c.outcome o o') :
    o.isSuccess = o'.isSuccess := by
  cases o with
  | success v => rw [(c.success_iff h v).mp rfl]
  | failure v e =>
    cases o' with
    | success w => cases (c.success_iff h w).mpr rfl
    | failure w f => rfl

end Comparison

namespace Ty

/-- Two types end alike on every value, at every depth, as far as they are compared. -/
structure Comparable (c : Comparison) (scope : Scope) (t u : Ty) : Prop where
  coerce : ∀ fuel input,
    EndsAlike c.result (t.coerce scope fuel input) (u.coerce scope fuel input)
  attempt : ∀ fuel input,
    EndsAlike c.outcome (t.attempt scope fuel input) (u.attempt scope fuel input)
  accepts : ∀ fuel input, t.accepts scope fuel input = u.accepts scope fuel input

/-- Two types differ at most in the rule of the layer where constraints are put. -/
inductive Ruled (R : Rule → Rule → Prop) : Ty → Ty → Prop
  | here (inner : Ty) (set : PredicateSet) {rule rule' : Rule} (h : R rule rule') :
      Ruled R (constrained inner rule set) (constrained inner rule' set)
  | right (left : Ty) (info : Metadata) {r r' : Ty} (h : Ruled R r r') :
      Ruled R (sum left r info) (sum left r' info)
  | default (value : Fallback Func) {t u : Ty} (h : Ruled R t u) :
      Ruled R (defaulted t value) (defaulted u value)
  | maybe {t u : Ty} (h : Ruled R t u) : Ruled R (maybe t) (maybe u)

section

variable {c : Comparison} {scope : Scope} {t u : Ty}

theorem comparable_constrained (inner : Ty) (set : PredicateSet) {rule rule' : Rule}
    (h : ∀ v, c.outcome (check rule set v) (check rule' set v)) :
    (constrained inner rule set).Comparable c scope (constrained inner rule' set) := by
  have hattempt : ∀ fuel input, EndsAlike c.outcome
      ((constrained inner rule set).attempt scope fuel input)
      ((constrained inner rule' set).attempt scope fuel input) := by
    intro fuel input
    cases fuel with
    | zero => exact .error _
    | succ fuel =>
      refine (EndsAlike.refl (R := Eq) (fun _ => rfl) (inner.attempt scope fuel input)).bind ?_
      rintro o _ rfl
      cases o with
      | success v => exact .ok (h v)
      | failure v e => exact .ok (c.outcome_refl _)
  refine ⟨fun fuel input => ?_, hattempt, fun fuel input => ?_⟩
  · cases fuel with
    | zero => exact .error _
    | succ fuel =>
      refine (EndsAlike.refl (R := Eq) (fun _ => rfl) (inner.coerce scope fuel input)).bind ?_
      rintro r _ rfl
      cases r with
      | ok v => exact .ok (c.toResult (h v))
      | error e => exact .ok (c.result_refl _)
  · cases fuel with
    | zero => rfl
    | succ fuel =>
      refine EndsAlike.eq ((hattempt (fuel + 1) input).bind fun o o' ho => ?_)
      rw [Comparison.isSuccess_eq ho]
      exact .ok rfl

theorem Comparable.right (h : t.Comparable c scope u) (left : Ty) (info : Metadata) :
    (sum left t info).Comparable c scope (sum left u info) := by
  refine ⟨fun fuel input => ?_, fun fuel input => ?_, fun fuel input => ?_⟩
  · cases fuel with
    | zero => exact .error _
    | succ fuel =>
      refine (EndsAlike.refl (R := Eq) (fun _ => rfl) (left.attempt scope fuel input)).bind ?_
      rintro o _ rfl
      cases o with
      | success v => exact .ok (c.result_refl _)
      | failure v e => exact h.coerce fuel input
  · cases fuel with
    | zero => exact .error _
    | succ fuel =>
      refine (EndsAlike.refl (R := Eq) (fun _ => rfl) (left.attempt scope fuel input)).bind ?_
      rintro o _ rfl
      cases o with
      | success v => exact .ok (c.outcome_refl _)
      | failure v e =>
        refine (h.attempt fuel input).bind fun o o' ho => ?_
        cases o with
        | success w =>
          obtain rfl := (c.success_iff ho w).mp rfl
          exact .ok (c.outcome_refl _)
        | failure w f =>
          cases o' with
          | success w' => cases (c.success_iff ho w').mpr rfl
          | failure w' f' => exact .ok (c.list ho e)
  · cases fuel with
    | zero => rfl
    | succ fuel => simp only [Ty.accepts, h.accepts]

theorem Comparable.default (h : t.Comparable c scope u) (value : Fallback Func) :
    (defaulted t value).Comparable c scope (defaulted u value) := by
  refine ⟨fun fuel input => ?_, fun fuel input => ?_, fun fuel input => ?_⟩
  · cases fuel with
    | zero => exact .error _
    | succ fuel =>
      simp only [Ty.coerce]
      split
      next => exact .ok (c.result_refl _)
      next =>
        refine (h.coerce fuel input).bind fun r r' hr => ?_
        cases r with
        | ok v =>
          obtain rfl := (c.ok_iff hr v).mp rfl
          exact EndsAlike.refl c.result_refl _
        | error e =>
          cases r' with
          | ok v => cases (c.ok_iff hr v).mpr rfl
          | error e' => exact .ok hr
  · cases fuel with
    | zero => exact .error _
    | succ fuel =>
      simp only [Ty.attempt]
      split
      next => exact .ok (c.outcome_refl _)
      next =>
        refine (h.attempt fuel input).bind fun o o' ho => ?_
        cases o with
        | success v =>
          obtain rfl := (c.success_iff ho v).mp rfl
          exact EndsAlike.refl c.outcome_refl _
        | failure v e =>
          cases o' with
          | success w => cases (c.success_iff ho w).mpr rfl
          | failure w f => exact .ok ho
  · cases fuel with
    | zero => rfl
    | succ fuel => simp only [Ty.accepts, h.accepts]

theorem Comparable.maybe (h : t.Comparable c scope u) :
    (maybe t).Comparable c scope (maybe u) := by
  refine ⟨fun fuel input => ?_, fun fuel input => ?_, fun fuel input => ?_⟩
  · cases fuel with
    | zero => exact .error _
    | succ fuel =>
      simp only [Ty.coerce]
      split
      next => exact .ok (c.result_refl _)
      next => exact h.coerce fuel input
  · cases fuel with
    | zero => exact .error _
    | succ fuel =>
      simp only [Ty.attempt]
      split
      next => exact .ok (c.outcome_refl _)
      next => exact h.attempt fuel input
  · cases fuel with
    | zero => rfl
    | succ fuel => simp only [Ty.accepts, h.accepts]

theorem Ruled.comparable {R : Rule → Rule → Prop}
    (hR : ∀ rule rule', R rule rule' → ∀ set v, c.outcome (check rule set v) (check rule' set v))
    (h : Ruled R t u) : t.Comparable c scope u := by
  induction h with
  | here inner set h => exact comparable_constrained inner set (hR _ _ h set)
  | right left info _ ih => exact ih.right left info
  | default value _ ih => exact ih.default value
  | maybe _ ih => exact ih.maybe

end

/-- Rules of the same verdicts make types that do the same. -/
theorem Ruled.alike {t u : Ty} (h : Ruled Rule.Same t u) : t.Alike u := by
  have hcheck : ∀ rule rule', Rule.Same rule rule' →
      ∀ set v, check rule set v = check rule' set v := by
    intro rule rule' hsame set v
    rw [check, check, hsame]
  intro scope fuel input
  have hc : t.Comparable .exactly scope u := h.comparable hcheck
  exact ⟨(hc.coerce fuel input).eq, (hc.attempt fuel input).eq, hc.accepts fuel input⟩

end Ty

end Conform
