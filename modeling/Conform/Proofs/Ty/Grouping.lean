import Conform.Proofs.Ty.Accumulation
import Conform.Proofs.Ty.Asking

/-!
Sums of sums. How alternatives are grouped decides which of them are tried and which one is called,
and how their explanations are put together; from the outside none of this can be told.
-/

namespace Conform

/-- Two outcomes read alike: they carry one value, and explanations of one text, if any. -/
def Outcome.ReadAlike (o o' : Outcome) : Prop :=
  o.input = o'.input ∧ o.error?.map Explanation.text = o'.error?.map Explanation.text

namespace Ty

section

variable {scope : Scope} {left right : Ty} {info : Metadata} {input : Value}

/-- A sum fails when both of its sides do, with what the right one makes of the value. -/
theorem attempts_sum_failure_iff {v : Value} {e : Explanation} :
    (sum left right info).Attempts scope input (.failure v e) ↔
      ∃ w f g, left.Attempts scope input (.failure w f) ∧
        right.Attempts scope input (.failure v g) ∧ e = .list [f, g] := by
  constructor
  · rintro ⟨fuel, h⟩
    cases fuel with
    | zero => simp [attempt] at h
    | succ fuel =>
      obtain ⟨l, hl, h⟩ := bind_eq_ok.mp h
      cases l with
      | success w => cases h
      | failure w f =>
        obtain ⟨r, hr, h⟩ := bind_eq_ok.mp h
        cases r with
        | success x => cases h
        | failure x g =>
          obtain ⟨rfl, rfl⟩ := Outcome.failure.inj (pure_eq_ok.mp h)
          exact ⟨w, f, g, ⟨fuel, hl⟩, ⟨fuel, hr⟩, rfl⟩
  · rintro ⟨w, f, g, ⟨fuel, hl⟩, ⟨more, hr⟩, rfl⟩
    have hl := attempt_mono (Nat.le_max_left fuel more) hl
    have hr := attempt_mono (Nat.le_max_right fuel more) hr
    refine ⟨max fuel more + 1, ?_⟩
    simp only [attempt, hl, hr, ok_bind]
    rfl

theorem fails_sum_iff :
    (∃ v e, (sum left right info).Attempts scope input (.failure v e)) ↔
      (∃ v e, left.Attempts scope input (.failure v e)) ∧
        ∃ v e, right.Attempts scope input (.failure v e) := by
  simp only [attempts_sum_failure_iff]
  constructor
  · rintro ⟨v, _, w, f, g, hl, hr, rfl⟩
    exact ⟨⟨w, f, hl⟩, v, g, hr⟩
  · rintro ⟨⟨w, f, hl⟩, v, g, hr⟩
    exact ⟨v, _, w, f, g, hl, hr, rfl⟩

theorem coerces_sum_iff {r : Result Value} :
    (sum left right info).Coerces scope input r ↔
      (∃ v, left.Attempts scope input (.success v) ∧ r = .ok v) ∨
      (∃ w e, left.Attempts scope input (.failure w e)) ∧ right.Coerces scope input r := by
  constructor
  · rintro ⟨fuel, h⟩
    cases fuel with
    | zero => simp [coerce] at h
    | succ fuel =>
      obtain ⟨l, hl, h⟩ := bind_eq_ok.mp h
      cases l with
      | success v => exact Or.inl ⟨v, ⟨fuel, hl⟩, (pure_eq_ok.mp h).symm⟩
      | failure w e => exact Or.inr ⟨⟨w, e, fuel, hl⟩, fuel, h⟩
  · rintro (⟨v, hl, rfl⟩ | ⟨⟨w, e, hl⟩, hr⟩)
    · exact coerces_sum_of_success hl
    · exact (coerces_sum_of_failure hl r).mpr hr

end

/-- Two types cannot be told from each other by their names, nor by what they make of any value.
Where one does not end, the other does not either. -/
structure SameOutside (scope : Scope) (t u : Ty) : Prop where
  name : t.name = u.name
  coerces : ∀ input r, t.Coerces scope input r ↔ u.Coerces scope input r
  accepts : ∀ input b, t.Accepts scope input b ↔ u.Accepts scope input b
  attempts : ∀ input o, t.Attempts scope input o →
    ∃ o', u.Attempts scope input o' ∧ o.ReadAlike o'
  attempted : ∀ input o', u.Attempts scope input o' →
    ∃ o, t.Attempts scope input o ∧ o.ReadAlike o'

section

variable {scope : Scope} {a b c : Ty} {i j k l : Metadata} {input : Value}

theorem name_regrouped : (sum (sum a b i) c j).name = (sum a (sum b c k) l).name := by
  simp only [Ty.name, String.append_assoc]

/-- Either way the second type is tried and the third one called, but only where those before have
failed. -/
theorem coerces_regrouped {r : Result Value} :
    (sum (sum a b i) c j).Coerces scope input r ↔
      (sum a (sum b c k) l).Coerces scope input r := by
  simp only [coerces_sum_iff, attempts_sum_iff, fails_sum_iff, or_and_right, exists_or, or_assoc,
    and_assoc, and_or_left, exists_and_left]

theorem accepts_regrouped {answer : Bool} :
    (sum (sum a b i) c j).Accepts scope input answer ↔
      (sum a (sum b c k) l).Accepts scope input answer := by
  simp only [accepts_sum_iff, Bool.false_eq_true, and_false, and_true, false_or, or_and_right,
    or_assoc, and_assoc, and_or_left]

theorem attempts_success_regrouped {v : Value} :
    (sum (sum a b i) c j).Attempts scope input (.success v) ↔
      (sum a (sum b c k) l).Attempts scope input (.success v) := by
  simp only [attempts_sum_iff, fails_sum_iff, or_assoc, and_assoc, and_or_left]

theorem attempts_failure_left_iff {v : Value} {x : Explanation} :
    (sum (sum a b i) c j).Attempts scope input (.failure v x) ↔ ∃ u w e f g,
      a.Attempts scope input (.failure u e) ∧ b.Attempts scope input (.failure w f) ∧
        c.Attempts scope input (.failure v g) ∧ x = .list [.list [e, f], g] := by
  simp only [attempts_sum_failure_iff]
  constructor
  · rintro ⟨w, _, g, ⟨u, e, f, ha, hb, rfl⟩, hc, rfl⟩
    exact ⟨u, w, e, f, g, ha, hb, hc, rfl⟩
  · rintro ⟨u, w, e, f, g, ha, hb, hc, rfl⟩
    exact ⟨w, _, g, ⟨u, e, f, ha, hb, rfl⟩, hc, rfl⟩

theorem attempts_failure_right_iff {v : Value} {x : Explanation} :
    (sum a (sum b c k) l).Attempts scope input (.failure v x) ↔ ∃ u w e f g,
      a.Attempts scope input (.failure u e) ∧ b.Attempts scope input (.failure w f) ∧
        c.Attempts scope input (.failure v g) ∧ x = .list [e, .list [f, g]] := by
  simp only [attempts_sum_failure_iff]
  constructor
  · rintro ⟨u, e, _, ha, ⟨w, f, g, hb, hc, rfl⟩, rfl⟩
    exact ⟨u, w, e, f, g, ha, hb, hc, rfl⟩
  · rintro ⟨u, w, e, f, g, ha, hb, hc, rfl⟩
    exact ⟨u, e, _, ha, ⟨w, f, g, hb, hc, rfl⟩, rfl⟩

end

theorem readAlike_regrouped (v : Value) (e f g : Explanation) :
    (Outcome.failure v (.list [.list [e, f], g])).ReadAlike
      (.failure v (.list [e, .list [f, g]])) := by
  refine ⟨rfl, congrArg some ?_⟩
  simp only [Explanation.text, explanationTexts, String.intercalate_cons_cons,
    String.intercalate_singleton, String.append_assoc]

/-- Sums can be grouped at will. -/
theorem sum_assoc (scope : Scope) (a b c : Ty) (i j k l : Metadata) :
    SameOutside scope (sum (sum a b i) c j) (sum a (sum b c k) l) where
  name := name_regrouped
  coerces _ _ := coerces_regrouped
  accepts _ _ := accepts_regrouped
  attempts input o h := by
    cases o with
    | success v => exact ⟨_, attempts_success_regrouped.mp h, rfl, rfl⟩
    | failure v x =>
      obtain ⟨u, w, e, f, g, ha, hb, hc, rfl⟩ := attempts_failure_left_iff.mp h
      exact ⟨_, attempts_failure_right_iff.mpr ⟨u, w, e, f, g, ha, hb, hc, rfl⟩,
        readAlike_regrouped v e f g⟩
  attempted input o h := by
    cases o with
    | success v => exact ⟨_, attempts_success_regrouped.mpr h, rfl, rfl⟩
    | failure v x =>
      obtain ⟨u, w, e, f, g, ha, hb, hc, rfl⟩ := attempts_failure_right_iff.mp h
      exact ⟨_, attempts_failure_left_iff.mpr ⟨u, w, e, f, g, ha, hb, hc, rfl⟩,
        readAlike_regrouped v e f g⟩

end Ty

end Conform
