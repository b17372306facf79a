import Conform.Proofs.Ty.Depth

/-!
What a trial accepts, layer by layer: first at the depth that it is tried at, then at any depth.
-/

namespace Conform

namespace Outcome

theorem eq_success {o : Outcome} (h : o.isSuccess = true) : o = .success o.input := by
  cases o with
  | success v => rfl
  | failure v e => exact Bool.noConfusion h

theorem ofResult_eq_success {input v : Value} {r : Result Value} :
    Outcome.ofResult input r = .success v ↔ r = .ok v := by
  cases r with
  | ok w => simp [ofResult]
  | error e => simp [ofResult, refused]

theorem toResult_eq_ok {o : Outcome} {v : Value} :
    o.toResult = .ok v ↔ o = .success v := by
  cases o with
  | success w => simp [toResult]
  | failure w e => simp [toResult]

end Outcome

theorem Schema.outcome_eq_success {output : Entries} {results : List (Value × Outcome)}
    {v : Value} :
    outcome output results = .success v ↔
      (∀ r ∈ results, r.2.isSuccess = true) ∧ v = .hash output := by
  unfold outcome
  split
  next h =>
    rw [List.all_eq_true] at h
    simp only [Outcome.success.injEq, eq_comm (a := v)]
    exact ⟨fun hv => ⟨h, hv⟩, fun hv => hv.2⟩
  next h =>
    rw [List.all_eq_true] at h
    constructor
    · exact fun hf => nomatch hf
    · exact fun hv => absurd hv.1 h

namespace Ty

theorem check_eq_success {rule : Rule} {set : PredicateSet} {v w : Value} :
    check rule set w = .success v ↔ w = v ∧ (rule.judge set w).holds = true := by
  simp only [check]
  split
  next h => simp [h]
  next h => simp [h, Outcome.refused]

theorem firstFailure?_eq_none {outcomes : List Outcome} :
    firstFailure? outcomes = none ↔ ∀ o ∈ outcomes, o.isSuccess = true := by
  unfold firstFailure?
  rw [List.findSome?_eq_none_iff]
  constructor
  · intro h o ho
    obtain ⟨i, hi, rfl⟩ := List.mem_iff_getElem.mp ho
    have hnone := h (outcomes[i], i) (List.mem_zipIdx_iff_getElem?.mpr (by simp [hi]))
    cases ho : outcomes[i] with
    | success v => rfl
    | failure v e => simp [ho, Outcome.error?] at hnone
  · rintro h ⟨o, i⟩ hp
    obtain ⟨v, rfl⟩ : ∃ v, o = .success v :=
      ⟨_, Outcome.eq_success (h o (List.fst_mem_of_mem_zipIdx hp))⟩
    rfl

theorem ofItems_eq_success {outcomes : List Outcome} {v : Value} :
    ofItems outcomes = .success v ↔ (∀ o ∈ outcomes, o.isSuccess = true) ∧
      v = .array ((outcomes.map Outcome.input).filter (!·.isUndefined)) := by
  rw [← firstFailure?_eq_none]
  unfold ofItems
  cases firstFailure? outcomes with
  | none => simp [eq_comm]
  | some failure => simp

section

attribute [local simp] attempt

variable {scope : Scope} {fuel : Nat} {inner : Ty} {input v : Value}

theorem nominal_eq_success {p : Primitive} {info : Metadata} :
    attempt scope (fuel + 1) (nominal p info) input = .ok (.success v) ↔
      p.admits input = true ∧ v = input := by
  simp only [attempt]
  split
  next hadmits => simp [hadmits, eq_comm]
  next hrefused => simp [hrefused, Outcome.refused]

theorem constrained_eq_success {rule : Rule} {set : PredicateSet} :
    attempt scope (fuel + 1) (constrained inner rule set) input = .ok (.success v) ↔
      attempt scope fuel inner input = .ok (.success v) ∧ (rule.judge set v).holds = true := by
  simp only [attempt, bind_eq_ok]
  constructor
  · rintro ⟨o, ho, h⟩
    cases o with
    | success w =>
      obtain ⟨rfl, hholds⟩ := check_eq_success.mp (pure_eq_ok.mp h)
      exact ⟨ho, hholds⟩
    | failure w e => cases h
  · rintro ⟨ho, hholds⟩
    exact ⟨_, ho, pure_eq_ok.mpr (check_eq_success.mpr ⟨rfl, hholds⟩)⟩

theorem converted_eq_success {functions : List Func} :
    attempt scope (fuel + 1) (converted inner functions) input = .ok (.success v) ↔
      ∃ w, convert functions input = .ok w ∧ attempt scope fuel inner w = .ok (.success v) := by
  simp only [attempt]
  cases convert functions input with
  | ok w => simp
  | error e => simp [Outcome.refused]

theorem sum_eq_success {left right : Ty} {info : Metadata} :
    attempt scope (fuel + 1) (sum left right info) input = .ok (.success v) ↔
      attempt scope fuel left input = .ok (.success v) ∨
      (∃ w e, attempt scope fuel left input = .ok (.failure w e)) ∧
        attempt scope fuel right input = .ok (.success v) := by
  simp only [attempt, bind_eq_ok]
  constructor
  · rintro ⟨l, hl, h⟩
    cases l with
    | success w =>
      obtain rfl := Outcome.success.inj (pure_eq_ok.mp h)
      exact Or.inl hl
    | failure w e =>
      obtain ⟨r, hr, h⟩ := bind_eq_ok.mp h
      cases r with
      | success x =>
        obtain rfl := Outcome.success.inj (pure_eq_ok.mp h)
        exact Or.inr ⟨⟨w, e, hl⟩, hr⟩
      | failure x f => cases h
  · rintro (hl | ⟨⟨w, e, hl⟩, hr⟩)
    · exact ⟨_, hl, rfl⟩
    · exact ⟨_, hl, bind_eq_ok.mpr ⟨_, hr, rfl⟩⟩

/-- A default accepts its own value for what is absent, and in place of nil. -/
theorem defaulted_eq_success {value : Fallback Func} :
    attempt scope (fuel + 1) (defaulted inner value) input = .ok (.success v) ↔
      input.isAbsent = true ∧ value.evaluate = .ok v ∨
      input.isAbsent = false ∧
        (attempt scope fuel inner input = .ok (.success .nil) ∧ value.evaluate = .ok v ∨
          attempt scope fuel inner input = .ok (.success v) ∧ v ≠ .nil) := by
  simp only [attempt]
  cases input.isAbsent with
  | true => simp [Outcome.ofResult_eq_success]
  | false =>
    simp only [Bool.false_eq_true, if_false, bind_eq_ok, false_and, false_or, true_and]
    constructor
    · rintro ⟨o, ho, h⟩
      cases o with
      | failure w e => cases h
      | success w =>
        cases w with
        | nil => exact Or.inl ⟨ho, Outcome.ofResult_eq_success.mp (pure_eq_ok.mp h)⟩
        | _ =>
          obtain rfl := Outcome.success.inj (pure_eq_ok.mp h)
          exact Or.inr ⟨ho, Value.noConfusion⟩
    · rintro (⟨ho, hvalue⟩ | ⟨ho, hne⟩)
      · exact ⟨_, ho, pure_eq_ok.mpr (Outcome.ofResult_eq_success.mpr hvalue)⟩
      · refine ⟨_, ho, ?_⟩
        cases v with
        | nil => exact absurd rfl hne
        | _ => rfl

theorem array_eq_success {info : Metadata} :
    attempt scope (fuel + 1) (array inner info) input = .ok (.success v) ↔
      ∃ items outcomes, input = .array items ∧
        List.Forall₂ (fun item o => attempt scope fuel inner item = .ok o) items outcomes ∧
        (∀ o ∈ outcomes, o.isSuccess = true) ∧
        v = .array ((outcomes.map Outcome.input).filter (!·.isUndefined)) := by
  cases input with
  | array items =>
    simp only [attempt, bind_eq_ok, pure_eq_ok, mapM_eq_ok, ofItems_eq_success]
    constructor
    · rintro ⟨outcomes, hos, hs, rfl⟩
      exact ⟨items, outcomes, rfl, hos, hs, rfl⟩
    · rintro ⟨_, outcomes, heq, hos, hs, rfl⟩
      obtain rfl := Value.array.inj heq
      exact ⟨outcomes, hos, hs, rfl⟩
  | _ => simp [Outcome.refused]

theorem map_eq_success {key value : Ty} {info : Metadata} :
    attempt scope (fuel + 1) (map key value info) input = .ok (.success v) ↔
      ∃ entries outcomes, input = .hash entries ∧
        List.Forall₂
          (fun e o => attemptEntry (attempt scope fuel key) (attempt scope fuel value) e = .ok o)
          (Entries.sorted entries) outcomes ∧
        ofEntries outcomes = .success v := by
  cases input with
  | hash entries =>
    simp only [attempt, bind_eq_ok, pure_eq_ok, mapM_eq_ok]
    constructor
    · rintro ⟨outcomes, hos, h⟩
      exact ⟨entries, outcomes, rfl, hos, h⟩
    · rintro ⟨_, outcomes, heq, hos, h⟩
      obtain rfl := Value.hash.inj heq
      exact ⟨outcomes, hos, h⟩
  | _ => simp [Outcome.refused]

theorem maybe_eq_success :
    attempt scope (fuel + 1) (maybe inner) input = .ok (.success v) ↔
      input.isAbsent = true ∧ v = .nil ∨
      input.isAbsent = false ∧ attempt scope fuel inner input = .ok (.success v) := by
  simp only [attempt]
  cases input.isAbsent with
  | true => simp [eq_comm]
  | false => simp

theorem reference_eq_success {r : Reference} :
    attempt scope (fuel + 1) (reference r) input = .ok (.success v) ↔
      ∃ ty, r.resolve scope fuel = .ok (.ok ty) ∧
        attempt scope fuel ty input = .ok (.success v) := by
  simp only [attempt, bind_eq_ok]
  constructor
  · rintro ⟨found, hfound, h⟩
    cases found with
    | ok ty => exact ⟨ty, hfound, h⟩
    | error e => cases h
  · rintro ⟨ty, hfound, h⟩
    exact ⟨.ok ty, hfound, h⟩

theorem attempts_iff_succ {o : Outcome} :
    inner.Attempts scope input o ↔ ∃ fuel, attempt scope (fuel + 1) inner input = .ok o := by
  apply exists_fuel_iff
  intro h
  cases h

theorem attempts_nominal_iff {p : Primitive} {info : Metadata} :
    (nominal p info).Attempts scope input (.success v) ↔ p.admits input = true ∧ v = input := by
  rw [attempts_iff_succ]
  simp only [nominal_eq_success, exists_const]

theorem attempts_constrained_iff {rule : Rule} {set : PredicateSet} :
    (constrained inner rule set).Attempts scope input (.success v) ↔
      inner.Attempts scope input (.success v) ∧ (rule.judge set v).holds = true := by
  rw [attempts_iff_succ]
  simp only [constrained_eq_success, exists_and_right]
  exact Iff.rfl

theorem attempts_converted_iff {functions : List Func} :
    (converted inner functions).Attempts scope input (.success v) ↔
      ∃ w, convert functions input = .ok w ∧ inner.Attempts scope w (.success v) := by
  rw [attempts_iff_succ]
  simp only [converted_eq_success]
  rw [exists_comm]
  simp only [exists_and_left]
  exact Iff.rfl

theorem attempts_sum_iff {left right : Ty} {info : Metadata} :
    (sum left right info).Attempts scope input (.success v) ↔
      left.Attempts scope input (.success v) ∨
      (∃ w e, left.Attempts scope input (.failure w e)) ∧
        right.Attempts scope input (.success v) := by
  rw [attempts_iff_succ]
  simp only [sum_eq_success]
  constructor
  · rintro ⟨fuel, hl | ⟨⟨w, e, hl⟩, hr⟩⟩
    · exact Or.inl ⟨fuel, hl⟩
    · exact Or.inr ⟨⟨w, e, fuel, hl⟩, fuel, hr⟩
  · rintro (⟨fuel, hl⟩ | ⟨⟨w, e, fuel, hl⟩, more, hr⟩)
    · exact ⟨fuel, Or.inl hl⟩
    · have hl := attempt_mono (Nat.le_max_left fuel more) hl
      have hr := attempt_mono (Nat.le_max_right fuel more) hr
      exact ⟨max fuel more, Or.inr ⟨⟨w, e, hl⟩, hr⟩⟩

theorem attempts_defaulted_iff {value : Fallback Func} :
    (defaulted inner value).Attempts scope input (.success v) ↔
      input.isAbsent = true ∧ value.evaluate = .ok v ∨
      input.isAbsent = false ∧
        (inner.Attempts scope input (.success .nil) ∧ value.evaluate = .ok v ∨
          inner.Attempts scope input (.success v) ∧ v ≠ .nil) := by
  rw [attempts_iff_succ]
  simp only [defaulted_eq_success, exists_or, exists_and_left, exists_and_right, exists_const]
  exact Iff.rfl

theorem attempts_maybe_iff :
    (maybe inner).Attempts scope input (.success v) ↔
      input.isAbsent = true ∧ v = .nil ∨
      input.isAbsent = false ∧ inner.Attempts scope input (.success v) := by
  rw [attempts_iff_succ]
  simp only [maybe_eq_success, exists_or, exists_and_left, exists_const]
  exact Iff.rfl

theorem attempts_enum_iff {values : List Value} {o : Outcome} :
    (enum inner values).Attempts scope input o ↔
      inner.Attempts scope (pick values input) o :=
  attempts_iff_succ

theorem attempts_safe_iff {o : Outcome} :
    (safe inner).Attempts scope input o ↔ inner.Attempts scope input o :=
  attempts_iff_succ

theorem attempts_lax_iff {o : Outcome} :
    (lax inner).Attempts scope input o ↔ inner.Attempts scope input o :=
  attempts_iff_succ

end

end Ty

end Conform
