import Conform.Proofs.Calendar.Reader
import Conform.Proofs.Family.Catalog
import Conform.Proofs.Ty.Acceptance

/-!
The types for dates and for moments take the same texts.
-/

namespace Conform

namespace Ty

section

variable {scope : Scope} {input : Value} {p : Primitive} {f : Func}

theorem convert_one : convert [f] input = f.call input := by
  cases h : f.call input with
  | ok v => simp [convert, h]
  | error e => simp [convert, h]

/-- A conversion in front of a class alone gives what the function gives. -/
theorem coerces_produced_iff {r : Result Value} :
    (converted (nominal p {}) [f]).Coerces scope input r ↔ f.call input = r := by
  constructor
  · rintro ⟨fuel, h⟩
    cases fuel with
    | zero => cases h
    | succ fuel =>
      simp only [coerce, convert_one] at h
      cases hcall : f.call input with
      | error e =>
        rw [hcall] at h
        exact Except.ok.inj h
      | ok v =>
        rw [hcall] at h
        cases fuel with
        | zero => cases h
        | succ fuel => exact Except.ok.inj h
  · intro h
    refine ⟨2, ?_⟩
    simp only [coerce, convert_one, h]
    cases r with
    | ok v => rfl
    | error e => rfl

theorem accepts_produced_iff (h : Retracts p f.call) :
    (converted (nominal p {}) [f]).Accepts scope input true ↔ ∃ v, f.call input = .ok v := by
  constructor
  · rintro ⟨fuel, haccepts⟩
    cases fuel with
    | zero => cases haccepts
    | succ fuel =>
      cases hcall : f.call input with
      | ok v => exact ⟨v, rfl⟩
      | error e =>
        simp only [accepts, convert_one, hcall] at haccepts
        cases Except.ok.inj haccepts
  · rintro ⟨v, hv⟩
    have hadmits := h.lands input v hv
    refine ⟨2, ?_⟩
    simp only [accepts, convert_one, hv, hadmits]

end

end Ty

namespace Params

theorem date_string_eq_ok_iff {s : String} {v : Value} :
    date (.string s) = .ok v ↔ ∃ d, Calendar.date? s = some d ∧ v = .date d := by
  unfold date
  dsimp only
  split
  next d hd => simp [hd, eq_comm]
  next hd => simp [hd]

theorem dateTime_string_eq_ok_iff {s : String} {v : Value} :
    dateTime (.string s) = .ok v ↔ ∃ m, Calendar.moment? s = some m ∧ v = .dateTime m := by
  unfold dateTime
  dsimp only
  split
  next m hm => simp [hm, eq_comm]
  next hm => simp [hm]

/-- A text is converted to the date of the moment that it is converted to. -/
theorem date_string_iff_dateTime {s : String} {v : Value} :
    date (.string s) = .ok v ↔
      ∃ m, dateTime (.string s) = .ok (.dateTime m) ∧ v = .date m.date := by
  rw [date_string_eq_ok_iff, Calendar.date?_eq]
  simp only [Option.map_eq_some_iff, dateTime_string_eq_ok_iff]
  constructor
  · rintro ⟨_, ⟨m, hm, rfl⟩, rfl⟩
    exact ⟨m, ⟨m, hm, rfl⟩, rfl⟩
  · rintro ⟨_, ⟨m, hm, heq⟩, rfl⟩
    obtain rfl := Value.dateTime.inj heq
    exact ⟨_, ⟨_, hm, rfl⟩, rfl⟩

end Params

namespace Family

/-- Two types take the same texts, one as moments and the other as the dates of these. -/
structure TakeTexts (scope : Scope) (dates moments : Ty) : Prop where
  called (s : String) (v : Value) : dates.Coerces scope (.string s) (.ok v) ↔
    ∃ m, moments.Coerces scope (.string s) (.ok (.dateTime m)) ∧ v = .date m.date
  tried (s : String) (v : Value) : dates.Attempts scope (.string s) (.success v) ↔
    ∃ m, moments.Attempts scope (.string s) (.success (.dateTime m)) ∧ v = .date m.date
  asked (s : String) : dates.Accepts scope (.string s) true ↔ moments.Accepts scope (.string s) true
  moment (s : String) (v : Value) (h : moments.Coerces scope (.string s) (.ok v)) :
    ∃ m, v = .dateTime m

def AgreesOnDates (scope : Scope) (f : Family) : Prop :=
  ∃ dates moments, f.types.lookup .date = some dates ∧ f.types.lookup .dateTime = some moments ∧
    TakeTexts scope dates moments

theorem call_conversionFunc (label : String) (p : Primitive) (call : Value → Result Value) :
    (conversionFunc label p call).call = call :=
  rfl

theorem takeTexts (scope : Scope) (label : String) :
    TakeTexts scope (.converted (.nominal .date {}) [conversionFunc label .date Params.date])
      (.converted (.nominal .dateTime {}) [conversionFunc label .dateTime Params.dateTime]) := by
  have hdate : Retracts .date (conversionFunc label .date Params.date).call := Params.retracts_date
  have hmoment : Retracts .dateTime (conversionFunc label .dateTime Params.dateTime).call :=
    Params.retracts_dateTime
  constructor
  · intro s v
    simp only [Ty.coerces_produced_iff, call_conversionFunc]
    exact Params.date_string_iff_dateTime
  · intro s v
    simp only [Ty.attempts_produced_iff hdate, Ty.attempts_produced_iff hmoment,
      call_conversionFunc]
    exact Params.date_string_iff_dateTime
  · intro s
    rw [Ty.accepts_produced_iff hdate, Ty.accepts_produced_iff hmoment, call_conversionFunc,
      call_conversionFunc]
    constructor
    · rintro ⟨v, hv⟩
      obtain ⟨m, hm, -⟩ := Params.date_string_iff_dateTime.mp hv
      exact ⟨_, hm⟩
    · rintro ⟨v, hv⟩
      obtain ⟨m, -, rfl⟩ := Params.dateTime_string_eq_ok_iff.mp hv
      exact ⟨_, Params.date_string_iff_dateTime.mpr ⟨m, hv, rfl⟩⟩
  · intro s v h
    rw [Ty.coerces_produced_iff, call_conversionFunc] at h
    obtain ⟨m, -, hv⟩ := Params.dateTime_string_eq_ok_iff.mp h
    exact ⟨m, hv⟩

/-- A text is read as a date exactly if it is read as a moment, whose date it is then; so the types
that convert to dates and to moments take the same texts. -/
theorem dates_agree (scope : Scope) :
    (∀ s, Calendar.date? s = (Calendar.moment? s).map Moment.date) ∧
      AgreesOnDates scope (ofConversions "params" Params.conversions) ∧
      AgreesOnDates scope json := by
  refine ⟨Calendar.date?_eq, ?_, ?_⟩
  · exact ⟨_, _, rfl, rfl, takeTexts scope "params"⟩
  · exact ⟨_, _, rfl, rfl, takeTexts scope "json"⟩

end Family

end Conform
