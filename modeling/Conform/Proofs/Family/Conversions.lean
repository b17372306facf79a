import Conform.Family.Json

/-!
The conversions of the families. Each of them gives values of one class only, and leaves a value of
this class as it is, so that nothing is changed by converting once more.
-/

namespace Conform

/-- A conversion to a class, which keeps what is of the class. -/
structure Retracts (p : Primitive) (convert : Value → Result Value) : Prop where
  lands : ∀ v w, convert v = .ok w → p.admits w = true
  keeps : ∀ v, p.admits v = true → convert v = .ok v

namespace Coercible

end Coercible

namespace Params

theorem retracts_date : Retracts .date date := by
  constructor
  · intro v w h
    unfold date at h
    repeat' split at h
    all_goals cases h <;> rfl
  · intro v h
    cases v with
    | date d => rfl
    | _ => cases h

theorem retracts_dateTime : Retracts .dateTime dateTime := by
  constructor
  · intro v w h
    unfold dateTime at h
    repeat' split at h
    all_goals cases h <;> rfl
  · intro v h
    cases v with
    | dateTime m => rfl
    | _ => cases h

end Params

namespace Json

end Json

end Conform
