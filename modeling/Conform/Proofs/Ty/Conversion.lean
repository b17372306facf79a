import Conform.Proofs.Ty.Depth
import Conform.World

/-!
Conversions one after another stop at the first that fails. What the ones before it have made of the
value is lost then: the failure is about the value that came in.
-/

namespace Conform.Ty

variable {functions before after : List Func} {f : Func} {input y v : Value} {e : Error}

theorem convert_cons (f : Func) (functions : List Func) (input : Value) :
    convert (f :: functions) input = f.call input >>= convert functions :=
  List.foldlM_cons

theorem convert_append (before after : List Func) (input : Value) :
    convert (before ++ after) input = convert before input >>= convert after :=
  List.foldlM_append

/-- One of the conversions fails, on what those before it have made of the value. -/
def StopsAt (functions : List Func) (input y : Value) (e : Error) : Prop :=
  ∃ before f after, functions = before ++ f :: after ∧ convert before input = .ok y ∧
    f.call y = .error e

theorem StopsAt.convert_eq (h : StopsAt functions input y e) :
    convert functions input = .error e := by
  obtain ⟨before, f, after, rfl, hy, he⟩ := h
  rw [convert_append, hy, ok_bind, convert_cons, he]
  rfl

theorem StopsAt.cons (hf : f.call input = .ok v) (h : StopsAt functions v y e) :
    StopsAt (f :: functions) input y e := by
  obtain ⟨before, g, after, rfl, hy, he⟩ := h
  refine ⟨f :: before, g, after, rfl, ?_, he⟩
  rw [convert_cons, hf, ok_bind, hy]

/-- Conversions fail with the error of the first of them that does. -/
theorem convert_eq_error_iff :
    convert functions input = .error e ↔ ∃ y, StopsAt functions input y e := by
  constructor
  · intro h
    induction functions generalizing input with
    | nil => cases h
    | cons f functions ih =>
      rw [convert_cons] at h
      cases hf : f.call input with
      | error first =>
        rw [hf] at h
        obtain rfl : first = e := Except.error.inj h
        exact ⟨input, [], f, functions, rfl, rfl, hf⟩
      | ok v =>
        rw [hf] at h
        obtain ⟨y, hy⟩ := ih h
        exact ⟨y, hy.cons hf⟩
  · rintro ⟨y, h⟩
    exact h.convert_eq

section

variable {scope : Scope} {inner : Ty} {x : Explanation}

theorem attempts_of_stopsAt (h : StopsAt functions input y e) :
    (converted inner functions).Attempts scope input (.refused input e.message) :=
  ⟨1, by simp only [attempt, h.convert_eq]⟩

theorem attempts_of_convert {o : Outcome} (h : convert functions input = .ok y) :
    (converted inner functions).Attempts scope input o ↔ inner.Attempts scope y o := by
  constructor
  · rintro ⟨fuel, ho⟩
    cases fuel with
    | zero => cases ho
    | succ fuel =>
      simp only [attempt, h] at ho
      exact ⟨fuel, ho⟩
  · rintro ⟨fuel, ho⟩
    exact ⟨fuel + 1, by simpa only [attempt, h] using ho⟩

/-- What a failed trial is about: where one of the conversions fails, the value before all of them,
and where the type behind them does, what it has made of the converted value. -/
theorem attempts_converted_failure_iff :
    (converted inner functions).Attempts scope input (.failure v x) ↔
      (∃ y e, StopsAt functions input y e ∧ v = input ∧ x = .message e.message) ∨
      ∃ y, convert functions input = .ok y ∧ inner.Attempts scope y (.failure v x) := by
  cases h : convert functions input with
  | error e =>
    obtain ⟨y, hstops⟩ := convert_eq_error_iff.mp h
    rw [(attempts_of_stopsAt hstops).iff]
    constructor
    · intro heq
      obtain ⟨rfl, rfl⟩ := Outcome.failure.inj heq
      exact Or.inl ⟨y, e, hstops, rfl, rfl⟩
    · rintro (⟨y', e', hstops', rfl, rfl⟩ | ⟨y', hy', -⟩)
      · obtain rfl : e' = e := Except.error.inj (hstops'.convert_eq.symm.trans h)
        rfl
      · cases hy'
  | ok y =>
    rw [attempts_of_convert h]
    constructor
    · intro ho
      exact Or.inr ⟨y, rfl, ho⟩
    · rintro (⟨y', e', hstops, -⟩ | ⟨y', hy', ho⟩)
      · cases h.symm.trans hstops.convert_eq
      · obtain rfl := Except.ok.inj hy'
        exact ho

end

/-- Adds a letter to a text. -/
def lengthen : Func where
  handle := "lengthen"
  call
    | .string s => .ok (.string (s ++ "a"))
    | v => .error (.coercion v "not a string")

def refuseAll : Func where
  handle := "refuse_all"
  call v := .error (.coercion v "always fails")

/-- A text has got longer when the second conversion fails, and the failure holds the short one. -/
theorem lengthened_lost :
    ∃ e, StopsAt [lengthen, refuseAll] (.string "x") (.string "xa") e ∧
      (converted (strict .string) [lengthen, refuseAll]).Attempts (World.scope {}) (.string "x")
        (.refused (.string "x") e.message) ∧
      ¬∃ x, (converted (strict .string) [lengthen, refuseAll]).Attempts (World.scope {})
        (.string "x")
        (.failure (.string "xa") x) := by
  have hstops : StopsAt [lengthen, refuseAll] (.string "x") (.string "xa")
      (.coercion (.string "xa") "always fails") := ⟨[lengthen], refuseAll, [], rfl, rfl, rfl⟩
  have htried : (converted (strict .string) [lengthen, refuseAll]).Attempts (World.scope {})
      (.string "x")
      (.refused (.string "x") (Error.coercion (.string "xa") "always fails").message) :=
    attempts_of_stopsAt hstops
  refine ⟨_, hstops, htried, ?_⟩
  rintro ⟨x, hx⟩
  obtain ⟨hv, -⟩ := Outcome.failure.inj (htried.unique hx)
  exact absurd hv (by simp)

end Conform.Ty
