import Conform.Proofs.Ty.Accumulation
import Conform.Proofs.Ty.Builders

/-!
Defaults under other layers. Absent input goes through the conversions before it comes to the
default, and the default through the rules that are not under it.
-/

namespace Conform

theorem Value.eq_nil_of_isAbsent {v : Value} (h : v.isAbsent = true)
    (hd : v.isUndefined = false) : v = .nil := by
  cases v with
  | nil => rfl
  | undefined => cases hd
  | _ => cases h

/-- A function that makes nothing of absent input. -/
def Func.LeavesAbsent (f : Func) : Prop :=
  ∀ x v, x.isAbsent = true → f.call x = .ok v → v.isAbsent = true

namespace Ty

/-- Does absent input come to the default, and the default through the layers over it? -/
def letsThrough (d : Value) : Ty → Value → Bool
  | converted inner functions, x => (convert functions x).toOption.any (inner.letsThrough d)
  | constrained inner rule set, x => inner.letsThrough d x && (rule.judge set d).holds
  | safe inner, x => inner.letsThrough d x
  | _, x => x.isAbsent

/-- No function over the default makes something of absent input. -/
def LeavesAbsent : Ty → Prop
  | converted inner functions => (∀ f ∈ functions, f.LeavesAbsent) ∧ inner.LeavesAbsent
  | constrained inner _ _ | safe inner => inner.LeavesAbsent
  | _ => True

/-- A type with a default, refined by further builders. -/
inductive Refined (scope : Scope) (d : Value) : Ty → Prop
  | withDefault {ty t : Ty} {fuel : Nat} (ht : ty.withDefault scope fuel d = .ok (.ok t)) :
      Refined scope d t
  | convertLast {t : Ty} (h : Refined scope d t) (f : Func) : Refined scope d (t.convertLast f)
  | convertFirst {t : Ty} (h : Refined scope d t) (f : Func) : Refined scope d (t.convertFirst f)
  | toSafe {t : Ty} (h : Refined scope d t) : Refined scope d t.toSafe
  | constrain {t u : Ty} {fuel : Nat} {options : List (String × Value)}
      {given : Option PredicateSet} (h : Refined scope d t)
      (hu : t.constrain scope fuel options given = .ok (.ok u)) : Refined scope d u

/-- Layers over a default. -/
inductive Layered (d : Value) : Ty → Prop
  | defaulted (inner : Ty) : Layered d (defaulted inner (.literal d))
  | converted {inner : Ty} (h : Layered d inner) (functions : List Func) :
      Layered d (converted inner functions)
  | safe {inner : Ty} (h : Layered d inner) : Layered d (safe inner)
  | constrained {inner : Ty} (h : Layered d inner) (rule : Rule) (set : PredicateSet) :
      Layered d (constrained inner rule set)

section

variable {scope : Scope} {fuel : Nat} {d : Value} {t u : Ty}

theorem Layered.convertLast (h : Layered d t) (f : Func) : Layered d (t.convertLast f) := by
  cases h with
  | converted h functions => exact .converted h _
  | defaulted inner => exact .converted (.defaulted inner) [f]
  | safe h => exact .converted (.safe h) [f]
  | constrained h rule set => exact .converted (.constrained h rule set) [f]

theorem Layered.convertFirst (h : Layered d t) (f : Func) : Layered d (t.convertFirst f) := by
  cases h with
  | converted h functions => exact .converted h _
  | defaulted inner => exact .converted (.defaulted inner) [f]
  | safe h => exact .converted (.safe h) [f]
  | constrained h rule set => exact .converted (.constrained h rule set) [f]

theorem Layered.toSafe (h : Layered d t) : Layered d t.toSafe := by
  cases h with
  | safe h => exact .safe h
  | defaulted inner => exact .safe (.defaulted inner)
  | converted h functions => exact .safe (.converted h functions)
  | constrained h rule set => exact .safe (.constrained h rule set)

theorem Layered.constrain {options : List (String × Value)} {given : Option PredicateSet}
    (h : Layered d t) (hu : t.constrain scope fuel options given = .ok (.ok u)) : Layered d u := by
  cases h with
  | defaulted inner =>
    -- The rule goes under the default.
    rw [constrain_defaulted] at hu
    obtain ⟨inner', -, rfl⟩ := around_eq_ok.mp hu
    exact .defaulted inner'
  | constrained h rule set =>
    obtain ⟨added, -, rfl⟩ := map_eq_ok.mp (Except.ok.inj hu)
    exact .constrained h (.and rule added) set
  | converted h functions =>
    obtain ⟨rule, -, rfl⟩ := map_eq_ok.mp (Except.ok.inj hu)
    exact .constrained (.converted h functions) rule _
  | safe h =>
    obtain ⟨rule, -, rfl⟩ := map_eq_ok.mp (Except.ok.inj hu)
    exact .constrained (.safe h) rule _

theorem Refined.layered (h : Refined scope d t) : Layered d t := by
  induction h with
  | withDefault ht =>
    obtain ⟨-, rfl⟩ := withDefault_eq_ok ht
    exact .defaulted _
  | convertLast _ f ih => exact ih.convertLast f
  | convertFirst _ f ih => exact ih.convertFirst f
  | toSafe _ ih => exact ih.toSafe
  | constrain _ hu ih => exact ih.constrain hu

theorem Layered.isDefault (h : Layered d t) : t.isDefault = true := by
  induction h with
  | defaulted inner => rfl
  | converted _ functions ih => exact ih
  | safe _ ih => exact ih
  | constrained _ rule set ih => exact ih

variable {x v : Value} {functions : List Func}

theorem letsThrough_converted : (converted t functions).letsThrough d x = true ↔
    ∃ y, convert functions x = .ok y ∧ t.letsThrough d y = true := by
  rw [letsThrough]
  cases convert functions x with
  | error e => simp [Except.toOption]
  | ok y => simp [Except.toOption]

theorem letsThrough_constrained {rule : Rule} {set : PredicateSet} :
    (constrained t rule set).letsThrough d x = true ↔
      t.letsThrough d x = true ∧ (rule.judge set d).holds = true := by
  rw [letsThrough, Bool.and_eq_true]

theorem convert_leavesAbsent (h : ∀ f ∈ functions, f.LeavesAbsent) (hx : x.isAbsent = true)
    (hv : convert functions x = .ok v) : v.isAbsent = true := by
  induction functions generalizing x with
  | nil =>
    obtain rfl : x = v := pure_eq_ok.mp hv
    exact hx
  | cons f fs ih =>
    obtain ⟨hf, hfs⟩ := List.forall_mem_cons.mp h
    obtain ⟨w, hw, hv⟩ := bind_eq_ok.mp hv
    exact ih hfs (hf x w hx hw) hv

theorem attempts_defaulted_of_absent (hx : x.isAbsent = true) :
    (defaulted t (.literal d)).Attempts scope x (.success d) := by
  refine ⟨1, ?_⟩
  simp only [attempt, hx, if_true]
  rfl

theorem coerces_converted_ok (h : (converted t functions).Coerces scope x (.ok v)) :
    ∃ y, convert functions x = .ok y ∧ t.Coerces scope y (.ok v) := by
  obtain ⟨fuel, h⟩ := h
  cases fuel with
  | zero => simp [coerce] at h
  | succ fuel =>
    simp only [coerce] at h
    split at h
    next y hy => exact ⟨y, hy, fuel, h⟩
    next e he => simp at h

theorem coerces_safe_ok (h : (safe t).Coerces scope x (.ok v)) :
    t.Coerces scope x (.ok v) ∨ v = x := by
  obtain ⟨r, hr, hv⟩ := coerces_safe_iff.mp h
  cases r with
  | ok w => exact Or.inl (Except.ok.inj hv ▸ hr)
  | error e => exact Or.inr (Except.ok.inj hv)

/-- A default that is let through is what absent input is taken to. -/
theorem Layered.attempts (h : Layered d t) (hx : t.letsThrough d x = true) :
    t.Attempts scope x (.success d) := by
  induction h generalizing x with
  | defaulted inner => exact attempts_defaulted_of_absent hx
  | converted _ functions ih =>
    obtain ⟨y, hy, hthrough⟩ := letsThrough_converted.mp hx
    exact attempts_converted_iff.mpr ⟨y, hy, ih hthrough⟩
  | safe _ ih => exact attempts_safe_iff.mpr (ih hx)
  | constrained _ rule set ih =>
    obtain ⟨hthrough, hholds⟩ := letsThrough_constrained.mp hx
    exact attempts_constrained_iff.mpr ⟨ih hthrough, hholds⟩

/-- Where nothing is made of absent input, it is accepted only if the default is let through. -/
theorem Layered.attempts_absent (h : Layered d t) (ha : t.LeavesAbsent) (hx : x.isAbsent = true)
    (hv : t.Attempts scope x (.success v)) : v = d ∧ t.letsThrough d x = true := by
  induction h generalizing x with
  | defaulted inner =>
    have hsame := hv.unique (attempts_defaulted_of_absent hx)
    exact ⟨Outcome.success.inj hsame, hx⟩
  | converted _ functions ih =>
    obtain ⟨y, hy, hv⟩ := attempts_converted_iff.mp hv
    obtain ⟨rfl, hthrough⟩ := ih ha.2 (convert_leavesAbsent ha.1 hx hy) hv
    exact ⟨rfl, letsThrough_converted.mpr ⟨y, hy, hthrough⟩⟩
  | safe _ ih => exact ih ha hx (attempts_safe_iff.mp hv)
  | constrained _ rule set ih =>
    obtain ⟨hv, hholds⟩ := attempts_constrained_iff.mp hv
    obtain ⟨rfl, hthrough⟩ := ih ha hx hv
    exact ⟨rfl, letsThrough_constrained.mpr ⟨hthrough, hholds⟩⟩

/-- What is called on it gives the default only if that is let through, and else nothing. -/
theorem Layered.coerces_absent (h : Layered d t) (ha : t.LeavesAbsent) (hx : x.isAbsent = true)
    (hv : t.Coerces scope x (.ok v)) :
    v.isAbsent = true ∨ v = d ∧ t.letsThrough d x = true := by
  induction h generalizing x with
  | defaulted inner =>
    have hsame := hv.unique (coerces_of_attempts (attempts_defaulted_of_absent hx))
    exact Or.inr ⟨Except.ok.inj hsame, hx⟩
  | converted _ functions ih =>
    obtain ⟨y, hy, hv⟩ := coerces_converted_ok hv
    rcases ih ha.2 (convert_leavesAbsent ha.1 hx hy) hv with hnone | ⟨rfl, hthrough⟩
    · exact Or.inl hnone
    · exact Or.inr ⟨rfl, letsThrough_converted.mpr ⟨y, hy, hthrough⟩⟩
  | safe _ ih =>
    rcases coerces_safe_ok hv with hv | rfl
    · exact ih ha hx hv
    · exact Or.inl hx
  | constrained _ rule set ih =>
    obtain ⟨hv, hholds⟩ := coerces_constrained_iff.mp hv
    rcases ih ha hx hv with hnone | ⟨rfl, hthrough⟩
    · exact Or.inl hnone
    · exact Or.inr ⟨rfl, letsThrough_constrained.mpr ⟨hthrough, hholds⟩⟩

end

end Ty

end Conform
