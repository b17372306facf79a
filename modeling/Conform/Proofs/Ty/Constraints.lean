import Conform.Proofs.Ty.Class
import Conform.Proofs.Ty.Ruled

/-!
Constraints that are put on a type. A default, a maybe type and an optional sum hand them on to what
is inside; any other type bears them itself, and judges them by the vocabulary it has already, if it
is constrained. Call by call they add up to their conjunction.
-/

namespace Conform

namespace Ty

/-- A type that hands constraints on to what is inside. -/
def HandsOn (scope : Scope) : Ty → Prop
  | sum left _ _ => ∃ fuel, left.primitive scope fuel = .ok .nil
  | defaulted _ _ | maybe _ => True
  | _ => False

/-- A type that is found to bear constraints itself. -/
def Bears (scope : Scope) (fuel : Nat) : Ty → Prop
  | sum left _ _ => ∃ p, left.primitive scope fuel = .ok p ∧ p ≠ .nil
  | defaulted _ _ | maybe _ => False
  | _ => True

/-- The vocabulary of constraints that are given without one. -/
def vocabulary : Ty → PredicateSet
  | constrained _ _ own => own
  | _ => Standard.predicates

/-- The vocabulary that judges constraints which are given in one. -/
def judgedBy (set : PredicateSet) : Ty → PredicateSet
  | constrained _ _ own => own
  | _ => set

/-- The type with one rule more. -/
def restrict (set : PredicateSet) (rule : Rule) : Ty → Ty
  | constrained inner own kept => constrained inner (.and own rule) kept
  | ty => constrained ty rule set

/-- A layer around the type that a build gives. -/
def around (f : Ty → Ty) (x : Run (Result Ty)) : Run (Result Ty) :=
  x.map (Except.map f)

section

variable {scope : Scope} {fuel : Nat} {given : Option PredicateSet}
  {options a b : List (String × Value)} {ty t : Ty}

theorem return_map_eq (f : Ty → Ty) (x : Run (Result Ty)) :
    (do return (← x).map f : Run (Result Ty)) = around f x := by
  cases x <;> rfl

theorem around_eq_ok {f : Ty → Ty} {x : Run (Result Ty)} :
    around f x = .ok (.ok t) ↔ ∃ u, x = .ok (.ok u) ∧ f u = t := by
  rw [around, map_eq_ok]
  constructor
  · rintro ⟨r, rfl, hr⟩
    obtain ⟨u, rfl, hu⟩ := map_eq_ok.mp hr
    exact ⟨u, rfl, hu⟩
  · rintro ⟨u, rfl, hu⟩
    exact ⟨.ok u, rfl, congrArg Except.ok hu⟩

theorem constrain_defaulted (inner : Ty) (value : Fallback Func) :
    (defaulted inner value).constrain scope fuel options given =
      around (fun t => defaulted t value) (inner.constrain scope fuel options given) :=
  return_map_eq _ _

theorem constrain_maybe (inner : Ty) :
    (maybe inner).constrain scope fuel options given =
      around maybe (inner.constrain scope fuel options given) :=
  return_map_eq _ _

theorem constrain_optional {left : Ty} (h : left.primitive scope fuel = .ok .nil) (right : Ty)
    (info : Metadata) :
    (sum left right info).constrain scope fuel options given =
      around (fun t => sum left t info) (right.constrain scope fuel options given) := by
  rw [← return_map_eq]
  simp only [constrain, h, ok_bind, if_true]

theorem Bears.constrain (h : ty.Bears scope fuel) :
    ty.constrain scope fuel options given = .ok (((given.getD ty.vocabulary).compileOptions
      options).map fun rule => ty.restrict (given.getD ty.vocabulary) rule) := by
  cases ty with
  | sum left right info =>
    obtain ⟨p, hp, hother⟩ := h
    simp only [Ty.constrain, hp, ok_bind, hother, if_false]
    rfl
  | defaulted inner value => exact h.elim
  | maybe inner => exact h.elim
  | _ => rfl

theorem Bears.restrict (h : ty.Bears scope fuel) (set : PredicateSet) (rule : Rule) :
    (ty.restrict set rule).Bears scope fuel := by
  cases ty with
  | defaulted inner value => exact h.elim
  | maybe inner => exact h.elim
  | _ => trivial

/-- Either a type bears constraints, or it hands them on, or the class of its left side, which
decides on that, is not found. -/
theorem constrain_induction (scope : Scope) (fuel : Nat) {motive : Ty → Prop}
    (bears : ∀ ty, ty.Bears scope fuel → motive ty)
    (halts : ∀ left right info e, left.primitive scope fuel = .error e →
      motive (sum left right info))
    (optional : ∀ left right info, left.primitive scope fuel = .ok .nil → motive right →
      motive (sum left right info))
    (default : ∀ inner value, motive inner → motive (defaulted inner value))
    (maybe : ∀ inner, motive inner → motive (maybe inner)) (ty : Ty) : motive ty := by
  induction ty with
  | sum left right info _ ihr =>
    cases hp : left.primitive scope fuel with
    | error e => exact halts left right info e hp
    | ok p =>
      by_cases hnil : p = .nil
      · exact optional left right info (hnil ▸ hp) ihr
      · exact bears _ ⟨p, hp, hnil⟩
  | defaulted inner value ih => exact default inner value ih
  | maybe inner ih => exact maybe inner ih
  | _ => exact bears _ trivial

theorem constrain_halted {left : Ty} {e : Halt} (h : left.primitive scope fuel = .error e)
    (right : Ty) (info : Metadata) :
    (sum left right info).constrain scope fuel options given = .error e := by
  simp only [Ty.constrain, h]
  rfl

end

end Ty

end Conform
