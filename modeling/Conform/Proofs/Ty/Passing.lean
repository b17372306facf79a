import Conform.Proofs.Ty.Accumulation
import Conform.Proofs.Ty.Asking

/-!
Constraints that are put on a type, and a value that it is asked about. Defaults, maybe types and
optional sums hand the constraints on; the type that comes to bear them accepts the value if they
hold of what it makes of it.
-/

namespace Conform.Ty

open Relation

/-- A type hands constraints that are put on it on to another one. -/
inductive HandsTo (scope : Scope) : Ty → Ty → Prop
  | default {inner : Ty} {value : Fallback Func} : HandsTo scope (defaulted inner value) inner
  | maybe {inner : Ty} : HandsTo scope (maybe inner) inner
  | right {left right : Ty} {info : Metadata} {fuel : Nat}
    (hnil : left.primitive scope fuel = .ok .nil) : HandsTo scope (sum left right info) right

/-- Options that are put on a type let a value pass: a layer on the way answers by itself, or they
hold of what the type that bears them makes of the value. -/
inductive Passes (scope : Scope) (given : Option PredicateSet) (options : List (String × Value)) :
    Ty → Value → Prop
  | undefined {inner : Ty} {value : Fallback Func} {v : Value} (hv : v.isUndefined = true) :
    Passes scope given options (defaulted inner value) v
  | default {inner : Ty} {value : Fallback Func} {v : Value} (hv : v.isUndefined = false)
    (h : Passes scope given options inner v) :
    Passes scope given options (defaulted inner value) v
  | absent {inner : Ty} {v : Value} (hv : v.isAbsent = true) :
    Passes scope given options (maybe inner) v
  | maybe {inner : Ty} {v : Value} (hv : v.isAbsent = false)
    (h : Passes scope given options inner v) : Passes scope given options (maybe inner) v
  | left {left right : Ty} {info : Metadata} {v : Value} {fuel : Nat}
    (hnil : left.primitive scope fuel = .ok .nil) (h : left.Accepts scope v true) :
    Passes scope given options (sum left right info) v
  | right {left right : Ty} {info : Metadata} {v : Value} {fuel : Nat}
    (hnil : left.primitive scope fuel = .ok .nil) (hleft : left.Accepts scope v false)
    (h : Passes scope given options right v) : Passes scope given options (sum left right info) v
  | borne {ty : Ty} {v w : Value} (hbears : ¬ty.HandsOn scope)
    (hw : ty.Attempts scope v (.success w))
    (hholds : ∀ o ∈ options, ∃ rule, (given.getD ty.vocabulary).compile o.1 o.2 = .ok rule ∧
      (rule.judge (ty.judgedBy (given.getD ty.vocabulary)) w).holds = true) :
    Passes scope given options ty v

/-- The literals of all defaults that options are put below pass. -/
def Withstands (scope : Scope) (given : Option PredicateSet) (options : List (String × Value))
    (ty : Ty) : Prop :=
  ∀ inner v, ReflTransGen (HandsTo scope) ty (defaulted inner (.literal v)) →
    inner.Passes scope given options v

section

variable {scope : Scope} {fuel : Nat} {given : Option PredicateSet}
  {options : List (String × Value)} {ty t u : Ty} {v : Value}

theorem Bears.not_handsOn (h : ty.Bears scope fuel) : ¬ty.HandsOn scope := by
  cases ty with
  | sum left right info =>
    obtain ⟨p, hp, hother⟩ := h
    rintro ⟨more, hnil⟩
    exact hother (outcome_unique primitive_mono ⟨fuel, hp⟩ ⟨more, hnil⟩)
  | defaulted _ _ | maybe _ => exact h.elim
  | _ => exact id

theorem HandsTo.handsOn (h : HandsTo scope ty u) : ty.HandsOn scope := by
  cases h with
  | default | maybe => trivial
  | right hnil => exact ⟨_, hnil⟩

theorem tries_restrict (ty : Ty) (set : PredicateSet) (rule : Rule) :
    (ty.restrict set rule).Tries := by
  cases ty <;> trivial

/-- What bears the options accepts the value if they hold of what it was taken to. -/
theorem Bears.accepts_iff (h : ty.Bears scope fuel) {rule : Rule}
    (hrule : (given.getD ty.vocabulary).compileOptions options = .ok rule) :
    (ty.restrict (given.getD ty.vocabulary) rule).Accepts scope v true ↔
      ty.Passes scope given options v := by
  rw [(tries_restrict ty _ rule).accepts_true_iff]
  constructor
  · rintro ⟨w, hw⟩
    obtain ⟨hw, hholds⟩ := (attempts_restrict_iff ty _).mp hw
    exact .borne h.not_handsOn hw ((PredicateSet.holds_compileOptions hrule).mp hholds)
  · intro hpasses
    cases hpasses with
    | borne hbears hw hholds =>
      have hholds := (PredicateSet.holds_compileOptions hrule).mpr hholds
      exact ⟨_, (attempts_restrict_iff ty _).mpr ⟨hw, hholds⟩⟩
    | undefined | default | absent | maybe => exact h.elim
    | left hnil | right hnil => exact absurd ⟨_, hnil⟩ h.not_handsOn

/-- Asked about a value, a type on which options have been put accepts it if they let it pass. -/
theorem accepts_constrain_iff (ht : ty.constrain scope fuel options given = .ok (.ok t)) :
    t.Accepts scope v true ↔ ty.Passes scope given options v := by
  induction ty using constrain_induction scope fuel generalizing t with
  | bears ty h =>
    rw [h.constrain] at ht
    obtain ⟨rule, hrule, rfl⟩ := map_eq_ok.mp (Except.ok.inj ht)
    exact h.accepts_iff hrule
  | halts left right info e h =>
    rw [constrain_halted h] at ht
    cases ht
  | optional left right info h ih =>
    rw [constrain_optional h] at ht
    obtain ⟨u, hu, rfl⟩ := around_eq_ok.mp ht
    rw [accepts_sum_iff, ih hu]
    constructor
    · rintro (⟨hleft, -⟩ | ⟨hleft, hright⟩)
      · exact .left h hleft
      · exact .right h hleft hright
    · intro hpasses
      cases hpasses with
      | left _ hleft => exact Or.inl ⟨hleft, rfl⟩
      | right _ hleft hright => exact Or.inr ⟨hleft, hright⟩
      | borne hbears => exact absurd ⟨fuel, h⟩ hbears
  | default inner value ih =>
    rw [constrain_defaulted] at ht
    obtain ⟨u, hu, rfl⟩ := around_eq_ok.mp ht
    rw [accepts_defaulted_iff, ih hu]
    constructor
    · rintro (⟨hv, -⟩ | ⟨hv, hpasses⟩)
      · exact .undefined hv
      · exact .default hv hpasses
    · intro hpasses
      cases hpasses with
      | undefined hv => exact Or.inl ⟨hv, rfl⟩
      | default hv hpasses => exact Or.inr ⟨hv, hpasses⟩
      | borne hbears => exact absurd trivial hbears
  | maybe inner ih =>
    rw [constrain_maybe] at ht
    obtain ⟨u, hu, rfl⟩ := around_eq_ok.mp ht
    rw [accepts_maybe_iff, ih hu]
    constructor
    · rintro (⟨hv, -⟩ | ⟨hv, hpasses⟩)
      · exact .absent hv
      · exact .maybe hv hpasses
    · intro hpasses
      cases hpasses with
      | absent hv => exact Or.inl ⟨hv, rfl⟩
      | maybe hv hpasses => exact Or.inr ⟨hv, hpasses⟩
      | borne hbears => exact absurd trivial hbears

theorem withstands_iff : ty.Withstands scope given options ↔
    (∀ inner v, ty = defaulted inner (.literal v) → inner.Passes scope given options v) ∧
      ∀ u, HandsTo scope ty u → u.Withstands scope given options := by
  constructor
  · intro h
    refine ⟨fun inner v heq => h inner v (heq ▸ .refl), fun u step inner v run => ?_⟩
    exact h inner v (.head step run)
  · rintro ⟨hhere, hbelow⟩ inner v run
    rcases run.cases_head with heq | ⟨u, step, run⟩
    · exact hhere inner v heq
    · exact hbelow u step inner v run

theorem Bears.withstands (h : ty.Bears scope fuel) : ty.Withstands scope given options := by
  refine withstands_iff.mpr ⟨?_, fun u step => absurd step.handsOn h.not_handsOn⟩
  rintro inner v rfl
  exact h.elim

end

end Conform.Ty
