import Conform.Proofs.Ty.Acceptance

/-!
Asking types about values, layer by layer. Where no default is asked about nil, a type that accepts
a value when it is tried accepts it when it is asked.
-/

namespace Conform.Ty

open Relation

/-- Asked about a value, the type tries it. -/
def Tries : Ty → Prop
  | constrained _ _ _ | array _ _ | map _ _ _ | schema _ => True
  | _ => False

section

variable {scope : Scope} {ty inner : Ty} {input : Value} {b : Bool}

theorem Tries.accepts_eq (h : ty.Tries) (fuel : Nat) :
    accepts scope fuel ty input = (attempt scope fuel ty input).map Outcome.isSuccess := by
  cases fuel with
  | zero => rfl
  | succ fuel =>
    cases ty with
    | constrained _ _ _ | array _ _ | map _ _ _ | schema _ => exact isSuccess_after _
    | _ => exact h.elim

theorem Tries.accepts_iff (h : ty.Tries) :
    ty.Accepts scope input b ↔ ∃ o, ty.Attempts scope input o ∧ o.isSuccess = b :=
  accepts_iff_of_eq h.accepts_eq

theorem Tries.accepts_true_iff (h : ty.Tries) :
    ty.Accepts scope input true ↔ ∃ v, ty.Attempts scope input (.success v) := by
  rw [h.accepts_iff]
  constructor
  · rintro ⟨o, ho, hsuccess⟩
    rw [Outcome.eq_success hsuccess] at ho
    exact ⟨o.input, ho⟩
  · rintro ⟨v, hv⟩
    exact ⟨.success v, hv, rfl⟩

theorem accepts_enum_iff {values : List Value} :
    (enum inner values).Accepts scope input b ↔ inner.Accepts scope (pick values input) b := by
  apply exists_fuel_iff
  intro h
  cases h

theorem accepts_safe_iff : (safe inner).Accepts scope input b ↔ inner.Accepts scope input b := by
  apply exists_fuel_iff
  intro h
  cases h

theorem accepts_lax_iff : (lax inner).Accepts scope input b ↔ inner.Accepts scope input b := by
  apply exists_fuel_iff
  intro h
  cases h

theorem accepts_converted_iff {functions : List Func} :
    (converted inner functions).Accepts scope input b ↔
      (∃ v, convert functions input = .ok v ∧ inner.Accepts scope v b) ∨
      (∃ e, convert functions input = .error e) ∧ b = false := by
  have hfuel : (converted inner functions).Accepts scope input b ↔
      ∃ fuel, accepts scope (fuel + 1) (converted inner functions) input = .ok b := by
    apply exists_fuel_iff
    intro h
    cases h
  rw [hfuel]
  simp only [accepts]
  cases convert functions input with
  | ok v => simp [Accepts]
  | error e => simp [eq_comm]

theorem accepts_defaulted_iff {value : Fallback Func} :
    (defaulted inner value).Accepts scope input b ↔
      input.isUndefined = true ∧ b = true ∨
      input.isUndefined = false ∧ inner.Accepts scope input b := by
  have hfuel : (defaulted inner value).Accepts scope input b ↔
      ∃ fuel, accepts scope (fuel + 1) (defaulted inner value) input = .ok b := by
    apply exists_fuel_iff
    intro h
    cases h
  rw [hfuel]
  simp only [accepts]
  cases input.isUndefined <;> simp [Accepts, eq_comm]

theorem accepts_maybe_iff :
    (maybe inner).Accepts scope input b ↔
      input.isAbsent = true ∧ b = true ∨ input.isAbsent = false ∧ inner.Accepts scope input b := by
  have hfuel : (maybe inner).Accepts scope input b ↔
      ∃ fuel, accepts scope (fuel + 1) (maybe inner) input = .ok b := by
    apply exists_fuel_iff
    intro h
    cases h
  rw [hfuel]
  simp only [accepts]
  cases input.isAbsent <;> simp [Accepts, eq_comm]

theorem accepts_sum_iff {left right : Ty} {info : Metadata} :
    (sum left right info).Accepts scope input b ↔
      left.Accepts scope input true ∧ b = true ∨
      left.Accepts scope input false ∧ right.Accepts scope input b := by
  constructor
  · rintro ⟨fuel, h⟩
    cases fuel with
    | zero => simp [accepts] at h
    | succ fuel =>
      obtain ⟨l, hl, h⟩ := bind_eq_ok.mp h
      cases l with
      | true => exact Or.inl ⟨⟨fuel, hl⟩, (pure_eq_ok.mp h).symm⟩
      | false => exact Or.inr ⟨⟨fuel, hl⟩, fuel, h⟩
  · rintro (⟨⟨fuel, hl⟩, rfl⟩ | ⟨⟨fuel, hl⟩, more, hr⟩)
    · refine ⟨fuel + 1, ?_⟩
      simp only [accepts, hl, ok_bind]
      rfl
    · have hl := accepts_mono (Nat.le_max_left fuel more) hl
      have hr := accepts_mono (Nat.le_max_right fuel more) hr
      refine ⟨max fuel more + 1, ?_⟩
      simp only [accepts, hl, hr, ok_bind]
      rfl

end

/-- A type that is asked about a value asks another one about a value. -/
inductive AsksAbout (scope : Scope) : Ty × Value → Ty × Value → Prop
  | converted {inner : Ty} {functions : List Func} {input v : Value}
    (hv : convert functions input = .ok v) :
    AsksAbout scope (converted inner functions, input) (inner, v)
  | left {left right : Ty} {info : Metadata} {input : Value} :
    AsksAbout scope (sum left right info, input) (left, input)
  | right {left right : Ty} {info : Metadata} {input : Value} :
    AsksAbout scope (sum left right info, input) (right, input)
  | default {inner : Ty} {value : Fallback Func} {input : Value}
    (hinput : input.isUndefined = false) :
    AsksAbout scope (defaulted inner value, input) (inner, input)
  | enum {inner : Ty} {values : List Value} {input : Value} :
    AsksAbout scope (enum inner values, input) (inner, pick values input)
  | safe {inner : Ty} {input : Value} : AsksAbout scope (safe inner, input) (inner, input)
  | lax {inner : Ty} {input : Value} : AsksAbout scope (lax inner, input) (inner, input)
  | maybe {inner : Ty} {input : Value} (hinput : input.isAbsent = false) :
    AsksAbout scope (maybe inner, input) (inner, input)
  | reference {r : Reference} {ty : Ty} {input : Value} (hty : scope.Holds r.entry ty) :
    AsksAbout scope (reference r, input) (ty, input)

/-- No default is asked about nil, however often the question is handed on. -/
def NilUnasked (scope : Scope) (a : Ty × Value) : Prop :=
  ∀ inner value, ¬ReflTransGen (AsksAbout scope) a (defaulted inner value, .nil)

section

variable {scope : Scope} {ty : Ty} {input : Value} {a b : Ty × Value}

theorem NilUnasked.steps (h : NilUnasked scope a) (run : ReflTransGen (AsksAbout scope) a b) :
    NilUnasked scope b :=
  fun inner value rest => h inner value (run.trans rest)

theorem AsksAbout.asks (h : AsksAbout scope a b) : Asks scope a.1 b.1 ∨
    ∃ inner value, a.1 = defaulted inner value := by
  cases h with
  | default => exact Or.inr ⟨_, _, rfl⟩
  | converted => exact Or.inl .converted
  | left => exact Or.inl .left
  | right => exact Or.inl .right
  | enum => exact Or.inl .enum
  | safe => exact Or.inl .safe
  | lax => exact Or.inl .lax
  | maybe => exact Or.inl .maybe
  | reference hty => exact Or.inl (.reference hty)

/-- Where no default is asked at all, none is asked about nil. -/
theorem DefaultFree.nilUnasked (h : ty.DefaultFree scope) (input : Value) :
    NilUnasked scope (ty, input) := by
  intro inner value run
  have hstep : ∀ {a b : Ty × Value}, a.1.DefaultFree scope → AsksAbout scope a b →
      b.1.DefaultFree scope := by
    intro a b ha step
    rcases step.asks with step | ⟨u, w, heq⟩
    · exact ha.step step
    · exact absurd .refl (heq ▸ ha u w)
  have hlast : (defaulted inner value).DefaultFree scope :=
    holds_of_steps (P := fun a => a.1.DefaultFree scope) hstep h run
  exact hlast inner value .refl

/-- At a depth, asking ends wherever trying does, and accepts what is accepted then. -/
def AskedAt (scope : Scope) (fuel : Nat) (ty : Ty) (input : Value) : Prop :=
  ∀ o, attempt scope fuel ty input = .ok o →
    ∃ b, accepts scope fuel ty input = .ok b ∧ (o.isSuccess = true → b = true)

section

variable {inner : Ty} {fuel : Nat}

theorem asked_nominal (p : Primitive) (info : Metadata) :
    AskedAt scope (fuel + 1) (nominal p info) input := by
  intro o ho
  refine ⟨p.admits input, rfl, fun hsuccess => ?_⟩
  simp only [attempt] at ho
  split at ho
  next hadmits => exact hadmits
  next =>
    obtain rfl := Except.ok.inj ho
    cases hsuccess

theorem Tries.asked (h : ty.Tries) : AskedAt scope fuel ty input := by
  intro o ho
  refine ⟨o.isSuccess, ?_, id⟩
  rw [h.accepts_eq, ho]
  rfl

theorem asked_converted {functions : List Func}
    (h : ∀ v, convert functions input = .ok v → AskedAt scope fuel inner v) :
    AskedAt scope (fuel + 1) (converted inner functions) input := by
  intro o ho
  simp only [attempt, accepts] at ho ⊢
  cases hv : convert functions input with
  | ok v =>
    simp only [hv] at ho ⊢
    exact h v hv o ho
  | error e =>
    simp only [hv] at ho ⊢
    obtain rfl := Except.ok.inj ho
    exact ⟨false, rfl, fun hsuccess => by cases hsuccess⟩

theorem asked_sum {left right : Ty} {info : Metadata} (hl : AskedAt scope fuel left input)
    (hr : AskedAt scope fuel right input) :
    AskedAt scope (fuel + 1) (sum left right info) input := by
  intro o ho
  simp only [attempt, accepts, bind_eq_ok] at ho ⊢
  obtain ⟨l, hl', ho⟩ := ho
  obtain ⟨bl, hbl, hleft⟩ := hl l hl'
  cases bl with
  | true => exact ⟨true, ⟨true, hbl, rfl⟩, fun _ => rfl⟩
  | false =>
    cases l with
    | success v => cases hleft rfl
    | failure v e =>
      obtain ⟨r, hr', ho⟩ := bind_eq_ok.mp ho
      obtain ⟨br, hbr, hright⟩ := hr r hr'
      refine ⟨br, ⟨false, hbl, hbr⟩, fun hsuccess => hright ?_⟩
      cases r with
      | success w => rfl
      | failure w f =>
        obtain rfl := pure_eq_ok.mp ho
        cases hsuccess

theorem asked_defaulted {value : Fallback Func} (hnil : input ≠ .nil)
    (h : input.isUndefined = false → AskedAt scope fuel inner input) :
    AskedAt scope (fuel + 1) (defaulted inner value) input := by
  intro o ho
  simp only [attempt, accepts] at ho ⊢
  cases input with
  | undefined => exact ⟨true, rfl, fun _ => rfl⟩
  | nil => exact absurd rfl hnil
  | _ =>
    obtain ⟨tried, htried, ho⟩ := bind_eq_ok.mp ho
    obtain ⟨b, hb, hkept⟩ := h rfl tried htried
    refine ⟨b, hb, fun hsuccess => hkept ?_⟩
    cases tried with
    | success w => rfl
    | failure w e =>
      obtain rfl := pure_eq_ok.mp ho
      cases hsuccess

theorem asked_maybe (h : input.isAbsent = false → AskedAt scope fuel inner input) :
    AskedAt scope (fuel + 1) (maybe inner) input := by
  intro o ho
  simp only [attempt, accepts] at ho ⊢
  split at ho
  next habsent =>
    rw [if_pos habsent]
    exact ⟨true, rfl, fun _ => rfl⟩
  next hpresent =>
    rw [if_neg hpresent]
    exact h (Bool.eq_false_iff.mpr hpresent) o ho

theorem asked_reference {r : Reference}
    (h : ∀ t, r.resolve scope fuel = .ok (.ok t) → AskedAt scope fuel t input) :
    AskedAt scope (fuel + 1) (reference r) input := by
  intro o ho
  simp only [attempt, accepts, bind_eq_ok] at ho ⊢
  obtain ⟨found, hfound, ho⟩ := ho
  cases found with
  | error e =>
    obtain rfl := pure_eq_ok.mp ho
    exact ⟨false, ⟨_, hfound, rfl⟩, fun hsuccess => by cases hsuccess⟩
  | ok t =>
    obtain ⟨b, hb, hkept⟩ := h t hfound o ho
    exact ⟨b, ⟨_, hfound, hb⟩, hkept⟩

end

theorem NilUnasked.asked (h : NilUnasked scope (ty, input)) (fuel : Nat) :
    AskedAt scope fuel ty input := by
  induction fuel generalizing ty input with
  | zero => intro o ho; cases ho
  | succ fuel ih =>
    have hnext : ∀ {u v}, AsksAbout scope (ty, input) (u, v) → AskedAt scope fuel u v :=
      fun step => ih (h.steps (.single step))
    cases ty with
    | nominal p info => exact asked_nominal p info
    | constrained _ _ _ | array _ _ | map _ _ _ | schema _ => exact Tries.asked trivial
    | converted inner functions => exact asked_converted fun v hv => hnext (.converted hv)
    | sum left right info => exact asked_sum (hnext .left) (hnext .right)
    | defaulted inner value =>
      refine asked_defaulted ?_ fun hdefined => hnext (.default hdefined)
      rintro rfl
      exact h inner value .refl
    | enum inner values => exact hnext .enum
    | safe inner => exact hnext .safe
    | lax inner => exact hnext .lax
    | maybe inner => exact asked_maybe fun hpresent => hnext (.maybe hpresent)
    | reference r =>
      refine asked_reference fun t hfound => ?_
      have hsteps : ReflTransGen (fun t u => AsksAbout scope (t, input) (u, input))
          (reference r) t := steps_of_follow .reference hfound
      exact ih (h.steps (hsteps.lift (fun t => (t, input)) fun _ _ step => step))

end

end Conform.Ty
