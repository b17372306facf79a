import Conform.Proofs.Ty.Asking
import Conform.Proofs.Ty.Relaxed

/-!
What types that are asked about a value keep to when their constraints are removed. What was tried
for a constraint is asked then; an index is nothing to what is left of an enum. Where neither
matters, a value that was accepted still is.
-/

namespace Conform.Ty

open Relation

/-- Asked about a value, what is left of the type without constraints does as well: an index that
picks another value is judged in itself; what is tried does not need what goes with its enums; and
where a constraint was on a default, that is not asked about nil. -/
def Keeps (scope : Scope) : Ty → Value → Prop
  | nominal _ _, _ | reference _, _ | lax _, _ => True
  | constrained inner rule set, input =>
    Spared scope (constrained inner rule set, input) ∧ NilUnasked scope (inner.strip, input)
  | array member info, input => Spared scope (array member info, input)
  | map key value info, input => Spared scope (map key value info, input)
  | schema s, input => Spared scope (schema s, input)
  | converted inner functions, input => ∀ v, convert functions input = .ok v → inner.Keeps scope v
  | sum left right _, input =>
    left.Keeps scope input ∧ (left.Accepts scope input false → right.Keeps scope input)
  | defaulted inner _, input => input.isUndefined = false → inner.Keeps scope input
  | enum inner values, input =>
    (pick values input = input → inner.Keeps scope input) ∧
      (pick values input ≠ input → ∃ b, inner.strip.Accepts scope input b ∧
        (inner.Accepts scope (pick values input) true → b = true))
  | safe inner, input => inner.Keeps scope input
  | maybe inner, input => input.isAbsent = false → inner.Keeps scope input

section

variable {scope : Scope} {ty : Ty} {input : Value} {b : Bool}

/-- A trial that is spared is no worse without constraints. -/
theorem Spared.attempts_strip (h : Spared scope (ty, input)) (hl : ty.LiteralDefaults)
    {o : Outcome} (ho : ty.Attempts scope input o) :
    ∃ o', ty.strip.Attempts scope input o' ∧ o.Eases o' := by
  obtain ⟨fuel, ho⟩ := ho
  obtain ⟨more, heases⟩ := hl.exists_easier_strip h fuel
  obtain ⟨o', ho', hkept⟩ := heases o ho
  exact ⟨o', ⟨more, ho'⟩, hkept⟩

theorem Spared.accepts_strip (h : Spared scope (ty, input)) (hl : ty.LiteralDefaults)
    (htries : ty.Tries) (hstrip : ty.strip.Tries) (hb : ty.Accepts scope input b) :
    ∃ b', ty.strip.Accepts scope input b' ∧ (b = true → b' = true) := by
  obtain ⟨o, ho, rfl⟩ := htries.accepts_iff.mp hb
  obtain ⟨o', ho', hkept⟩ := h.attempts_strip hl ho
  exact ⟨o'.isSuccess, hstrip.accepts_iff.mpr ⟨o', ho', rfl⟩, hkept⟩

/-- What a type accepts when it is asked, it accepts when its constraints are removed, if it keeps
to the value. -/
theorem Keeps.accepts_strip (h : ty.Keeps scope input) (hl : ty.LiteralDefaults)
    (hb : ty.Accepts scope input b) :
    ∃ b', ty.strip.Accepts scope input b' ∧ (b = true → b' = true) := by
  induction ty generalizing input b with
  | nominal _ _ | reference _ => exact ⟨b, hb, id⟩
  | lax inner _ => exact ⟨b, accepts_lax_iff.mp hb, id⟩
  | constrained inner rule set _ =>
    obtain ⟨hspared, hunasked⟩ := h
    have htries : (constrained inner rule set).Tries := trivial
    obtain ⟨o, ho, rfl⟩ := htries.accepts_iff.mp hb
    obtain ⟨o', ⟨fuel, ho'⟩, hkept⟩ := hspared.attempts_strip hl ho
    obtain ⟨b', hb', hasked⟩ := hunasked.asked fuel o' ho'
    exact ⟨b', ⟨fuel, hb'⟩, fun hsuccess => hasked (hkept hsuccess)⟩
  | array member info _ => exact Spared.accepts_strip h hl trivial trivial hb
  | map key value info _ _ => exact Spared.accepts_strip h hl trivial trivial hb
  | schema s _ => exact Spared.accepts_strip h hl trivial trivial hb
  | converted inner functions ih =>
    rw [strip]
    rcases accepts_converted_iff.mp hb with ⟨v, hv, hb⟩ | ⟨herror, rfl⟩
    · obtain ⟨b', hb', hkept⟩ := ih (h v hv) hl.2 hb
      exact ⟨b', accepts_converted_iff.mpr (Or.inl ⟨v, hv, hb'⟩), hkept⟩
    · exact ⟨false, accepts_converted_iff.mpr (Or.inr ⟨herror, rfl⟩), id⟩
  | sum left right info ihl ihr =>
    rw [strip]
    rcases accepts_sum_iff.mp hb with ⟨hleft, rfl⟩ | ⟨hleft, hright⟩
    · obtain ⟨l, hl', hkept⟩ := ihl h.1 hl.2.1 hleft
      obtain rfl := hkept rfl
      exact ⟨true, accepts_sum_iff.mpr (Or.inl ⟨hl', rfl⟩), id⟩
    · obtain ⟨l, hl', -⟩ := ihl h.1 hl.2.1 hleft
      obtain ⟨r, hr', hkept⟩ := ihr (h.2 hleft) hl.2.2 hright
      cases l with
      | true => exact ⟨true, accepts_sum_iff.mpr (Or.inl ⟨hl', rfl⟩), fun _ => rfl⟩
      | false => exact ⟨r, accepts_sum_iff.mpr (Or.inr ⟨hl', hr'⟩), hkept⟩
  | defaulted inner value ih =>
    rw [strip]
    rcases accepts_defaulted_iff.mp hb with ⟨hundefined, rfl⟩ | ⟨hdefined, hb⟩
    · exact ⟨true, accepts_defaulted_iff.mpr (Or.inl ⟨hundefined, rfl⟩), id⟩
    · obtain ⟨b', hb', hkept⟩ := ih (h hdefined) hl.2 hb
      exact ⟨b', accepts_defaulted_iff.mpr (Or.inr ⟨hdefined, hb'⟩), hkept⟩
  | enum inner values ih =>
    rw [strip]
    have hb := accepts_enum_iff.mp hb
    by_cases hpick : pick values input = input
    · rw [hpick] at hb
      exact ih (h.1 hpick) hl.2 hb
    · obtain ⟨b', hb', hkept⟩ := h.2 hpick
      exact ⟨b', hb', fun htrue => hkept (htrue ▸ hb)⟩
  | safe inner ih =>
    obtain ⟨b', hb', hkept⟩ := ih h hl.2 (accepts_safe_iff.mp hb)
    exact ⟨b', accepts_safe_iff.mpr hb', hkept⟩
  | maybe inner ih =>
    rw [strip]
    rcases accepts_maybe_iff.mp hb with ⟨habsent, rfl⟩ | ⟨hpresent, hb⟩
    · exact ⟨true, accepts_maybe_iff.mpr (Or.inl ⟨habsent, rfl⟩), id⟩
    · obtain ⟨b', hb', hkept⟩ := ih (h hpresent) hl.2 hb
      exact ⟨b', accepts_maybe_iff.mpr (Or.inr ⟨hpresent, hb'⟩), hkept⟩

end

/-- No value is picked by its index. -/
def FirmNode : Ty → Prop
  | enum _ _ => False
  | _ => True

abbrev Firm (ty : Ty) : Prop :=
  ty.Everywhere FirmNode

/-- What is tried for a constraint asks no default when the constraints are gone. -/
def CandidNode (scope : Scope) : Ty → Prop
  | constrained inner _ _ => inner.strip.DefaultFree scope
  | _ => True

abbrev Candid (scope : Scope) (ty : Ty) : Prop :=
  ty.Everywhere (CandidNode scope)

section

variable {scope : Scope} {ty : Ty} {a b : Ty × Value}

theorem Firm.isDefault_strip (h : ty.Firm) : ty.strip.isDefault = ty.isDefault := by
  induction ty with
  | enum inner values _ => exact h.1.elim
  | constrained _ _ _ ih | converted _ _ ih | safe _ ih => exact ih h.2
  | _ => rfl

theorem Firm.step (h : a.1.Firm) (hstep : Visits scope a b) : b.1.Firm := by
  rcases hstep with hstep | hstep
  · cases hstep with
    | left => exact h.2.1
    | right _ => exact h.2.2
    | constrained | converted _ | defaulted _ | enum | safe | lax | maybe _ => exact h.2
  · cases hstep with
    | item _ => exact h.2
    | key _ => exact h.2.1
    | value _ => exact h.2.2
    | declared hk _ _ => exact keysEverywhere_iff.mp h.2 _ hk

/-- Where there are no enums, nothing goes with them. -/
theorem Firm.spared (h : ty.Firm) (input : Value) : Spared scope (ty, input) := by
  have hfirm : ∀ {u v}, ReflTransGen (Visits scope) (ty, input) (u, v) → u.Firm := fun run =>
    holds_of_steps (P := fun a => a.1.Firm) Firm.step h run
  constructor
  · intro inner values v run
    exact (hfirm run).1.elim
  · intro s entries present run hp k hk hmissing hno hstrip
    have hkey : k.type.Firm := keysEverywhere_iff.mp (hfirm run).2 k hk
    rw [hkey.isDefault_strip, hno] at hstrip
    cases hstrip

/-- A type keeps to all values if it has no enums, and no default below a constraint. -/
theorem Firm.keeps (h : ty.Firm) (hcandid : ty.Candid scope) (input : Value) :
    ty.Keeps scope input := by
  induction ty generalizing input with
  | nominal _ _ | reference _ | lax _ _ => trivial
  | constrained inner rule set _ => exact ⟨h.spared input, hcandid.1.nilUnasked input⟩
  | array _ _ _ | map _ _ _ _ _ | schema _ _ => exact h.spared input
  | converted inner functions ih => exact fun v _ => ih h.2 hcandid.2 v
  | sum left right info ihl ihr =>
    exact ⟨ihl h.2.1 hcandid.2.1 input, fun _ => ihr h.2.2 hcandid.2.2 input⟩
  | defaulted inner value ih => exact fun _ => ih h.2 hcandid.2 input
  | enum inner values _ => exact h.1.elim
  | safe inner ih => exact ih h.2 hcandid.2 input
  | maybe inner ih => exact fun _ => ih h.2 hcandid.2 input

end

end Conform.Ty
