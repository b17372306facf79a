import Conform.Proofs.Ty.Asking
import Conform.Proofs.Ty.Builders
import Conform.Proofs.Ty.Instances
import Conform.Proofs.Ty.Settled

/-!
What is inside all layers of a type, and another type in its place. A value that the type accepts is
still accepted, if what the layers hand to the new core is accepted there, and with a result that
the constraints around allow.
-/

namespace Conform.Ty

/-- What is inside all layers. -/
def core : Ty → Ty
  | constrained inner _ _ | converted inner _ | defaulted inner _ | enum inner _ | safe inner
  | lax inner | maybe inner => inner.core
  | ty => ty

/-- The layers around another core, which loses its constraints in a lax type. -/
def withCore : Ty → Ty → Ty
  | constrained inner rule set, c => constrained (inner.withCore c) rule set
  | converted inner functions, c => converted (inner.withCore c) functions
  | defaulted inner value, c => defaulted (inner.withCore c) value
  | enum inner values, c => enum (inner.withCore c) values
  | safe inner, c => safe (inner.withCore c)
  | lax inner, c => lax (inner.withCore c).strip
  | maybe inner, c => maybe (inner.withCore c)
  | _, c => c

/-- A type for arrays or for hashes. -/
def Collects : Ty → Prop
  | array _ _ | map _ _ _ | schema _ => True
  | _ => False

/-- What the layers make of a value before they hand it to their core, tried or asked, another core
accepts, and of its result these rules hold and those of the layers. Nothing is required where a
layer answers by itself. -/
def Suits (scope : Scope) :
    Ty → (c : Ty) → (tried : Bool) → List (Rule × PredicateSet) → Value → Prop
  | constrained inner rule set, c, _, rules, v => inner.Suits scope c true ((rule, set) :: rules) v
  | converted inner functions, c, tried, rules, v =>
    ∀ w, convert functions v = .ok w → inner.Suits scope c tried rules w
  | defaulted inner _, c, tried, rules, v =>
    (if tried then v.isAbsent else v.isUndefined) = false → inner.Suits scope c tried rules v
  | enum inner values, c, tried, rules, v => inner.Suits scope c tried rules (pick values v)
  | safe inner, c, tried, rules, v => inner.Suits scope c tried rules v
  | lax inner, c, tried, rules, v => inner.Suits scope c.strip tried rules v
  | maybe inner, c, tried, rules, v => v.isAbsent = false → inner.Suits scope c tried rules v
  | _, c, _, rules, v => ∃ w, c.Attempts scope v (.success w) ∧
    ∀ r ∈ rules, (r.1.judge r.2 w).holds = true

section

variable {scope : Scope} {ty inner c t : Ty} {v w : Value} {rules : List (Rule × PredicateSet)}

theorem Collects.strip (h : c.Collects) : c.strip.Collects := by
  cases c with
  | array _ _ | map _ _ _ | schema _ => trivial
  | _ => exact h.elim

theorem Collects.tries (h : c.Collects) : c.Tries := by
  cases c with
  | array _ _ | map _ _ _ | schema _ => trivial
  | _ => exact h.elim

theorem Collects.ne_nil (h : c.Collects) (hw : c.Attempts scope v (.success w)) : w ≠ .nil := by
  obtain ⟨fuel, hw⟩ := hw
  cases fuel with
  | zero => cases hw
  | succ fuel =>
    rintro rfl
    cases c with
    | array member info =>
      cases v with
      | array items =>
        obtain ⟨outcomes, -, hw⟩ := bind_eq_ok.mp hw
        obtain ⟨-, hnil⟩ := ofItems_eq_success.mp (pure_eq_ok.mp hw)
        cases hnil
      | _ => cases hw
    | map key value info =>
      cases v with
      | hash entries =>
        obtain ⟨outcomes, -, hw⟩ := bind_eq_ok.mp hw
        obtain ⟨-, hnil⟩ := Schema.outcome_eq_success.mp (pure_eq_ok.mp hw)
        cases hnil
      | _ => cases hw
    | schema s =>
      obtain ⟨entries, hnil⟩ := Schema.eq_hash_of_attempt hw
      cases hnil
    | _ => exact h.elim

/-- Constraints are removed from the layers and from the core. -/
theorem strip_withCore (h : ty.Regular) : (ty.withCore c).strip = ty.strip.withCore c.strip := by
  induction ty with
  | constrained inner _ _ ih | enum inner _ ih => exact ih h.2
  | converted inner _ ih | defaulted inner _ ih | safe inner ih | maybe inner ih =>
    simp only [withCore, strip, ih h.2]
  | lax inner ih =>
    have hstripped : inner.strip = inner := h.1
    simp only [withCore, strip, ih h.2, hstripped]
  | _ => rfl

theorem withCore_lax (h : (lax inner).Regular) :
    (lax inner).withCore c = lax (inner.withCore c.strip) := by
  have hstripped : inner.strip = inner := h.1
  rw [withCore, strip_withCore h.2, hstripped]

/-- What is done inside of all layers is done to the core. -/
theorem atCore_eq_ok {expected : String} {change : Ty → Option Ty}
    (h : ty.atCore expected change = .ok t) :
    ∃ c, ty.core.atCore expected change = .ok c ∧ change ty.core = some c ∧ t = ty.withCore c := by
  induction ty generalizing t with
  | constrained inner _ _ ih | converted inner _ ih | defaulted inner _ ih | enum inner _ ih
  | safe inner ih | lax inner ih | maybe inner ih =>
    obtain ⟨u, hu, rfl⟩ := map_eq_ok.mp h
    obtain ⟨c, hcore, hchange, rfl⟩ := ih hu
    exact ⟨c, hcore, hchange, rfl⟩
  | _ =>
    refine ⟨t, h, ?_, rfl⟩
    simp only [atCore] at h
    split at h
    next u hu => exact hu.trans (congrArg some (Except.ok.inj h))
    next => simp at h

/-- A trial that succeeded does so around a suitable core: either the core had no part in it, or the
rules hold of the new result. -/
theorem Suits.attempts (h : ty.Suits scope c true rules v) (hc : c.Collects) (hr : ty.Regular)
    (hw : ty.Attempts scope v (.success w)) :
    ∃ u, (ty.withCore c).Attempts scope v (.success u) ∧
      (u = w ∨ u ≠ .nil ∧ ∀ r ∈ rules, (r.1.judge r.2 u).holds = true) := by
  induction ty generalizing c rules v w with
  | constrained inner rule set ih =>
    obtain ⟨hw, hholds⟩ := attempts_constrained_iff.mp hw
    obtain ⟨u, hu, hkept⟩ := ih h hc hr.2 hw
    rcases hkept with rfl | ⟨hnil, hrules⟩
    · exact ⟨u, attempts_constrained_iff.mpr ⟨hu, hholds⟩, Or.inl rfl⟩
    · obtain ⟨hrule, hrules⟩ := List.forall_mem_cons.mp hrules
      exact ⟨u, attempts_constrained_iff.mpr ⟨hu, hrule⟩, Or.inr ⟨hnil, hrules⟩⟩
  | converted inner functions ih =>
    obtain ⟨x, hx, hw⟩ := attempts_converted_iff.mp hw
    obtain ⟨u, hu, hkept⟩ := ih (h x hx) hc hr.2 hw
    exact ⟨u, attempts_converted_iff.mpr ⟨x, hx, hu⟩, hkept⟩
  | defaulted inner value ih =>
    rcases attempts_defaulted_iff.mp hw with ⟨habsent, hw⟩ | ⟨hpresent, hw⟩
    · exact ⟨w, attempts_defaulted_iff.mpr (Or.inl ⟨habsent, hw⟩), Or.inl rfl⟩
    · rcases hw with ⟨hinner, hw⟩ | ⟨hinner, hnil⟩
      · obtain ⟨u, hu, hkept⟩ := ih (h hpresent) hc hr.2 hinner
        rcases hkept with rfl | ⟨hnil, hrules⟩
        · exact ⟨w, attempts_defaulted_iff.mpr (Or.inr ⟨hpresent, Or.inl ⟨hu, hw⟩⟩), Or.inl rfl⟩
        · exact ⟨u, attempts_defaulted_iff.mpr (Or.inr ⟨hpresent, Or.inr ⟨hu, hnil⟩⟩),
            Or.inr ⟨hnil, hrules⟩⟩
      · obtain ⟨u, hu, hkept⟩ := ih (h hpresent) hc hr.2 hinner
        have hother : u ≠ .nil := by
          rcases hkept with rfl | ⟨hother, -⟩
          · exact hnil
          · exact hother
        exact ⟨u, attempts_defaulted_iff.mpr (Or.inr ⟨hpresent, Or.inr ⟨hu, hother⟩⟩), hkept⟩
  | enum inner values ih =>
    obtain ⟨u, hu, hkept⟩ := ih h hc hr.2 (attempts_enum_iff.mp hw)
    exact ⟨u, attempts_enum_iff.mpr hu, hkept⟩
  | safe inner ih =>
    obtain ⟨u, hu, hkept⟩ := ih h hc hr.2 (attempts_safe_iff.mp hw)
    exact ⟨u, attempts_safe_iff.mpr hu, hkept⟩
  | lax inner ih =>
    obtain ⟨u, hu, hkept⟩ := ih h hc.strip hr.2 (attempts_lax_iff.mp hw)
    rw [withCore_lax hr]
    exact ⟨u, attempts_lax_iff.mpr hu, hkept⟩
  | maybe inner ih =>
    rcases attempts_maybe_iff.mp hw with ⟨habsent, rfl⟩ | ⟨hpresent, hw⟩
    · exact ⟨.nil, attempts_maybe_iff.mpr (Or.inl ⟨habsent, rfl⟩), Or.inl rfl⟩
    · obtain ⟨u, hu, hkept⟩ := ih (h hpresent) hc hr.2 hw
      exact ⟨u, attempts_maybe_iff.mpr (Or.inr ⟨hpresent, hu⟩), hkept⟩
  | _ =>
    obtain ⟨u, hu, hrules⟩ := h
    exact ⟨u, hu, Or.inr ⟨hc.ne_nil hu, hrules⟩⟩

/-- So does a question that was answered with yes. -/
theorem Suits.accepts (h : ty.Suits scope c false [] v) (hc : c.Collects) (hr : ty.Regular)
    (hv : ty.Accepts scope v true) : (ty.withCore c).Accepts scope v true := by
  induction ty generalizing c v with
  | constrained inner rule set _ =>
    have htries : ∀ t, (constrained t rule set).Tries := fun _ => trivial
    obtain ⟨w, hw⟩ := (htries inner).accepts_true_iff.mp hv
    have htried : (constrained inner rule set).Suits scope c true [] v := h
    obtain ⟨u, hu, -⟩ := htried.attempts hc hr hw
    exact (htries _).accepts_true_iff.mpr ⟨u, hu⟩
  | converted inner functions ih =>
    rcases accepts_converted_iff.mp hv with ⟨w, hw, hv⟩ | ⟨-, hfalse⟩
    · exact accepts_converted_iff.mpr (Or.inl ⟨w, hw, ih (h w hw) hc hr.2 hv⟩)
    · cases hfalse
  | defaulted inner value ih =>
    rcases accepts_defaulted_iff.mp hv with hundefined | ⟨hdefined, hv⟩
    · exact accepts_defaulted_iff.mpr (Or.inl hundefined)
    · exact accepts_defaulted_iff.mpr (Or.inr ⟨hdefined, ih (h hdefined) hc hr.2 hv⟩)
  | enum inner values ih =>
    exact accepts_enum_iff.mpr (ih h hc hr.2 (accepts_enum_iff.mp hv))
  | safe inner ih => exact accepts_safe_iff.mpr (ih h hc hr.2 (accepts_safe_iff.mp hv))
  | lax inner ih =>
    rw [withCore_lax hr]
    exact accepts_lax_iff.mpr (ih h hc.strip hr.2 (accepts_lax_iff.mp hv))
  | maybe inner ih =>
    rcases accepts_maybe_iff.mp hv with habsent | ⟨hpresent, hv⟩
    · exact accepts_maybe_iff.mpr (Or.inl habsent)
    · exact accepts_maybe_iff.mpr (Or.inr ⟨hpresent, ih (h hpresent) hc hr.2 hv⟩)
  | _ =>
    obtain ⟨w, hw, -⟩ := h
    exact hc.tries.accepts_true_iff.mpr ⟨w, hw⟩

end

end Conform.Ty
