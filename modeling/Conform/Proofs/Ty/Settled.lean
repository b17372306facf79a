import Conform.Proofs.Family.Conversions
import Conform.Proofs.Ty.Guarded
import Conform.Proofs.Ty.References

/-!
Types that settle values: what they give they give again when they are given it. A class that is
checked does so, a conversion to a class too, and nil may be added in front, unless what is taken
for nil is among the values of the type and is not taken for nil at first.
-/

namespace Conform

namespace Ty

/-- A type takes some value to a good one, or refuses it, and a good one to itself. Calling and
trying it always end and agree, for it has no references and checks all classes. -/
structure Settles (scope : Scope) (ty : Ty) (good : Value → Prop) : Prop where
  guarded : ty.Guarded
  closed : ty.references = []
  lands : ∀ x v, ty.Attempts scope x (.success v) → good v
  keeps : ∀ v, good v → ty.Attempts scope v (.success v)

/-- Some value is accepted for it. -/
def Takes (scope : Scope) (ty : Ty) (input : Value) : Prop :=
  ∃ v, ty.Attempts scope input (.success v)

section

variable {scope : Scope} {ty : Ty} {input v : Value}

theorem ends_of_closed (h : ty.references = []) (input : Value) : ty.Ends scope input := by
  refine ends_of_references fun r v run => ?_
  have hmem : r ∈ ty.references := references_subset_of_visits run List.mem_cons_self
  rw [h] at hmem
  cases hmem

theorem fails_of_not_takes (h : ty.Ends scope input) (hnot : ¬ty.Takes scope input) :
    ∃ w e, ty.Attempts scope input (.failure w e) := by
  obtain ⟨o, ho⟩ := h
  cases o with
  | success w => exact absurd ⟨w, ho⟩ hnot
  | failure w e => exact ⟨w, e, ho⟩

theorem attempts_produced_iff {p : Primitive} {f : Func} (h : Retracts p f.call) :
    (converted (nominal p {}) [f]).Attempts scope input (.success v) ↔ f.call input = .ok v := by
  have hone : ∀ w, convert [f] input = .ok w ↔ f.call input = .ok w := by
    intro w
    simp [convert]
  simp only [attempts_converted_iff, attempts_nominal_iff, hone]
  constructor
  · rintro ⟨w, hw, -, rfl⟩
    exact hw
  · intro hv
    exact ⟨v, hv, h.lands input v hv, rfl⟩

section

variable {good : Value → Prop}

theorem Settles.maybe {inner : Ty} (h : inner.Settles scope good)
    (hpresent : ∀ v, good v → v.isAbsent = false) :
    (Ty.maybe inner).Settles scope fun v => good v ∨ v = .nil where
  guarded := .maybe h.guarded
  closed := h.closed
  lands x v hv := by
    rcases attempts_maybe_iff.mp hv with ⟨-, hnil⟩ | ⟨-, hv⟩
    · exact Or.inr hnil
    · exact Or.inl (h.lands x v hv)
  keeps v hv := by
    rw [attempts_maybe_iff]
    rcases hv with hv | rfl
    · exact Or.inr ⟨hpresent v hv, h.keeps v hv⟩
    · exact Or.inl ⟨rfl, rfl⟩

theorem Settles.toMaybe (h : ty.Settles scope good) (hpresent : ∀ v, good v → v.isAbsent = false) :
    ty.toMaybe.Settles scope fun v => good v ∨ v = .nil := by
  cases ty with
  | maybe inner =>
    have hnil := h.lands .nil .nil (attempts_maybe_iff.mpr (Or.inl ⟨rfl, rfl⟩))
    cases hpresent .nil hnil
  | _ => exact h.maybe hpresent

theorem Settles.sum {left right : Ty} {info : Metadata} (hl : left.Settles scope (· = .nil))
    (hr : right.Settles scope good)
    (hapart : ∀ x v, right.Attempts scope x (.success v) → left.Takes scope v →
      left.Takes scope x) :
    (Ty.sum left right info).Settles scope fun v => v = .nil ∨ good v ∧ ¬left.Takes scope v where
  guarded := .sum left info hr.guarded
  closed := by
    show left.references ++ right.references = []
    rw [hl.closed, hr.closed]
    rfl
  lands x v hv := by
    rcases attempts_sum_iff.mp hv with hleft | ⟨⟨w, e, hfails⟩, hright⟩
    · exact Or.inl (hl.lands x v hleft)
    · refine Or.inr ⟨hr.lands x v hright, fun htakes => ?_⟩
      obtain ⟨u, hu⟩ := hapart x v hright htakes
      cases hu.unique hfails
  keeps v hv := by
    rw [attempts_sum_iff]
    rcases hv with rfl | ⟨hgood, hnot⟩
    · exact Or.inl (hl.keeps .nil rfl)
    · exact Or.inr ⟨fails_of_not_takes (ends_of_closed hl.closed v) hnot, hr.keeps v hgood⟩

end

end

end Ty

end Conform
