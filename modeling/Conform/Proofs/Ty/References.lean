import Conform.Proofs.Ty.Info
import Conform.Proofs.Ty.Visits

/-!
The references in a type, and what the entries of a scope refer to. A reference is bare if no array,
map or schema is around it, so that it may be looked up for the very value that the type is tried
on.
-/

namespace Conform

open Relation

theorem Reference.same_iff {a b : Reference} : a.same b = true ↔ a.entry = b.entry := by
  simp [same, entry, and_comm]

mutual

/-- The references in a type, at every depth. -/
def Ty.references : Ty → List Reference
  | .nominal _ _ => []
  | .constrained inner _ _ | .converted inner _ | .defaulted inner _ | .enum inner _ | .safe inner
  | .lax inner | .maybe inner => inner.references
  | .sum left right _ => left.references ++ right.references
  | .array member _ => member.references
  | .map key value _ => key.references ++ value.references
  | .schema s => keyReferences s.keys
  | .reference r => [r]

def keyReferences : List (Key Ty) → List Reference
  | [] => []
  | k :: ks => k.type.references ++ keyReferences ks

end

theorem mem_keyReferences {r : Reference} {keys : List (Key Ty)} :
    r ∈ keyReferences keys ↔ ∃ k ∈ keys, r ∈ k.type.references := by
  induction keys with
  | nil => simp [keyReferences]
  | cons k ks ih => rw [keyReferences, List.mem_append, ih, List.exists_mem_cons_iff]

namespace Ty

/-- The references that are in no array, map or schema. -/
def bare : Ty → List Reference
  | nominal _ _ | array _ _ | map _ _ _ | schema _ => []
  | constrained inner _ _ | converted inner _ | defaulted inner _ | enum inner _ | safe inner
  | lax inner | maybe inner => inner.bare
  | sum left right _ => left.bare ++ right.bare
  | reference r => [r]

theorem mem_references_of_bare {r : Reference} {ty : Ty} (h : r ∈ ty.bare) :
    r ∈ ty.references := by
  induction ty with
  | nominal _ _ | array _ _ _ | map _ _ _ _ _ | schema _ _ => cases h
  | sum left right info ihl ihr =>
    rw [bare, List.mem_append] at h
    rw [references, List.mem_append]
    exact h.imp ihl ihr
  | reference _ => exact h
  | _ => simp_all [bare, references]

/-- What is converted, or picked from some values, refers to nothing. -/
def SteadyNode : Ty → Prop
  | converted inner _ | enum inner _ => inner.references = []
  | _ => True

/-- No reference is below a conversion or an enum. -/
abbrev Steady (ty : Ty) : Prop :=
  ty.Everywhere SteadyNode

theorem Within.references_subset {scope : Scope} {a b : Ty × Value} (h : Within scope a b) :
    b.1.references ⊆ a.1.references := by
  cases h with
  | left => exact List.subset_append_left _ _
  | right _ => exact List.subset_append_right _ _
  | _ => exact List.Subset.refl _

theorem Enters.references_subset {a b : Ty × Value} (h : Enters a b) :
    b.1.references ⊆ a.1.references := by
  cases h with
  | item _ => exact List.Subset.refl _
  | key _ => exact List.subset_append_left _ _
  | value _ => exact List.subset_append_right _ _
  | declared hk _ _ => exact fun r hr => mem_keyReferences.mpr ⟨_, hk, hr⟩

theorem references_subset_of_visits {scope : Scope} {a b : Ty × Value}
    (run : ReflTransGen (Visits scope) a b) : b.1.references ⊆ a.1.references := by
  induction run with
  | refl => exact List.Subset.refl _
  | tail _ step ih =>
    rcases step with step | step
    · exact List.Subset.trans step.references_subset ih
    · exact List.Subset.trans step.references_subset ih

theorem Within.steady {scope : Scope} {a b : Ty × Value} (h : Within scope a b)
    (ha : a.1.Steady) : b.1.Steady := by
  cases h with
  | left => exact ha.2.1
  | right _ => exact ha.2.2
  | _ => exact ha.2

theorem Enters.steady {a b : Ty × Value} (h : Enters a b) (ha : a.1.Steady) : b.1.Steady := by
  cases h with
  | item _ => exact ha.2
  | key _ => exact ha.2.1
  | value _ => exact ha.2.2
  | declared hk _ _ => exact keysEverywhere_iff.mp ha.2 _ hk

/-- A steady type passes the value on as it is to what may refer to something. -/
theorem Within.passes {scope : Scope} {a b : Ty × Value} (h : Within scope a b)
    (ha : a.1.Steady) : b.1.references = [] ∨ b.2 = a.2 ∧ b.1.bare ⊆ a.1.bare := by
  cases h with
  | converted _ | enum => exact Or.inl ha.1
  | left => exact Or.inr ⟨rfl, List.subset_append_left _ _⟩
  | right _ => exact Or.inr ⟨rfl, List.subset_append_right _ _⟩
  | _ => exact Or.inr ⟨rfl, List.Subset.refl _⟩

/-- Where the trial of a steady type on a value has come to: if it may still look up a reference,
then it does so for that value, and the reference is a bare one of the type, or for a smaller value.
-/
structure Descends (ty : Ty) (input : Value) (a : Ty × Value) : Prop where
  steady : a.1.Steady
  value : a.1.references = [] ∨ (a.2 = input ∧ a.1.bare ⊆ ty.bare) ∨ sizeOf a.2 < sizeOf input

section

variable {scope : Scope} {ty : Ty} {input : Value} {a b : Ty × Value}

theorem Descends.within (h : Descends ty input a) (step : Within scope a b) :
    Descends ty input b where
  steady := step.steady h.steady
  value := by
    rcases step.passes h.steady with hnone | ⟨hv, hbare⟩
    · exact Or.inl hnone
    · rcases h.value with hnone | ⟨hsame, hb⟩ | hlt
      · exact Or.inl (List.subset_nil.mp (hnone ▸ step.references_subset))
      · exact Or.inr (Or.inl ⟨hv.trans hsame, List.Subset.trans hbare hb⟩)
      · exact Or.inr (Or.inr (hv ▸ hlt))

theorem Descends.enters (h : Descends ty input a) (step : Enters a b) : Descends ty input b where
  steady := step.steady h.steady
  value := by
    have hlt := step.sizeOf_value_lt
    rcases h.value with hnone | ⟨hsame, -⟩ | hless
    · exact Or.inl (List.subset_nil.mp (hnone ▸ step.references_subset))
    · exact Or.inr (Or.inr (hsame ▸ hlt))
    · exact Or.inr (Or.inr (Nat.lt_trans hlt hless))

theorem Steady.descends (h : ty.Steady) (run : ReflTransGen (Visits scope) (ty, input) a) :
    Descends ty input a := by
  induction run with
  | refl => exact ⟨h, Or.inr (Or.inl ⟨rfl, List.Subset.refl _⟩)⟩
  | tail _ step ih =>
    rcases step with step | step
    · exact ih.within step
    · exact ih.enters step

/-- A steady type looks up a bare reference for the value itself, and others for smaller values. -/
theorem Steady.looks_up (h : ty.Steady) {r : Reference} {v : Value}
    (run : ReflTransGen (Visits scope) (ty, input) (reference r, v)) :
    (v = input ∧ r ∈ ty.bare) ∨ (sizeOf v < sizeOf input ∧ r ∈ ty.references) := by
  rcases (h.descends run).value with hnone | ⟨hv, hbare⟩ | hlt
  · cases hnone
  · exact Or.inl ⟨hv, hbare List.mem_cons_self⟩
  · exact Or.inr ⟨hlt, references_subset_of_visits run List.mem_cons_self⟩

end

end Ty

namespace Scope

/-- An entry has a type. -/
def Holds (scope : Scope) (k : Nat × String) (ty : Ty) : Prop :=
  scope.find k.1 k.2 = .ok (.ok ty)

/-- The type of an entry refers to another entry. -/
def Mentions (scope : Scope) (k k' : Nat × String) : Prop :=
  ∃ ty r, scope.Holds k ty ∧ r ∈ ty.references ∧ r.entry = k'

/-- It does so outside of all arrays, maps and schemas. -/
def Bare (scope : Scope) (k k' : Nat × String) : Prop :=
  ∃ ty r, scope.Holds k ty ∧ r ∈ ty.bare ∧ r.entry = k'

/-- It is nothing but that reference. -/
def Alias (scope : Scope) (k k' : Nat × String) : Prop :=
  ∃ r, scope.Holds k (.reference r) ∧ r.entry = k'

variable {scope : Scope} {k k' : Nat × String}

theorem Holds.unique {t u : Ty} (ht : scope.Holds k t) (hu : scope.Holds k u) : t = u :=
  Except.ok.inj (Except.ok.inj (ht.symm.trans hu))

theorem Bare.mentions (h : scope.Bare k k') : scope.Mentions k k' := by
  obtain ⟨ty, r, hty, hr, hk⟩ := h
  exact ⟨ty, r, hty, Ty.mem_references_of_bare hr, hk⟩

theorem Alias.bare (h : scope.Alias k k') : scope.Bare k k' := by
  obtain ⟨r, hr, hk⟩ := h
  exact ⟨.reference r, r, hr, List.mem_cons_self, hk⟩

theorem Alias.unique {k'' : Nat × String} (h : scope.Alias k k') (h' : scope.Alias k k'') :
    k' = k'' := by
  obtain ⟨r, hr, rfl⟩ := h
  obtain ⟨r', hr', rfl⟩ := h'
  rw [Ty.reference.inj (hr.unique hr')]

end Scope

namespace Reference

variable {scope : Scope} {chain : List Reference} {ty : Ty}

theorem follow_held {r : Reference} (hchain : ¬chain.any (·.same r) = true)
    (hty : scope.Holds r.entry ty) (fuel : Nat) :
    follow scope (fuel + 1) chain (.reference r) = follow scope fuel (chain ++ [r]) ty := by
  have hfound : scope.find r.registry r.identifier = .ok (.ok ty) := hty
  rw [follow, if_neg hchain, hfound]
  rfl

theorem follow_other (hty : ∀ r, ty ≠ .reference r) (fuel : Nat) :
    follow scope fuel chain ty = .ok (.ok ty) := by
  cases ty with
  | reference r => exact absurd rfl (hty r)
  | _ =>
    cases fuel
    all_goals rfl

end Reference

end Conform
