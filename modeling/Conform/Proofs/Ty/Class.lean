import Conform.Proofs.Ty.Info
import Conform.Proofs.Ty.Recursion
import Conform.Ty.Shape

/-!
The class that a type is about, and the metadata, which depend on it. What a reference is about is
found by way of the references that are in no array, map or schema.
-/

namespace Conform

open Relation

namespace Ty

/-- The metadata of a type can be told: all classes that they depend on can be found. -/
def Described (scope : Scope) (ty : Ty) : Prop :=
  ∃ fuel info, ty.info scope fuel = .ok info

section

variable {scope : Scope} {ty : Ty} {fuel more : Nat}

theorem primitive_below (hle : fuel ≤ more) (ty : Ty) :
    Below (primitive scope fuel ty) (primitive scope more ty) := by
  induction fuel generalizing more ty with
  | zero => intro p h; cases h
  | succ fuel ih =>
    obtain ⟨more, rfl⟩ : ∃ n, more = n + 1 := ⟨more - 1, by omega⟩
    have hle : fuel ≤ more := by omega
    cases ty with
    | nominal _ _ | array _ _ | map _ _ _ | schema _ => exact .refl _
    | constrained inner _ _ | converted inner _ | defaulted inner _ | enum inner _ | safe inner
    | lax inner | maybe inner => exact ih hle inner
    | sum left right _ => exact (ih hle left).bind fun _ => (ih hle right).bind fun _ => .refl _
    | reference r =>
      refine (Reference.follow_below hle [] _).bind fun found => ?_
      cases found with
      | error e => exact .refl _
      | ok ty => exact ih hle ty

/-- More depth does not change what a type is about. -/
theorem primitive_mono {p : Primitive} (hle : fuel ≤ more)
    (h : primitive scope fuel ty = .ok p) : primitive scope more ty = .ok p :=
  primitive_below hle ty p h

theorem info_below (hle : fuel ≤ more) (ty : Ty) :
    Below (ty.info scope fuel) (ty.info scope more) := by
  induction ty with
  | nominal _ _ | array _ _ _ | map _ _ _ _ _ | schema _ _ | reference _ => exact .refl _
  | constrained _ _ _ ih | converted _ _ ih | defaulted _ _ ih | enum _ _ ih | safe _ ih
  | lax _ ih | maybe _ ih => exact ih
  | sum left right i _ ihr => exact (primitive_below hle left).bind fun _ => .ite ihr (.refl _)

theorem info_mono {info : Metadata} (hle : fuel ≤ more) (h : ty.info scope fuel = .ok info) :
    ty.info scope more = .ok info :=
  info_below hle ty info h

/-- It can be found what a type is about if that can be found for its bare references. -/
theorem exists_primitive_of_bare
    (h : ∀ r ∈ ty.bare, ∃ fuel p, primitive scope fuel (reference r) = .ok p) :
    ∃ fuel p, primitive scope fuel ty = .ok p := by
  induction ty with
  | nominal p _ => exact ⟨1, p, rfl⟩
  | array _ _ _ => exact ⟨1, .array, rfl⟩
  | map _ _ _ _ _ | schema _ _ => exact ⟨1, .hash, rfl⟩
  | constrained _ _ _ ih | converted _ _ ih | defaulted _ _ ih | enum _ _ ih | safe _ ih
  | lax _ ih | maybe _ ih =>
    obtain ⟨fuel, p, hp⟩ := ih h
    exact ⟨fuel + 1, p, hp⟩
  | sum left right info ihl ihr =>
    obtain ⟨hl, hr⟩ := List.forall_mem_append.mp h
    obtain ⟨fuel, l, hl⟩ := ihl hl
    obtain ⟨more, r, hr⟩ := ihr hr
    have hl := primitive_mono (Nat.le_max_left fuel more) hl
    have hr := primitive_mono (Nat.le_max_right fuel more) hr
    refine ⟨max fuel more + 1, if l = .nil then r else if l = r then l else .any, ?_⟩
    simp only [primitive, hl, hr, ok_bind]
    rfl
  | reference r => exact h r List.mem_cons_self

/-- It can be found what a reference is about, provided that it leads in no cycle. -/
theorem exists_primitive_of_acc (htotal : scope.Total) {r : Reference}
    (hacc : Acc (fun b a => scope.Bare a b) r.entry) :
    ∃ fuel p, primitive scope fuel (reference r) = .ok p := by
  have hbelow := hacc.transGen
  generalize hk : r.entry = k at hacc hbelow
  induction hbelow generalizing r with
  | intro k _ ih =>
    obtain ⟨fuel, found, hfound, hends⟩ := Reference.follow_ends htotal hacc hk []
    cases found with
    | error e =>
      refine ⟨fuel + 1, .any, ?_⟩
      simp only [primitive, Reference.resolve, hfound]
      rfl
    | ok ty =>
      obtain ⟨k', path, hk'⟩ := hends ty rfl
      have hinner : ∃ more p, primitive scope more ty = .ok p := by
        refine exists_primitive_of_bare fun next hnext => ?_
        have hsteps : TransGen scope.Bare k next.entry := .tail' path ⟨ty, next, hk', hnext, rfl⟩
        have hswap := transGen_swap.mp hsteps
        exact ih next.entry hswap rfl (hacc.inv_of_transGen hswap)
      obtain ⟨more, p, hp⟩ := hinner
      have hfound := Reference.follow_mono (Nat.le_max_left fuel more) hfound
      have hp := primitive_mono (Nat.le_max_right fuel more) hp
      refine ⟨max fuel more + 1, p, ?_⟩
      simp only [primitive, Reference.resolve, hfound, ok_bind, hp]

/-- The metadata of a type can be told if its bare references lead in no cycle. -/
theorem described_of_acc (htotal : scope.Total)
    (h : ∀ r ∈ ty.bare, Acc (fun b a => scope.Bare a b) r.entry) : ty.Described scope := by
  induction ty with
  | nominal _ info | array _ info _ | map _ _ info _ _ => exact ⟨0, info, rfl⟩
  | schema s _ => exact ⟨0, s.info, rfl⟩
  | reference r => exact ⟨0, r.info, rfl⟩
  | constrained _ _ _ ih | converted _ _ ih | defaulted _ _ ih | enum _ _ ih | safe _ ih
  | lax _ ih | maybe _ ih => exact ih h
  | sum left right info _ ihr =>
    obtain ⟨hl, hr⟩ := List.forall_mem_append.mp h
    obtain ⟨fuel, p, hp⟩ := exists_primitive_of_bare fun r hmem =>
      exists_primitive_of_acc htotal (hl r hmem)
    obtain ⟨more, i, hi⟩ := ihr hr
    have hp := primitive_mono (Nat.le_max_left fuel more) hp
    have hi := info_mono (Nat.le_max_right fuel more) hi
    refine ⟨max fuel more, if p = .nil then i else info, ?_⟩
    simp only [Ty.info, hp, ok_bind]
    split
    next => exact hi
    next => rfl

/-- Metadata have no part in what a type is about. -/
theorem primitive_mapInfo (f : Metadata → Metadata) (scope : Scope) (fuel : Nat) (ty : Ty) :
    (ty.mapInfo f).primitive scope fuel = ty.primitive scope fuel := by
  induction fuel generalizing ty with
  | zero => rfl
  | succ fuel ih =>
    cases ty with
    | reference r => simp only [mapInfo, primitive, r.resolve_withInfo]
    | _ => simp only [mapInfo, primitive, ih]

theorem info_mapInfo (f : Metadata → Metadata) (scope : Scope) (fuel : Nat) (ty : Ty) :
    (ty.mapInfo f).info scope fuel = (ty.info scope fuel).map f := by
  induction ty with
  | sum left right info _ ihr =>
    simp only [mapInfo, Ty.info, primitive_mapInfo, ihr]
    cases left.primitive scope fuel with
    | error _ => rfl
    | ok p =>
      simp only [ok_bind]
      split
      next => rfl
      next => rfl
  | nominal _ _ | array _ _ _ | map _ _ _ _ _ | schema _ _ | reference _ => rfl
  | constrained _ _ _ ih | converted _ _ ih | defaulted _ _ ih | enum _ _ ih | safe _ ih
  | lax _ ih | maybe _ ih => exact ih

theorem described_mapInfo {f : Metadata → Metadata} :
    (ty.mapInfo f).Described scope ↔ ty.Described scope := by
  simp only [Described, info_mapInfo, map_eq_ok]
  constructor
  · rintro ⟨fuel, -, info, hinfo, -⟩
    exact ⟨fuel, info, hinfo⟩
  · rintro ⟨fuel, info, hinfo⟩
    exact ⟨fuel, f info, info, hinfo, rfl⟩

/-- A type without its constraints is about the same class, which takes no more depth to find. -/
theorem primitive_strip {p : Primitive} (h : primitive scope fuel ty = .ok p) :
    primitive scope fuel ty.strip = .ok p := by
  induction fuel generalizing ty p with
  | zero => cases h
  | succ fuel ih =>
    cases ty with
    | nominal _ _ | array _ _ | map _ _ _ | schema _ | reference _ => exact h
    | constrained inner _ _ | enum inner _ =>
      simp only [primitive] at h
      have hinner := ih h
      exact primitive_mono (Nat.le_succ fuel) hinner
    | lax inner =>
      simp only [primitive] at h
      exact primitive_mono (Nat.le_succ fuel) h
    | converted inner _ | defaulted inner _ | safe inner | maybe inner =>
      simp only [primitive, strip] at h ⊢
      exact ih h
    | sum left right _ =>
      simp only [primitive, strip, bind_eq_ok] at h ⊢
      obtain ⟨l, hl, r, hr, h⟩ := h
      exact ⟨l, ih hl, r, ih hr, h⟩

theorem info_strip {info : Metadata} (h : ty.info scope fuel = .ok info) :
    ty.strip.info scope fuel = .ok info := by
  induction ty with
  | nominal _ _ | array _ _ _ | map _ _ _ _ _ | schema _ _ | reference _ | lax _ _ => exact h
  | constrained _ _ _ ih | converted _ _ ih | defaulted _ _ ih | enum _ _ ih | safe _ ih
  | maybe _ ih => exact ih h
  | sum left right i _ ihr =>
    simp only [Ty.info, strip, bind_eq_ok] at h ⊢
    obtain ⟨p, hp, h⟩ := h
    refine ⟨p, primitive_strip hp, ?_⟩
    split at h
    next hnil => rw [if_pos hnil, ihr h]
    next hother => rwa [if_neg hother]

theorem Described.strip (h : ty.Described scope) : ty.strip.Described scope := by
  obtain ⟨fuel, info, hinfo⟩ := h
  exact ⟨fuel, info, info_strip hinfo⟩

end

end Ty

end Conform
