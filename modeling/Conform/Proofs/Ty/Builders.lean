import Conform.Proofs.Run
import Conform.Proofs.Ty.Info
import Conform.Proofs.Ty.Regular

/-!
Every builder gives regular types from regular ones. The builders that only add a layer keep
whatever holds at all nodes, if it holds at such layers.
-/

namespace Conform.Ty

section

variable {P : Ty → Prop} {ty : Ty}

theorem everywhere_convertLast (hP : ∀ inner functions, P (converted inner functions))
    (h : ty.Everywhere P) (f : Func) : (ty.convertLast f).Everywhere P := by
  unfold Ty.convertLast
  split
  next => exact ⟨hP _ _, h.2⟩
  next => exact ⟨hP _ _, h⟩

theorem everywhere_convertFirst (hP : ∀ inner functions, P (converted inner functions))
    (h : ty.Everywhere P) (f : Func) : (ty.convertFirst f).Everywhere P := by
  unfold Ty.convertFirst
  split
  next => exact ⟨hP _ _, h.2⟩
  next => exact ⟨hP _ _, h⟩

theorem everywhere_toMaybe (hP : ∀ inner, P (maybe inner)) (h : ty.Everywhere P) :
    ty.toMaybe.Everywhere P := by
  unfold Ty.toMaybe
  split
  next => exact h
  next => exact ⟨hP _, h⟩

theorem everywhere_toSafe (hP : ∀ inner, P (safe inner)) (h : ty.Everywhere P) :
    ty.toSafe.Everywhere P := by
  unfold Ty.toSafe
  split
  next => exact h
  next => exact h
  next => exact ⟨hP _, h⟩

theorem everywhere_wrap {t : Ty} {options : List (String × Value)} {given : Option PredicateSet}
    (hP : ∀ inner rule set, P (constrained inner rule set)) (h : ty.Everywhere P)
    (ht : constrain.wrap options given ty = .ok t) : t.Everywhere P := by
  obtain ⟨rule, -, rfl⟩ := map_eq_ok.mp ht
  exact ⟨hP _ _ _, h⟩

end

theorem regular_strict (p : Primitive) : (strict p).Regular := by
  simp [strict, Everywhere, RegularNode]

theorem Regular.optional {ty : Ty} (h : ty.Regular) : ty.optional.Regular := by
  simp [Ty.optional, strict, Everywhere, RegularNode, h]

theorem Regular.toMaybe {ty : Ty} (h : ty.Regular) : ty.toMaybe.Regular :=
  everywhere_toMaybe (fun _ => trivial) h

theorem Regular.toSafe {ty : Ty} (h : ty.Regular) : ty.toSafe.Regular :=
  everywhere_toSafe (fun _ => trivial) h

theorem Regular.convertLast {ty : Ty} (h : ty.Regular) (f : Func) :
    (ty.convertLast f).Regular :=
  everywhere_convertLast (fun _ _ => trivial) h f

theorem Regular.convertFirst {ty : Ty} (h : ty.Regular) (f : Func) :
    (ty.convertFirst f).Regular :=
  everywhere_convertFirst (fun _ _ => trivial) h f

theorem Regular.toLax {ty : Ty} (h : ty.Regular) : ty.toLax.Regular := by
  unfold Ty.toLax
  split
  next => exact h
  next => exact ⟨h.strip_strip, h.strip⟩

section

variable {scope : Scope} {fuel : Nat} {ty t : Ty}

theorem Regular.constrain {options : List (String × Value)} {given : Option PredicateSet}
    (h : ty.Regular) (ht : ty.constrain scope fuel options given = .ok (.ok t)) : t.Regular := by
  induction ty generalizing t with
  | constrained inner rule set _ =>
    obtain ⟨added, -, rfl⟩ := map_eq_ok.mp (Except.ok.inj ht)
    exact h
  | sum left right info _ ihr =>
    obtain ⟨p, -, ht⟩ := bind_eq_ok.mp ht
    split at ht
    next =>
      obtain ⟨r, hr, ht⟩ := bind_eq_ok.mp ht
      obtain ⟨u, rfl, rfl⟩ := map_eq_ok.mp (pure_eq_ok.mp ht)
      exact ⟨trivial, h.2.1, ihr h.2.2 hr⟩
    next => exact everywhere_wrap (fun _ _ _ => trivial) h (pure_eq_ok.mp ht)
  | defaulted inner value ih =>
    obtain ⟨r, hr, ht⟩ := bind_eq_ok.mp ht
    obtain ⟨u, rfl, rfl⟩ := map_eq_ok.mp (pure_eq_ok.mp ht)
    exact ⟨trivial, ih h.2 hr⟩
  | maybe inner ih =>
    obtain ⟨r, hr, ht⟩ := bind_eq_ok.mp ht
    obtain ⟨u, rfl, rfl⟩ := map_eq_ok.mp (pure_eq_ok.mp ht)
    exact ⟨trivial, ih h.2 hr⟩
  | _ => exact everywhere_wrap (fun _ _ _ => trivial) h (Except.ok.inj ht)

/-- Only what a type accepts becomes its default. -/
theorem withDefault_eq_ok {v : Value} (ht : ty.withDefault scope fuel v = .ok (.ok t)) :
    ty.accepts scope fuel v = .ok true ∧ t = defaulted ty (.literal v) := by
  unfold Ty.withDefault at ht
  dsimp only at ht
  split at ht
  all_goals
    obtain ⟨optional, -, ht⟩ := bind_eq_ok.mp ht
    split at ht
    next => simp [pure_eq_ok] at ht
    next =>
      obtain ⟨accepted, haccepted, ht⟩ := bind_eq_ok.mp ht
      split at ht
      next htrue => exact ⟨htrue ▸ haccepted, (Except.ok.inj (pure_eq_ok.mp ht)).symm⟩
      next => simp [pure_eq_ok] at ht

theorem Regular.withDefault {v : Value} (h : ty.Regular)
    (ht : ty.withDefault scope fuel v = .ok (.ok t)) : t.Regular := by
  obtain ⟨-, rfl⟩ := withDefault_eq_ok ht
  exact ⟨trivial, h⟩

theorem enumeration_eq_ok {values : List Value}
    (ht : ty.enumeration scope fuel values = .ok (.ok t)) :
    ∃ u, ty.constrain scope fuel [("included_in", .array values)] none = .ok (.ok u) ∧
      t = enum u values := by
  unfold Ty.enumeration at ht
  split at ht
  next => simp at ht
  next =>
    obtain ⟨r, hr, ht⟩ := bind_eq_ok.mp ht
    obtain ⟨u, rfl, rfl⟩ := map_eq_ok.mp (pure_eq_ok.mp ht)
    exact ⟨u, hr, rfl⟩

theorem Regular.enumeration {values : List Value} (h : ty.Regular)
    (ht : ty.enumeration scope fuel values = .ok (.ok t)) : t.Regular := by
  obtain ⟨u, hu, rfl⟩ := enumeration_eq_ok ht
  exact ⟨trivial, h.constrain hu⟩

theorem Regular.mergeInfo {other : Metadata} (h : ty.Regular)
    (ht : ty.mergeInfo scope fuel other = .ok t) : t.Regular := by
  induction ty generalizing t with
  | nominal p info => exact pure_eq_ok.mp ht ▸ trivial
  | sum left right info _ ihr =>
    obtain ⟨p, -, ht⟩ := bind_eq_ok.mp ht
    split at ht
    next =>
      obtain ⟨r, hr, ht⟩ := bind_eq_ok.mp ht
      exact pure_eq_ok.mp ht ▸ ⟨trivial, h.2.1, ihr h.2.2 hr⟩
    next => exact pure_eq_ok.mp ht ▸ ⟨trivial, h.2⟩
  | array member info _ => exact pure_eq_ok.mp ht ▸ ⟨trivial, h.2⟩
  | map key value info _ _ => exact pure_eq_ok.mp ht ▸ ⟨trivial, h.2⟩
  | schema s _ => exact pure_eq_ok.mp ht ▸ ⟨h.1, h.2⟩
  | reference r => exact pure_eq_ok.mp ht ▸ trivial
  | lax inner ih =>
    obtain ⟨u, hu, ht⟩ := bind_eq_ok.mp ht
    have hu := ih h.2 hu
    exact pure_eq_ok.mp ht ▸ ⟨hu.strip_strip, hu.strip⟩
  | constrained inner _ _ ih | converted inner _ ih | defaulted inner _ ih | enum inner _ ih
  | safe inner ih | maybe inner ih =>
    obtain ⟨u, hu, ht⟩ := bind_eq_ok.mp ht
    exact pure_eq_ok.mp ht ▸ ⟨trivial, ih h.2 hu⟩

/-- Adding metadata changes nothing else. -/
theorem mapInfo_mergeInfo {other : Metadata} (h : ty.Regular)
    (ht : ty.mergeInfo scope fuel other = .ok t) :
    t.mapInfo (fun _ => {}) = ty.mapInfo fun _ => {} := by
  induction ty generalizing t with
  | sum left right info _ ihr =>
    obtain ⟨p, -, ht⟩ := bind_eq_ok.mp ht
    split at ht
    next =>
      obtain ⟨u, hu, ht⟩ := bind_eq_ok.mp ht
      obtain rfl := pure_eq_ok.mp ht
      simp only [mapInfo, ihr h.2.2 hu]
    next =>
      obtain rfl := pure_eq_ok.mp ht
      rfl
  | lax inner ih =>
    obtain ⟨u, hu, ht⟩ := bind_eq_ok.mp ht
    obtain rfl := pure_eq_ok.mp ht
    have hstripped : inner.strip = inner := h.1
    simp only [mapInfo, ← strip_mapInfo, ih h.2 hu]
    rw [strip_mapInfo, hstripped]
  | constrained inner _ _ ih | converted inner _ ih | defaulted inner _ ih | enum inner _ ih
  | safe inner ih | maybe inner ih =>
    obtain ⟨u, hu, ht⟩ := bind_eq_ok.mp ht
    obtain rfl := pure_eq_ok.mp ht
    simp only [mapInfo, ih h.2 hu]
  | _ =>
    obtain rfl := Except.ok.inj ht
    rfl

theorem Regular.withoutInfo (h : ty.Regular) : ty.withoutInfo.Regular := by
  induction ty with
  | lax inner ih =>
    have hi := ih h.2
    exact ⟨hi.strip_strip, hi.strip⟩
  | _ => simp_all [Everywhere, RegularNode, Ty.withoutInfo]

/-- Whatever keeps types regular may be done inside of all layers. -/
theorem Regular.atCore {expected : String} {change : Ty → Option Ty}
    (hchange : ∀ {ty t : Ty}, ty.Regular → change ty = some t → t.Regular) (h : ty.Regular)
    (ht : ty.atCore expected change = .ok t) : t.Regular := by
  induction ty generalizing t with
  | constrained inner _ _ ih | converted inner _ ih | defaulted inner _ ih | enum inner _ ih
  | safe inner ih | maybe inner ih =>
    obtain ⟨u, hu, rfl⟩ := map_eq_ok.mp ht
    exact ⟨trivial, ih h.2 hu⟩
  | lax inner ih =>
    obtain ⟨u, hu, rfl⟩ := map_eq_ok.mp ht
    have hu := ih h.2 hu
    exact ⟨hu.strip_strip, hu.strip⟩
  | _ =>
    simp only [Ty.atCore] at ht
    split at ht
    next u hu => exact Except.ok.inj ht ▸ hchange h hu
    next => simp at ht

theorem Regular.ofMember {member : Ty} (h : ty.Regular) (hm : member.Regular)
    (ht : ty.ofMember member = .ok t) : t.Regular := by
  refine h.atCore (fun _ hu => ?_) ht
  split at hu
  next => exact Option.some.inj hu ▸ ⟨trivial, hm⟩
  next => exact Option.some.inj hu ▸ ⟨trivial, hm⟩
  next => cases hu

theorem Regular.ofMap {key value : Ty} (h : ty.Regular) (hk : key.Regular) (hv : value.Regular)
    (ht : ty.ofMap key value = .ok t) : t.Regular := by
  refine h.atCore (fun _ hu => ?_) ht
  split at hu
  next => exact Option.some.inj hu ▸ ⟨trivial, hk, hv⟩
  next => exact Option.some.inj hu ▸ ⟨trivial, hk, hv⟩
  next => cases hu

theorem Regular.onSchema {change : Schema Ty Func → Schema Ty Func} (h : ty.Regular)
    (ht : ty.onSchema change = .ok t)
    (hchange : ∀ s : Schema Ty Func, (change s).keys = s.keys) : t.Regular := by
  refine h.atCore (fun hs hu => ?_) ht
  split at hu
  next s =>
    rw [regular_schema_iff, ← hchange] at hs
    exact Option.some.inj hu ▸ regular_schema_iff.mpr hs
  next => cases hu

theorem Regular.withSchema {build : Option (Schema Ty Func) → Schema Ty Func} (h : ty.Regular)
    (ht : ty.withSchema build = .ok t) (hnone : (schema (build none)).Regular)
    (hsome : ∀ s : Schema Ty Func, (schema s).Regular → (schema (build (some s))).Regular) :
    t.Regular := by
  refine h.atCore (fun hs hu => ?_) ht
  split at hu
  next => exact Option.some.inj hu ▸ hnone
  next s => exact Option.some.inj hu ▸ hsome s hs
  next => cases hu

section

variable {keys : List (Key Ty)}

theorem Regular.declare (h : ty.Regular) (hk : ∀ k ∈ keys, k.type.Regular)
    (ht : ty.declare keys = .ok t) : t.Regular :=
  h.withSchema ht (regular_ofKeys keys hk) fun _ hs => regular_merge hs hk

theorem Regular.declareComplete (h : ty.Regular) (hk : ∀ k ∈ keys, k.type.Regular)
    (ht : ty.declareComplete keys = .ok t) : t.Regular :=
  h.withSchema ht (regular_merge (regular_ofKeys [] (by simp)) hk) fun _ hs =>
    regular_merge hs hk

theorem Regular.refuseUnknown (h : ty.Regular) (ht : ty.refuseUnknown = .ok t) : t.Regular :=
  h.onSchema ht fun _ => rfl

theorem Regular.withTransform {transform : KeyTransform Func} (h : ty.Regular)
    (ht : ty.withTransform transform = .ok t) : t.Regular :=
  h.onSchema ht fun _ => rfl

theorem Regular.declareStrict (h : ty.Regular) (hk : ∀ k ∈ keys, k.type.Regular)
    (ht : ty.declareStrict keys = .ok t) : t.Regular := by
  obtain ⟨u, hu, ht⟩ := bind_eq_ok.mp ht
  exact (h.declare hk hu).refuseUnknown ht

theorem Regular.declareWeak (h : ty.Regular) (hk : ∀ k ∈ keys, k.type.Regular)
    (ht : ty.declareWeak keys = .ok t) : t.Regular := by
  refine h.declare (fun k hmem => ?_) ht
  obtain ⟨l, hl, rfl⟩ := List.mem_map.mp hmem
  exact (hk l hl).toSafe

theorem Regular.declareSymbols (h : ty.Regular) (hk : ∀ k ∈ keys, k.type.Regular)
    (ht : ty.declareSymbols keys = .ok t) : t.Regular := by
  obtain ⟨u, hu, ht⟩ := bind_eq_ok.mp ht
  exact (h.declareWeak hk hu).withTransform ht

end

end

end Conform.Ty
