import Conform.Proofs.Metadata
import Conform.Proofs.Ty.Cycle
import Conform.Proofs.Ty.Class
import Conform.Proofs.Ty.Stripped

/-!
Metadata that are added to a type, or removed. They are put where they are read, and nothing else
changes. To tell whether a sum is optional, it has to be found what its left side is about; where
that is never found out, metadata are neither added nor read.
-/

namespace Conform

namespace Ty

/-- Adding metadata to a type ends, at some depth, with a type. -/
def Merges (scope : Scope) (ty : Ty) (m : Metadata) (t : Ty) : Prop :=
  ∃ fuel, ty.mergeInfo scope fuel m = .ok t

/-- Telling the metadata of a type ends, at some depth. -/
def Shows (scope : Scope) (ty : Ty) (info : Metadata) : Prop :=
  ∃ fuel, ty.info scope fuel = .ok info

/-- Nothing but metadata tells two types apart. -/
structure Indistinct (scope : Scope) (t u : Ty) : Prop where
  equal : (t == u) = true
  name : t.name = u.name
  primitive : ∀ fuel, t.primitive scope fuel = u.primitive scope fuel
  alike : t.Alike u

/-- Metadata are added and removed without any other effect, and what is added is what is read. -/
structure Annotates (scope : Scope) (ty : Ty) : Prop where
  ends : ∀ m, (∃ t, ty.Merges scope m t) ↔ ty.Described scope
  merged : ∀ m t, ty.Merges scope m t → Indistinct scope t ty
  shown : ∀ m t, ty.Merges scope m t →
    ∀ info, t.Shows scope info ↔ ∃ before, ty.Shows scope before ∧ info = before.merge m
  /-- Of two notes with one name, the one that is added counts. -/
  wins : ∀ (before m : Metadata) name,
    (before.merge m).get? name = (m.get? name).or (before.get? name)
  again : ∀ m t, ty.Merges scope m t →
    ∀ other u, t.Merges scope other u ↔ ty.Merges scope (m.merge other) u
  removed : Indistinct scope ty.withoutInfo ty
  bare : ∀ info, ty.withoutInfo.Shows scope info ↔ ty.Described scope ∧ info = {}

section

variable {f : Metadata → Metadata} {scope : Scope} {ty t u : Ty} {fuel more : Nat}
  {m other : Metadata}

theorem name_mapInfo (f : Metadata → Metadata) (ty : Ty) : (ty.mapInfo f).name = ty.name := by
  induction ty with
  | schema s ih =>
    have hkeys : ∀ keys : List (Key Ty), (∀ k ∈ keys, (k.type.mapInfo f).name = k.type.name) →
        keyTexts (mapInfoKeys f keys) = keyTexts keys := by
      intro keys hkeys
      induction keys with
      | nil => rfl
      | cons k ks ihks =>
        obtain ⟨hk, hks⟩ := List.forall_mem_cons.mp hkeys
        simp only [mapInfoKeys, keyTexts, hk, ihks hks]
    simp only [mapInfo, name, hkeys s.keys ih]
  | _ => simp_all [mapInfo, name]

theorem alike_of_mapInfo (h : t.mapInfo f = u.mapInfo f) : t.Alike u := by
  intro scope fuel input
  have hcoerce := coerce_mapInfo f scope fuel t
  have hattempt := attempt_mapInfo f scope fuel t
  have haccepts := accepts_mapInfo f scope fuel t
  rw [h] at hcoerce hattempt haccepts
  rw [← hcoerce, ← hattempt, ← haccepts, coerce_mapInfo, attempt_mapInfo, accepts_mapInfo]
  exact ⟨rfl, rfl, rfl⟩

theorem mapInfo_keysBeq {ks : List (Key Ty)}
    (ih : ∀ k ∈ ks, ∀ u : Ty, (k.type.mapInfo f).beq u = k.type.beq u) (ls : List (Key Ty)) :
    keysBeq (mapInfoKeys f ks) ls = keysBeq ks ls := by
  induction ks generalizing ls with
  | nil => rfl
  | cons k ks ihks =>
    obtain ⟨hk, hks⟩ := List.forall_mem_cons.mp ih
    cases ls with
    | nil => rfl
    | cons l ls => simp only [mapInfoKeys, keysBeq, hk, ihks hks]

/-- Metadata have no part in whether two types are equal. -/
theorem mapInfo_beq (f : Metadata → Metadata) (t u : Ty) : (t.mapInfo f).beq u = t.beq u := by
  induction t generalizing u with
  | schema s ih =>
    cases u with
    | schema s' => simp only [mapInfo, beq, mapInfo_keysBeq ih]
    | _ => rfl
  | _ => cases u <;> simp only [mapInfo, beq, *]

theorem beq_of_mapInfo (h : t.mapInfo f = u.mapInfo f) : (t == u) = true := by
  change t.beq u = true
  rw [← mapInfo_beq f, h]
  exact beq_mapInfo u

theorem indistinct_of_mapInfo (scope : Scope) (h : t.mapInfo f = u.mapInfo f) :
    Indistinct scope t u where
  equal := beq_of_mapInfo h
  name := by rw [← name_mapInfo f, h, name_mapInfo]
  primitive fuel := by rw [← primitive_mapInfo f, h, primitive_mapInfo]
  alike := alike_of_mapInfo h

theorem Plain.strip_eq (h : ty.Plain) : ty.strip = ty := by
  induction ty with
  | schema s ih =>
    have hkeys := keysEverywhere_iff.mp h.2
    have hsame : stripKeys s.keys = s.keys := by
      rw [stripKeys_eq_map]
      refine (List.map_congr_left fun k hk => ?_).trans (List.map_id _)
      rw [ih k hk (hkeys k hk), id]
    rw [strip, hsame]
  | _ => simp_all [Everywhere, PlainNode, Ty.strip]

theorem Plain.mergeInfo (h : ty.Plain) (ht : ty.mergeInfo scope fuel m = .ok t) : t.Plain := by
  induction ty generalizing t with
  | constrained | enum | lax => exact h.1.elim
  | sum left right info _ ihr =>
    obtain ⟨p, -, ht⟩ := bind_eq_ok.mp ht
    split at ht
    next =>
      obtain ⟨r, hr, ht⟩ := bind_eq_ok.mp ht
      exact pure_eq_ok.mp ht ▸ ⟨trivial, h.2.1, ihr h.2.2 hr⟩
    next => exact pure_eq_ok.mp ht ▸ ⟨trivial, h.2⟩
  | nominal | reference => exact pure_eq_ok.mp ht ▸ trivial
  | array | map | schema => exact pure_eq_ok.mp ht ▸ ⟨trivial, h.2⟩
  | converted inner _ ih | defaulted inner _ ih | safe inner ih | maybe inner ih =>
    obtain ⟨u, hu, ht⟩ := bind_eq_ok.mp ht
    exact pure_eq_ok.mp ht ▸ ⟨trivial, ih h.2 hu⟩

theorem Plain.withoutInfo (h : ty.Plain) : ty.withoutInfo.Plain := by
  induction ty with
  | _ => simp_all [Everywhere, PlainNode, Ty.withoutInfo]

theorem plain_of_lax {inner : Ty} (h : (lax inner).Regular) : inner.Plain := by
  have hstripped : inner.strip = inner := h.1
  have hplain := (constructed_iff_regular.mpr h.2).plain_strip
  rwa [hstripped] at hplain

theorem mapInfo_withoutInfo (h : ty.Regular) :
    ty.withoutInfo.mapInfo (fun _ => {}) = ty.mapInfo fun _ => {} := by
  induction ty with
  | lax inner ih =>
    have hplain := plain_of_lax h
    simp only [Ty.withoutInfo, hplain.withoutInfo.strip_eq, mapInfo, ih h.2]
  | _ => simp_all [mapInfo, Everywhere, Ty.withoutInfo]

/-- A lax type is a layer like others where nothing is left to remove. -/
theorem mergeInfo_lax {inner : Ty} (h : (lax inner).Regular) :
    (lax inner).mergeInfo scope fuel m = (do return lax (← inner.mergeInfo scope fuel m)) := by
  change (do return lax (← inner.mergeInfo scope fuel m).strip) = _
  cases hu : inner.mergeInfo scope fuel m with
  | error e => rfl
  | ok u =>
    have hplain := (plain_of_lax h).mergeInfo hu
    simp only [ok_bind, hplain.strip_eq]

theorem mergeInfo_below (hle : fuel ≤ more) (ty : Ty) :
    Below (ty.mergeInfo scope fuel m) (ty.mergeInfo scope more m) := by
  induction ty with
  | nominal | array | map | schema | reference => exact .refl _
  | sum left right info _ ihr =>
    exact (primitive_below hle left).bind fun _ => .ite (ihr.bind fun _ => .refl _) (.refl _)
  | constrained _ _ _ ih | converted _ _ ih | defaulted _ _ ih | enum _ _ ih | safe _ ih
  | lax _ ih | maybe _ ih => exact ih.bind fun _ => .refl _

theorem mergeInfo_mono (hle : fuel ≤ more) (ht : ty.mergeInfo scope fuel m = .ok t) :
    ty.mergeInfo scope more m = .ok t :=
  mergeInfo_below hle ty t ht

theorem endsAlike_layer {f : Ty → Ty} {x : Run Ty} {y : Run Metadata} {R S : Ty → Metadata → Prop}
    (h : EndsAlike R x y) (hf : ∀ u info, R u info → S (f u) info) :
    EndsAlike S (do return f (← x)) y := by
  cases h with
  | error e => exact .error e
  | ok hr => exact .ok (hf _ _ hr)

/-- Metadata are added just where they are read, at the same depth. -/
theorem info_mergeInfo (h : ty.Regular) :
    EndsAlike (fun t info => t.info scope fuel = .ok (info.merge m)) (ty.mergeInfo scope fuel m)
      (ty.info scope fuel) := by
  induction ty with
  | nominal | array | map | schema | reference => exact .ok rfl
  | sum left right info _ ihr =>
    simp only [Ty.mergeInfo, Ty.info]
    cases hp : left.primitive scope fuel with
    | error e => exact .error e
    | ok p =>
      simp only [ok_bind]
      by_cases hnil : p = .nil
      · rw [if_pos hnil, if_pos hnil]
        refine endsAlike_layer (ihr h.2.2) fun u before hu => ?_
        simp only [Ty.info, hp, ok_bind, hnil, if_true, hu]
      · rw [if_neg hnil, if_neg hnil]
        refine .ok ?_
        simp only [Ty.info, hp, ok_bind, hnil, if_false]
        rfl
  | lax inner ih =>
    rw [mergeInfo_lax h]
    exact endsAlike_layer (ih h.2) fun _ _ hr => hr
  | constrained _ _ _ ih | converted _ _ ih | defaulted _ _ ih | enum _ _ ih | safe _ ih
  | maybe _ ih => exact endsAlike_layer (ih h.2) fun _ _ hr => hr

/-- What is added in two steps might have been added at once. -/
theorem mergeInfo_twice (h : ty.Regular) :
    (ty.mergeInfo scope fuel m >>= fun t => t.mergeInfo scope fuel other) =
      ty.mergeInfo scope fuel (m.merge other) := by
  induction ty with
  | nominal | array | map | schema | reference =>
    simp only [Ty.mergeInfo, ok_bind, Metadata.merge_assoc]
  | sum left right info _ ihr =>
    have hright := ihr h.2.2
    cases hp : left.primitive scope fuel with
    | error e =>
      simp only [Ty.mergeInfo, hp]
      rfl
    | ok p =>
      by_cases hnil : p = .nil
      · simp only [Ty.mergeInfo, hp, ok_bind, hnil, if_true, ← hright]
        cases right.mergeInfo scope fuel m with
        | error e => rfl
        | ok u =>
          change (sum left u info).mergeInfo scope fuel other = _
          simp only [Ty.mergeInfo, hp, ok_bind, hnil, if_true]
      · simp only [Ty.mergeInfo, hp, ok_bind, hnil, if_false]
        change (sum left right (info.merge m)).mergeInfo scope fuel other = _
        simp only [Ty.mergeInfo, hp, ok_bind, hnil, if_false, Metadata.merge_assoc]
  | lax inner ih =>
    have hinner := ih h.2
    rw [mergeInfo_lax h, mergeInfo_lax h, ← hinner]
    cases hu : inner.mergeInfo scope fuel m with
    | error e => rfl
    | ok u =>
      have hplain := (plain_of_lax h).mergeInfo hu
      have hlax : (lax u).Regular := ⟨hplain.strip_eq, Regular.mergeInfo h.2 hu⟩
      exact mergeInfo_lax hlax
  | constrained inner _ _ ih | converted inner _ ih | defaulted inner _ ih | enum inner _ ih
  | safe inner ih | maybe inner ih =>
    have hinner := ih h.2
    simp only [Ty.mergeInfo, ← hinner]
    cases inner.mergeInfo scope fuel m with
    | error e => rfl
    | ok u => rfl

theorem info_withoutInfo (h : ty.Regular) :
    ty.withoutInfo.info scope fuel = (ty.info scope fuel).map fun _ => {} := by
  induction ty with
  | nominal | array | map | schema | reference => rfl
  | sum left right info _ ihr =>
    have hsame := (indistinct_of_mapInfo scope (mapInfo_withoutInfo h.2.1)).primitive fuel
    simp only [Ty.withoutInfo, Ty.info, hsame]
    cases left.primitive scope fuel with
    | error e => rfl
    | ok p =>
      simp only [ok_bind]
      by_cases hnil : p = .nil
      · rw [if_pos hnil, if_pos hnil]
        exact ihr h.2.2
      · rw [if_neg hnil, if_neg hnil]
        rfl
  | lax inner ih =>
    have hplain := plain_of_lax h
    simp only [Ty.withoutInfo, hplain.withoutInfo.strip_eq, Ty.info]
    exact ih h.2
  | constrained _ _ _ ih | converted _ _ ih | defaulted _ _ ih | enum _ _ ih | safe _ ih
  | maybe _ ih => exact ih h.2

theorem Shows.unique {a b : Metadata} (ha : ty.Shows scope a) (hb : ty.Shows scope b) : a = b :=
  outcome_unique info_mono ha hb

theorem exists_merges_iff (h : ty.Regular) : (∃ t, ty.Merges scope m t) ↔ ty.Described scope := by
  constructor
  · rintro ⟨t, fuel, ht⟩
    obtain ⟨info, hinfo, -⟩ := (info_mergeInfo h).exists_right ht
    exact ⟨fuel, info, hinfo⟩
  · rintro ⟨fuel, info, hinfo⟩
    obtain ⟨t, ht, -⟩ := (info_mergeInfo h).exists_left hinfo
    exact ⟨t, fuel, ht⟩

theorem Merges.shows (h : ty.Regular) (ht : ty.Merges scope m t) :
    ∃ before, ty.Shows scope before ∧ t.Shows scope (before.merge m) := by
  obtain ⟨fuel, ht⟩ := ht
  obtain ⟨before, hbefore, hmerged⟩ := (info_mergeInfo h).exists_right ht
  exact ⟨before, ⟨fuel, hbefore⟩, fuel, hmerged⟩

theorem Merges.merges_iff (h : ty.Regular) (ht : ty.Merges scope m t) :
    t.Merges scope other u ↔ ty.Merges scope (m.merge other) u := by
  obtain ⟨fuel, ht⟩ := ht
  have hboth : ∀ more, t.mergeInfo scope (max fuel more) other =
      ty.mergeInfo scope (max fuel more) (m.merge other) := by
    intro more
    have ht := mergeInfo_mono (Nat.le_max_left fuel more) ht
    rw [← mergeInfo_twice h, ht, ok_bind]
  constructor
  · rintro ⟨more, hu⟩
    refine ⟨max fuel more, ?_⟩
    rw [← hboth]
    exact mergeInfo_mono (Nat.le_max_right fuel more) hu
  · rintro ⟨more, hu⟩
    refine ⟨max fuel more, ?_⟩
    rw [hboth]
    exact mergeInfo_mono (Nat.le_max_right fuel more) hu

theorem Constructed.annotates (h : ty.Constructed) (scope : Scope) : ty.Annotates scope := by
  have h := h.regular
  constructor
  · intro m
    exact exists_merges_iff h
  · intro m t ht
    obtain ⟨fuel, ht⟩ := ht
    exact indistinct_of_mapInfo scope (mapInfo_mergeInfo h ht)
  · intro m t ht info
    obtain ⟨before, hbefore, hmerged⟩ := ht.shows h
    constructor
    · intro hinfo
      exact ⟨before, hbefore, hinfo.unique hmerged⟩
    · rintro ⟨other, hother, rfl⟩
      rwa [hother.unique hbefore]
  · exact Metadata.get?_merge
  · intro m t ht other u
    exact ht.merges_iff h
  · exact indistinct_of_mapInfo scope (mapInfo_withoutInfo h)
  · intro info
    simp only [Shows, Described, info_withoutInfo h, map_eq_ok]
    constructor
    · rintro ⟨fuel, before, hbefore, rfl⟩
      exact ⟨⟨fuel, before, hbefore⟩, rfl⟩
    · rintro ⟨⟨fuel, before, hbefore⟩, rfl⟩
      exact ⟨fuel, before, hbefore, rfl⟩

end

/-- A lax type around the list type of an optional sum, which has the metadata. -/
def laxList : Ty :=
  lax (sum (nominal .nil {}) (array (nominal .int {}) {}) {})

theorem annotates_laxList : laxList.Constructed ∧ laxList.Annotates chainScope ∧
    ∃ t, laxList.Merges chainScope (.ofList [("doc", .string "x")]) t ∧
      t.Shows chainScope (.ofList [("doc", .string "x")]) := by
  have hlist : (array (nominal .int {}) {}).Constructed := .array (.nominal .int {}) {}
  have hlax : laxList.Constructed := .lax (.sum (.nominal .nil {}) hlist {})
  have hannotates := hlax.annotates chainScope
  have ht : ∃ t, laxList.Merges chainScope (.ofList [("doc", .string "x")]) t :=
    (hannotates.ends _).mpr ⟨1, {}, rfl⟩
  obtain ⟨t, ht⟩ := ht
  have hshown := (hannotates.shown _ _ ht _).mpr ⟨{}, ⟨1, rfl⟩, rfl⟩
  exact ⟨hlax, hannotates, t, ht, hshown⟩

/-- What is on the left of a sum may be itself, so that nothing is ever added to the sum. -/
theorem endless_maybeSum :
    (sum (reference ⟨0, "a", {}⟩) (nominal .any {}) {}).Constructed ∧
    ¬∃ t, (sum (reference ⟨0, "a", {}⟩) (nominal .any {}) {}).Merges maybeWorld.scope
      (.ofList [("doc", .string "x")]) t := by
  refine ⟨.sum (.reference _) (.nominal .any {}) {}, ?_⟩
  rintro ⟨t, fuel, ht⟩
  obtain ⟨p, hp, -⟩ := bind_eq_ok.mp ht
  exact primitive_maybeWorld fuel p hp

end Ty

end Conform
