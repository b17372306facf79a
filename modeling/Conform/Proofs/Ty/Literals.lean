import Conform.Proofs.Ty.Core
import Conform.Proofs.Ty.Keeping
import Conform.Proofs.Ty.Passing

/-!
Defaults of types that are built call by call. A literal is checked once, when it comes to be the
default of a type. Some calls reach below a default later on, and none of them checks it again; so
it depends on the call whether the literal is still accepted.
-/

namespace Conform.Ty

open Relation

/-- What fills in is a literal that the type accepts. -/
def SoundNode (scope : Scope) : Ty → Prop
  | defaulted inner value => ∃ v, value = .literal v ∧ inner.Accepts scope v true
  | _ => True

/-- All defaults are so, at every depth. -/
abbrev Sound (scope : Scope) (ty : Ty) : Prop :=
  ty.Everywhere (SoundNode scope)

/-- The types of literals keep to them when constraints are removed. -/
def LooseNode (scope : Scope) : Ty → Prop
  | defaulted inner value => ∀ v, value = .literal v → inner.Keeps scope v
  | _ => True

abbrev Loose (scope : Scope) (ty : Ty) : Prop :=
  ty.Everywhere (LooseNode scope)

/-- Another core suits the literals of all defaults around it. In a lax type it loses its
constraints, and so do the types of the literals in it. -/
def Fits (scope : Scope) : Ty → (c : Ty) → Prop
  | defaulted inner value, c =>
    (∀ v, value = .literal v → inner.Suits scope c false [] v) ∧ inner.Fits scope c
  | constrained inner _ _, c | converted inner _, c | enum inner _, c | safe inner, c
  | maybe inner, c => inner.Fits scope c
  | lax inner, c => c.Loose scope ∧ inner.Fits scope c.strip
  | _, _ => True

section

variable {scope : Scope} {fuel : Nat} {ty t c : Ty}

theorem Sound.literalDefaults (h : ty.Sound scope) : ty.LiteralDefaults := by
  induction ty with
  | nominal _ _ | reference _ => trivial
  | sum _ _ _ ihl ihr | map _ _ _ ihl ihr => exact ⟨trivial, ihl h.2.1, ihr h.2.2⟩
  | defaulted inner value ih =>
    obtain ⟨v, hv, -⟩ := h.1
    exact ⟨⟨v, hv⟩, ih h.2⟩
  | schema s ih =>
    have hkeys := keysEverywhere_iff.mp h.2
    exact ⟨trivial, keysEverywhere_iff.mpr fun k hk => ih k hk (hkeys k hk)⟩
  | constrained _ _ _ ih | converted _ _ ih | enum _ _ ih | array _ _ ih | safe _ ih | lax _ ih
  | maybe _ ih => exact ⟨trivial, ih h.2⟩

theorem sound_schema_iff {s : Schema Ty Func} :
    (schema s).Sound scope ↔ ∀ k ∈ s.keys, k.type.Sound scope := by
  rw [Sound, Everywhere, keysEverywhere_iff]
  exact and_iff_right trivial

theorem sound_strict (p : Primitive) : (strict p).Sound scope := by
  simp [strict, Everywhere, SoundNode]

theorem Sound.withDefault {v : Value} (h : ty.Sound scope)
    (ht : ty.withDefault scope fuel v = .ok (.ok t)) : t.Sound scope := by
  obtain ⟨haccepted, rfl⟩ := withDefault_eq_ok ht
  exact ⟨⟨v, rfl, fuel, haccepted⟩, h⟩

theorem sound_restrict {set : PredicateSet} {rule : Rule} (h : ty.Sound scope) :
    (ty.restrict set rule).Sound scope := by
  cases ty with
  | constrained inner own kept => exact h
  | _ => exact ⟨trivial, h⟩

/-- Constraints leave all defaults sound if and only if they let the literals pass that they are put
below. -/
theorem Sound.constrain_iff {options : List (String × Value)} {given : Option PredicateSet}
    (h : ty.Sound scope) (ht : ty.constrain scope fuel options given = .ok (.ok t)) :
    t.Sound scope ↔ ty.Withstands scope given options := by
  induction ty using constrain_induction scope fuel generalizing t with
  | bears ty hbears =>
    rw [hbears.constrain] at ht
    obtain ⟨rule, -, rfl⟩ := map_eq_ok.mp (Except.ok.inj ht)
    exact iff_of_true (sound_restrict h) hbears.withstands
  | halts left right info e herror =>
    rw [constrain_halted herror] at ht
    cases ht
  | optional left right info hnil ih =>
    rw [constrain_optional hnil] at ht
    obtain ⟨u, hu, rfl⟩ := around_eq_ok.mp ht
    have hright := ih h.2.2 hu
    rw [withstands_iff]
    constructor
    · intro hsound
      refine ⟨fun inner v heq => (by cases heq), fun t step => ?_⟩
      cases step with
      | right => exact hright.mp hsound.2.2
    · intro hpasses
      exact ⟨trivial, h.2.1, hright.mpr (hpasses.2 right (.right hnil))⟩
  | default inner value ih =>
    rw [constrain_defaulted] at ht
    obtain ⟨u, hu, rfl⟩ := around_eq_ok.mp ht
    have hinner := ih h.2 hu
    rw [withstands_iff]
    constructor
    · rintro ⟨⟨v, rfl, hv⟩, hsound⟩
      refine ⟨fun inner' w heq => ?_, fun t step => ?_⟩
      · cases heq
        exact (accepts_constrain_iff hu).mp hv
      · cases step with
        | default => exact hinner.mp hsound
    · rintro ⟨hhere, hbelow⟩
      obtain ⟨v, rfl, -⟩ := h.1
      have hpasses := (accepts_constrain_iff hu).mpr (hhere inner v rfl)
      exact ⟨⟨v, rfl, hpasses⟩, hinner.mpr (hbelow inner .default)⟩
  | maybe inner ih =>
    rw [constrain_maybe] at ht
    obtain ⟨u, hu, rfl⟩ := around_eq_ok.mp ht
    have hinner := ih h.2 hu
    rw [withstands_iff]
    constructor
    · intro hsound
      refine ⟨fun inner' w heq => (by cases heq), fun t step => ?_⟩
      cases step with
      | maybe => exact hinner.mp hsound.2
    · intro hpasses
      exact ⟨trivial, hinner.mpr (hpasses.2 inner .maybe)⟩

theorem Sound.enumeration_iff {values : List Value} (h : ty.Sound scope)
    (ht : ty.enumeration scope fuel values = .ok (.ok t)) :
    t.Sound scope ↔ ty.Withstands scope none [("included_in", .array values)] := by
  obtain ⟨u, hu, rfl⟩ := enumeration_eq_ok ht
  exact (and_iff_right trivial).trans (h.constrain_iff hu)

/-- The defaults of a loose type are as good without the constraints. -/
theorem Sound.strip (h : ty.Sound scope) (hloose : ty.Loose scope) : ty.strip.Sound scope := by
  induction ty with
  | defaulted inner value ih =>
    obtain ⟨v, hvalue, hv⟩ := h.1
    have hliteral := Sound.literalDefaults h.2
    obtain ⟨b, hb, htrue⟩ := (hloose.1 v hvalue).accepts_strip hliteral hv
    exact ⟨⟨v, hvalue, htrue rfl ▸ hb⟩, ih h.2 hloose.2⟩
  | schema s ih =>
    have hkeys := keysEverywhere_iff.mp hloose.2
    rw [sound_schema_iff] at h
    rw [Ty.strip, sound_schema_iff]
    simp only [stripKeys_eq_map, List.forall_mem_map]
    exact fun k hk => ih k hk (h k hk) (hkeys k hk)
  | _ => simp_all [Everywhere, SoundNode, Ty.strip]

theorem Sound.toLax (h : ty.Sound scope) (hloose : ty.Loose scope) :
    ty.toLax.Sound scope := by
  unfold Ty.toLax
  split
  next => exact h
  next => exact ⟨trivial, h.strip hloose⟩

theorem Sound.core (h : ty.Sound scope) : ty.core.Sound scope := by
  induction ty with
  | constrained _ _ _ ih | converted _ _ ih | defaulted _ _ ih | enum _ _ ih | safe _ ih
  | lax _ ih | maybe _ ih => exact ih h.2
  | _ => exact h

/-- The defaults around a core are sound around another one that fits. -/
theorem Sound.withCore (h : ty.Sound scope) (hr : ty.Regular) (hsound : c.Sound scope)
    (hc : c.Collects) (hfits : ty.Fits scope c) : (ty.withCore c).Sound scope := by
  induction ty generalizing c with
  | defaulted inner value ih =>
    obtain ⟨v, hvalue, hv⟩ := h.1
    have hkept := (hfits.1 v hvalue).accepts hc hr.2 hv
    exact ⟨⟨v, hvalue, hkept⟩, ih h.2 hr.2 hsound hc hfits.2⟩
  | lax inner ih =>
    rw [withCore_lax hr]
    exact ⟨trivial, ih h.2 hr.2 (hsound.strip hfits.1) hc.strip hfits.2⟩
  | constrained inner _ _ ih | converted inner _ ih | enum inner _ ih | safe inner ih
  | maybe inner ih => exact ⟨trivial, ih h.2 hr.2 hsound hc hfits⟩
  | _ => exact hsound

/-- What is done inside of all layers is done below defaults, too. -/
theorem Sound.atCore {expected : String} {change : Ty → Option Ty}
    (hchange : ∀ {ty t : Ty}, ty.Sound scope → change ty = some t → t.Sound scope ∧ t.Collects)
    (h : ty.Sound scope) (hr : ty.Regular) (ht : ty.atCore expected change = .ok t)
    (hfits : ∀ c, ty.core.atCore expected change = .ok c → ty.Fits scope c) : t.Sound scope := by
  obtain ⟨c, hcore, hc, rfl⟩ := atCore_eq_ok ht
  obtain ⟨hsound, hcollects⟩ := hchange h.core hc
  exact h.withCore hr hsound hcollects (hfits c hcore)

theorem Sound.ofMember {member : Ty} (h : ty.Sound scope) (hr : ty.Regular)
    (hm : member.Sound scope) (ht : ty.ofMember member = .ok t)
    (hfits : ∀ c, ty.core.ofMember member = .ok c → ty.Fits scope c) : t.Sound scope := by
  refine h.atCore (fun _ hu => ?_) hr ht hfits
  split at hu
  next => exact Option.some.inj hu ▸ ⟨⟨trivial, hm⟩, trivial⟩
  next => exact Option.some.inj hu ▸ ⟨⟨trivial, hm⟩, trivial⟩
  next => cases hu

theorem Sound.ofMap {key value : Ty} (h : ty.Sound scope) (hr : ty.Regular)
    (hk : key.Sound scope) (hv : value.Sound scope) (ht : ty.ofMap key value = .ok t)
    (hfits : ∀ c, ty.core.ofMap key value = .ok c → ty.Fits scope c) : t.Sound scope := by
  refine h.atCore (fun _ hu => ?_) hr ht hfits
  split at hu
  next => exact Option.some.inj hu ▸ ⟨⟨trivial, hk, hv⟩, trivial⟩
  next => exact Option.some.inj hu ▸ ⟨⟨trivial, hk, hv⟩, trivial⟩
  next => cases hu

theorem sound_merge {s : Schema Ty Func} {keys : List (Key Ty)} (hs : (schema s).Sound scope)
    (hk : ∀ k ∈ keys, k.type.Sound scope) : (schema (s.merge keys)).Sound scope := by
  rw [sound_schema_iff] at hs ⊢
  intro k hmem
  rcases Schema.mem_foldl_putKey hmem with hmem | hmem
  · exact hs k hmem
  · exact hk k hmem

theorem Sound.declare {keys : List (Key Ty)} (h : ty.Sound scope) (hr : ty.Regular)
    (hk : ∀ k ∈ keys, k.type.Sound scope) (ht : ty.declare keys = .ok t)
    (hfits : ∀ c, ty.core.declare keys = .ok c → ty.Fits scope c) : t.Sound scope := by
  refine h.atCore (fun hs hu => ?_) hr ht hfits
  split at hu
  next =>
    have hnone : (schema (.ofKeys keys)).Sound scope :=
      sound_merge (sound_schema_iff.mpr (by simp)) hk
    exact Option.some.inj hu ▸ ⟨hnone, trivial⟩
  next => exact Option.some.inj hu ▸ ⟨sound_merge hs hk, trivial⟩
  next => cases hu

theorem sound_mapInfo (f : Metadata → Metadata) : (ty.mapInfo f).Sound scope ↔ ty.Sound scope := by
  induction ty with
  | defaulted inner value ih =>
    have hnode : SoundNode scope (defaulted (inner.mapInfo f) value) ↔
        SoundNode scope (defaulted inner value) := by
      simp only [SoundNode, Accepts, accepts_mapInfo]
    exact and_congr hnode ih
  | schema s ih =>
    simp only [mapInfo_schema, sound_schema_iff, Schema.mapTypes, List.forall_mem_map]
    exact forall₂_congr ih
  | _ => simp_all [mapInfo, Everywhere, SoundNode]

theorem Sound.mergeInfo {other : Metadata} (h : ty.Sound scope) (hregular : ty.Regular)
    (ht : ty.mergeInfo scope fuel other = .ok t) : t.Sound scope := by
  have hsame := mapInfo_mergeInfo hregular ht
  rw [← sound_mapInfo fun _ => {}] at h ⊢
  rwa [hsame]

end

/-- Types that are made by calls of the builders. If the calls are checked, constraints let the
literals pass that they are put below, a new core fits the defaults around it, and constraints are
removed from loose types only. -/
inductive Built (scope : Scope) (checked : Prop) : Ty → Prop
  | nominal (p : Primitive) : Built scope checked (nominal p {})
  | strict (p : Primitive) : Built scope checked (strict p)
  | constrain {ty t : Ty} {fuel : Nat} {options : List (String × Value)}
      {given : Option PredicateSet} (h : Built scope checked ty)
      (ht : ty.constrain scope fuel options given = .ok (.ok t))
      (hpasses : checked → ty.Withstands scope given options) : Built scope checked t
  | convertLast {ty : Ty} (h : Built scope checked ty) (f : Func) :
      Built scope checked (ty.convertLast f)
  | convertFirst {ty : Ty} (h : Built scope checked ty) (f : Func) :
      Built scope checked (ty.convertFirst f)
  | withDefault {ty t : Ty} {fuel : Nat} {v : Value} (h : Built scope checked ty)
      (ht : ty.withDefault scope fuel v = .ok (.ok t)) : Built scope checked t
  | enumeration {ty t : Ty} {fuel : Nat} {values : List Value} (h : Built scope checked ty)
      (ht : ty.enumeration scope fuel values = .ok (.ok t))
      (hpasses : checked → ty.Withstands scope none [("included_in", .array values)]) :
      Built scope checked t
  | optional {ty : Ty} (h : Built scope checked ty) : Built scope checked ty.optional
  | toMaybe {ty : Ty} (h : Built scope checked ty) : Built scope checked ty.toMaybe
  | toSafe {ty : Ty} (h : Built scope checked ty) : Built scope checked ty.toSafe
  | toLax {ty : Ty} (h : Built scope checked ty) (hloose : checked → ty.Loose scope) :
      Built scope checked ty.toLax
  | ofMember {ty member t : Ty} (h : Built scope checked ty) (hm : Built scope checked member)
      (ht : ty.ofMember member = .ok t)
      (hfits : checked → ∀ c, ty.core.ofMember member = .ok c → ty.Fits scope c) :
      Built scope checked t
  | ofMap {ty key value t : Ty} (h : Built scope checked ty) (hk : Built scope checked key)
      (hv : Built scope checked value) (ht : ty.ofMap key value = .ok t)
      (hfits : checked → ∀ c, ty.core.ofMap key value = .ok c → ty.Fits scope c) :
      Built scope checked t
  | declare {ty t : Ty} {keys : List (Key Ty)} (h : Built scope checked ty)
      (hk : ∀ k ∈ keys, Built scope checked k.type) (ht : ty.declare keys = .ok t)
      (hfits : checked → ∀ c, ty.core.declare keys = .ok c → ty.Fits scope c) :
      Built scope checked t
  | note {ty t : Ty} {fuel : Nat} {name : String} {v : Value} (h : Built scope checked ty)
      (ht : ty.note scope fuel name v = .ok t) : Built scope checked t
  | omittable {ty t : Ty} {fuel : Nat} (h : Built scope checked ty)
      (ht : ty.omittable scope fuel = .ok t) : Built scope checked t
  | strip {ty : Ty} (h : Built scope checked ty) (hloose : checked → ty.Loose scope) :
      Built scope checked ty.strip
  | sum {left right : Ty} (hl : Built scope checked left) (hr : Built scope checked right) :
      Built scope checked (sum left right {})

section

variable {scope : Scope} {checked : Prop} {ty : Ty}

theorem Built.regular (h : Built scope checked ty) : ty.Regular := by
  induction h with
  | nominal p => trivial
  | strict p => exact regular_strict p
  | constrain _ ht _ ih => exact ih.constrain ht
  | convertLast _ f ih => exact ih.convertLast f
  | convertFirst _ f ih => exact ih.convertFirst f
  | withDefault _ ht ih => exact ih.withDefault ht
  | enumeration _ ht _ ih => exact ih.enumeration ht
  | optional _ ih => exact ih.optional
  | toMaybe _ ih => exact ih.toMaybe
  | toSafe _ ih => exact ih.toSafe
  | toLax _ _ ih => exact ih.toLax
  | ofMember _ _ ht _ ih ihm => exact ih.ofMember ihm ht
  | ofMap _ _ _ ht _ ih ihk ihv => exact ih.ofMap ihk ihv ht
  | declare _ _ ht _ ih ihk => exact ih.declare ihk ht
  | note _ ht ih => exact ih.mergeInfo ht
  | omittable _ ht ih => exact ih.mergeInfo ht
  | strip _ _ ih => exact ih.strip
  | sum _ _ ihl ihr => exact ⟨trivial, ihl, ihr⟩

theorem Built.sound (h : Built scope True ty) : ty.Sound scope := by
  induction h with
  | nominal p => trivial
  | strict p => exact sound_strict p
  | constrain _ ht hpasses ih => exact (ih.constrain_iff ht).mpr (hpasses trivial)
  | convertLast _ f ih => exact everywhere_convertLast (fun _ _ => trivial) ih f
  | convertFirst _ f ih => exact everywhere_convertFirst (fun _ _ => trivial) ih f
  | withDefault _ ht ih => exact ih.withDefault ht
  | enumeration _ ht hpasses ih => exact (ih.enumeration_iff ht).mpr (hpasses trivial)
  | optional _ ih => exact ⟨trivial, sound_strict .nil, ih⟩
  | toMaybe _ ih => exact everywhere_toMaybe (fun _ => trivial) ih
  | toSafe _ ih => exact everywhere_toSafe (fun _ => trivial) ih
  | toLax _ hloose ih => exact ih.toLax (hloose trivial)
  | ofMember hb _ ht hfits ih ihm => exact ih.ofMember hb.regular ihm ht (hfits trivial)
  | ofMap hb _ _ ht hfits ih ihk ihv => exact ih.ofMap hb.regular ihk ihv ht (hfits trivial)
  | declare hb _ ht hfits ih ihk => exact ih.declare hb.regular ihk ht (hfits trivial)
  | note hb ht ih => exact ih.mergeInfo hb.regular ht
  | omittable hb ht ih => exact ih.mergeInfo hb.regular ht
  | strip _ hloose ih => exact ih.strip (hloose trivial)
  | sum _ _ ihl ihr => exact ⟨trivial, ihl, ihr⟩

/-- All defaults of a type that is built by checked calls are literals that their types accept. They
are so after constraints have been added, or values listed, if and only if the literals pass. -/
theorem Built.defaults_accepted (h : Built scope True ty) :
    ty.Sound scope ∧
      (∀ fuel options given t, ty.constrain scope fuel options given = .ok (.ok t) →
        (t.Sound scope ↔ ty.Withstands scope given options)) ∧
      ∀ fuel values t, ty.enumeration scope fuel values = .ok (.ok t) →
        (t.Sound scope ↔ ty.Withstands scope none [("included_in", .array values)]) :=
  ⟨h.sound, fun _ _ _ _ ht => h.sound.constrain_iff ht,
    fun _ _ _ ht => h.sound.enumeration_iff ht⟩

end

/-- Ports above a bound, and one that fills in. -/
def port : Ty :=
  defaulted
    (constrained (nominal .int (.ofList [("title", .string "port")]))
      (.and (classRule .int) (.predicate ⟨"gt?", [.int 1023]⟩)) Standard.predicates)
    (.literal (.int 8080))

/-- Lists of ports, and one that fills in. -/
def ports : Ty :=
  defaulted (array port.optional {}) (.literal (.array [.int 8443]))

theorem loose_ports : ports.Loose chainScope := by
  have hnominal : ∀ p info, (nominal p info).DefaultFree chainScope := by
    intro p info
    refine defaultFree_of_closed (P := fun t => ∃ p info, t = nominal p info) ?_ ?_ ⟨p, info, rfl⟩
    · rintro t u ⟨p, info, rfl⟩ step
      cases step
    · rintro inner value ⟨p, info, h⟩
      cases h
  have hfirm : (array port.optional {}).Firm := by
    simp [port, Ty.optional, Ty.strict, Everywhere, FirmNode]
  have hcandid : (array port.optional {}).Candid chainScope := by
    simp [port, Ty.optional, Ty.strict, Everywhere, CandidNode, Ty.strip, hnominal]
  have hkeeps := hfirm.keeps hcandid
  obtain ⟨-, -, -, -, hfirm⟩ := hfirm
  obtain ⟨-, -, -, -, hcandid⟩ := hcandid
  refine ⟨fun v _ => hkeeps v, trivial, trivial, ⟨trivial, trivial⟩, ?_⟩
  exact ⟨fun v _ => Firm.keeps hfirm hcandid v, trivial, trivial⟩

theorem built_port : Built chainScope True port := by
  have hdefault : (strict .int).withDefault chainScope 5 (.int 8080) =
      .ok (.ok (defaulted (strict .int) (.literal (.int 8080)))) := rfl
  have hconstrained : (defaulted (strict .int) (.literal (.int 8080))).constrain chainScope 5
      [("gt", .int 1023)] none = .ok (.ok (defaulted
        (constrained (nominal .int {}) (.and (classRule .int) (.predicate ⟨"gt?", [.int 1023]⟩))
          Standard.predicates) (.literal (.int 8080)))) := rfl
  have hnoted : (defaulted
        (constrained (nominal .int {}) (.and (classRule .int) (.predicate ⟨"gt?", [.int 1023]⟩))
          Standard.predicates) (.literal (.int 8080))).note chainScope 5 "title" (.string "port") =
      .ok port := rfl
  have hwithstands : (defaulted (strict .int) (.literal (.int 8080))).Withstands chainScope none
      [("gt", .int 1023)] := by
    refine withstands_iff.mpr ⟨?_, ?_⟩
    · rintro inner v heq
      cases heq
      refine .borne id (w := .int 8080) ⟨2, rfl⟩ fun o ho => ?_
      obtain rfl := List.mem_singleton.mp ho
      exact ⟨_, rfl, rfl⟩
    · rintro u step
      cases step with
      | default =>
        have hbears : (strict .int).Bears chainScope 5 := trivial
        exact hbears.withstands
  exact .note (.constrain (.withDefault (.strict .int) hdefault) hconstrained
    fun _ => hwithstands) hnoted

theorem built_ports : Built chainScope True ports := by
  have hdefault : (nominal .array {}).withDefault chainScope 5 (.array [.int 8443]) =
      .ok (.ok (defaulted (nominal .array {}) (.literal (.array [.int 8443])))) := rfl
  have hof : (defaulted (nominal .array {}) (.literal (.array [.int 8443]))).ofMember
      port.optional = .ok ports := rfl
  refine .ofMember (.withDefault (.nominal .array) hdefault) (.optional built_port) hof ?_
  intro _ c hc
  obtain rfl := Except.ok.inj hc
  refine ⟨fun v hv => ?_, trivial⟩
  obtain rfl := Fallback.literal.inj hv
  exact ⟨.array [.int 8443], ⟨6, rfl⟩, fun r hr => by cases hr⟩

theorem defaults_accepted_ports :
    Built chainScope True ports.toLax ∧ ports.toLax.Sound chainScope := by
  have hbuilt := built_ports.toLax fun _ => loose_ports
  exact ⟨hbuilt, hbuilt.defaults_accepted.1⟩

/-- Built by any calls at all. -/
abbrev BuiltAnyhow : Ty → Prop :=
  Built chainScope False

/-- A call that gives a built type with a default that is refused, or that is no literal. -/
def Misfits (call : Run (Result Ty)) : Prop :=
  ∃ t, call = .ok (.ok t) ∧ BuiltAnyhow t ∧ ¬t.Sound chainScope

theorem not_sound_of_refused {scope : Scope} {inner : Ty} {v : Value}
    (h : inner.Accepts scope v false) : ¬(defaulted inner (.literal v)).Sound scope := by
  rintro ⟨⟨w, hw, hvalid⟩, -⟩
  obtain rfl := Fallback.literal.inj hw
  cases h.unique hvalid

theorem BuiltAnyhow.withLiteral {ty : Ty} {v : Value} (h : BuiltAnyhow ty)
    (ht : ty.withDefault chainScope 5 v = .ok (.ok (defaulted ty (.literal v)))) :
    BuiltAnyhow (defaulted ty (.literal v)) :=
  .withDefault h ht

theorem builtAnyhow_five : BuiltAnyhow (defaulted (strict .int) (.literal (.int 5))) :=
  BuiltAnyhow.withLiteral (.strict .int) rfl

theorem misfits_constrain :
    Misfits ((defaulted (strict .int) (.literal (.int 5))).constrain chainScope 5
      [("lt", .int 3)] none) := by
  obtain ⟨inner, ht, hrefused⟩ : ∃ inner, (defaulted (strict .int) (.literal (.int 5))).constrain
      chainScope 5 [("lt", .int 3)] none = .ok (.ok (defaulted inner (.literal (.int 5)))) ∧
      inner.Accepts chainScope (.int 5) false := ⟨_, rfl, 5, rfl⟩
  exact ⟨_, ht, .constrain builtAnyhow_five ht False.elim, not_sound_of_refused hrefused⟩

theorem misfits_enumeration :
    Misfits ((defaulted (strict .int) (.literal (.int 5))).enumeration chainScope 5 [.int 7]) := by
  obtain ⟨inner, ht, hrefused⟩ : ∃ inner, (defaulted (strict .int) (.literal (.int 5))).enumeration
      chainScope 5 [.int 7] = .ok (.ok (enum (defaulted inner (.literal (.int 5))) [.int 7])) ∧
      inner.Accepts chainScope (.int 5) false := ⟨_, rfl, 5, rfl⟩
  exact ⟨_, ht, .enumeration builtAnyhow_five ht False.elim,
    fun h => not_sound_of_refused hrefused h.2⟩

theorem misfits_ofMember :
    Misfits (.ok ((defaulted (nominal .array {}) (.literal (.array [.string "a"]))).ofMember
      (strict .int))) := by
  have hbuilt := BuiltAnyhow.withLiteral (v := .array [.string "a"]) (.nominal .array) rfl
  exact ⟨_, rfl, .ofMember hbuilt (.strict .int) rfl False.elim, not_sound_of_refused ⟨5, rfl⟩⟩

theorem misfits_ofMap :
    Misfits (.ok ((defaulted (nominal .hash {})
      (.literal (.hash [(.string "a", .int 1)]))).ofMap (strict .int) (strict .int))) := by
  have hbuilt := BuiltAnyhow.withLiteral (v := .hash [(.string "a", .int 1)]) (.nominal .hash) rfl
  have hrefused : accepts chainScope 5 (map (strict .int) (strict .int) {})
      (.hash [(.string "a", .int 1)]) = .ok false := by
    unfold accepts attempt
    simp only [Entries.sorted, List.mergeSort_singleton]
    rfl
  exact ⟨_, rfl, .ofMap hbuilt (.strict .int) (.strict .int) rfl False.elim,
    not_sound_of_refused ⟨5, hrefused⟩⟩

theorem misfits_declare :
    Misfits (.ok ((defaulted (nominal .hash {}) (.literal (.hash []))).declare
      [⟨.string "a", strict .int, true⟩])) := by
  have hbuilt := BuiltAnyhow.withLiteral (v := .hash []) (.nominal .hash) rfl
  have hkeys : ∀ k ∈ [(⟨.string "a", strict .int, true⟩ : Key Ty)], BuiltAnyhow k.type := by
    intro k hk
    obtain rfl := List.mem_singleton.mp hk
    exact .strict .int
  have hrefused : accepts chainScope 1 (schema (.ofKeys [⟨.string "a", strict .int, true⟩]))
      (.hash []) = .ok false := by
    simp only [accepts, attempt, Schema.attempt, Schema.present, Entries.sorted,
      List.mergeSort_nil]
    rfl
  exact ⟨_, rfl, .declare hbuilt hkeys rfl False.elim, not_sound_of_refused ⟨1, hrefused⟩⟩

/-- Strings with a default that is the index of one. -/
def firstLetter : Ty :=
  defaulted
    (enum (constrained (nominal .string {}) (.and (classRule .string)
      (.predicate ⟨"included_in?", [.array [.string "a"]]⟩)) Standard.predicates) [.string "a"])
    (.literal (.int 0))

theorem builtAnyhow_firstLetter : BuiltAnyhow firstLetter := by
  have henum : (strict .string).enumeration chainScope 5 [.string "a"] =
      .ok (.ok (enum (constrained (nominal .string {}) (.and (classRule .string)
        (.predicate ⟨"included_in?", [.array [.string "a"]]⟩)) Standard.predicates)
          [.string "a"])) := rfl
  exact BuiltAnyhow.withLiteral (.enumeration (.strict .string) henum False.elim) rfl

/-- Calls after the one that checks a literal may leave it the default of a type that refuses it. -/
theorem builtAnyhow_misfits :
    Misfits ((defaulted (strict .int) (.literal (.int 5))).constrain chainScope 5
      [("lt", .int 3)] none) ∧
    Misfits ((defaulted (strict .int) (.literal (.int 5))).enumeration chainScope 5 [.int 7]) ∧
    Misfits (.ok ((defaulted (nominal .array {}) (.literal (.array [.string "a"]))).ofMember
      (strict .int))) ∧
    Misfits (.ok ((defaulted (nominal .hash {})
      (.literal (.hash [(.string "a", .int 1)]))).ofMap (strict .int) (strict .int))) ∧
    Misfits (.ok ((defaulted (nominal .hash {}) (.literal (.hash []))).declare
      [⟨.string "a", strict .int, true⟩])) ∧
    Misfits (.ok (.ok firstLetter.strip)) ∧ Misfits (.ok (.ok firstLetter.toLax)) := by
  have hstripped : ¬firstLetter.strip.Sound chainScope := not_sound_of_refused ⟨1, rfl⟩
  exact ⟨misfits_constrain, misfits_enumeration, misfits_ofMember, misfits_ofMap, misfits_declare,
    ⟨_, rfl, builtAnyhow_firstLetter.strip False.elim, hstripped⟩,
    ⟨_, rfl, builtAnyhow_firstLetter.toLax False.elim, fun h => hstripped h.2⟩⟩

end Conform.Ty
