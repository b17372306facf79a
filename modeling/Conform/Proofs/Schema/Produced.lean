import Conform.Proofs.Ast.Compiled
import Conform.Proofs.Schema.Merging
import Conform.Proofs.Ty.Builders

/-!
The ways to come by a schema. The builders reach the schema inside all layers of a type, and all of
them see to it that the names of its keys differ; so merging keys is an update with its usual laws.
-/

namespace Conform

namespace Ty

/-- The schema inside all layers. -/
def core? : Ty → Option (Schema Ty Func)
  | schema s => some s
  | constrained inner _ _ | converted inner _ | defaulted inner _ | enum inner _
  | safe inner | lax inner | maybe inner => inner.core?
  | _ => none

/-- What the schema inside all layers has, if there is one. -/
def CoreHas (Q : Schema Ty Func → Prop) (ty : Ty) : Prop :=
  ∀ s, ty.core? = some s → Q s

/-- One of the types that a type consists of is a schema. -/
def Contains (ty : Ty) (s : Schema Ty Func) : Prop :=
  ∀ P : Ty → Prop, ty.Everywhere P → P (schema s)

/-- The builders that declare keys, or change the schema they are declared in. -/
inductive Declares (ty t : Ty) : Prop
  | declare {keys : List (Key Ty)} (h : ty.declare keys = .ok t)
  | declareStrict {keys : List (Key Ty)} (h : ty.declareStrict keys = .ok t)
  | declareComplete {keys : List (Key Ty)} (h : ty.declareComplete keys = .ok t)
  | declareWeak {keys : List (Key Ty)} (h : ty.declareWeak keys = .ok t)
  | declareSymbols {keys : List (Key Ty)} (h : ty.declareSymbols keys = .ok t)
  | refuseUnknown (h : ty.refuseUnknown = .ok t)
  | withTransform {transform : KeyTransform Func} (h : ty.withTransform transform = .ok t)

end Ty

/-- How schemas come about: from keys, from other schemas, inside the types that the builders make,
and where written types are compiled. -/
inductive Schema.Produced : Schema Ty Func → Prop
  | ofKeys (keys : List (Key Ty)) : Produced (.ofKeys keys)
  | merge {s : Schema Ty Func} (h : Produced s) (keys : List (Key Ty)) : Produced (s.merge keys)
  | withStrict {s : Schema Ty Func} (h : Produced s) (strict : Bool) : Produced { s with strict }
  | withAlwaysDefaults {s : Schema Ty Func} (h : Produced s) (alwaysDefaults : Bool) :
    Produced { s with alwaysDefaults }
  | withTransform {s : Schema Ty Func} (h : Produced s) (transform : KeyTransform Func) :
    Produced { s with transform }
  | withInfo {s : Schema Ty Func} (h : Produced s) (info : Metadata) : Produced { s with info }
  | mapTypes {s : Schema Ty Func} (h : Produced s) (f : Ty → Ty) : Produced (s.mapTypes f)
  | declared {ty t : Ty} {s : Schema Ty Func} (h : ∀ u, ty.core? = some u → Produced u)
    (ht : ty.Declares t) (hs : t.core? = some s) : Produced s
  | compiled {table : FuncTable} {r : Registry} {a : Ast} {t : Ty} {s : Schema Ty Func}
    (ht : a.compile table r = .ok t) (hs : t.Contains s) : Produced s

namespace Ty

section

variable {Q : Schema Ty Func → Prop} {ty t : Ty}

theorem coreHas_schema_iff {s : Schema Ty Func} : (schema s).CoreHas Q ↔ Q s :=
  ⟨fun h => h s rfl, fun h _ hu => Option.some.inj hu ▸ h⟩

theorem CoreHas.strip (hQ : ∀ s : Schema Ty Func, Q s → Q (s.mapTypes Ty.strip))
    (h : ty.CoreHas Q) : ty.strip.CoreHas Q := by
  induction ty with
  | constrained _ _ _ ih | converted _ _ ih | defaulted _ _ ih | enum _ _ ih | safe _ ih
  | maybe _ ih => exact ih h
  | lax inner => exact h
  | schema s =>
    rw [Ty.strip, stripKeys_eq_map]
    exact coreHas_schema_iff.mpr (hQ s (coreHas_schema_iff.mp h))
  | nominal | sum | array | map | reference =>
    intro s hs
    cases hs

/-- What is done inside of all layers is done to the schema there. -/
theorem CoreHas.atCore {expected : String} {change : Ty → Option Ty}
    (hQ : ∀ s : Schema Ty Func, Q s → Q (s.mapTypes Ty.strip))
    (hchange : ∀ {ty t : Ty}, ty.CoreHas Q → change ty = some t → t.CoreHas Q)
    (h : ty.CoreHas Q) (ht : ty.atCore expected change = .ok t) : t.CoreHas Q := by
  induction ty generalizing t with
  | constrained inner _ _ ih | converted inner _ ih | defaulted inner _ ih | enum inner _ ih
  | safe inner ih | maybe inner ih =>
    obtain ⟨u, hu, rfl⟩ := map_eq_ok.mp ht
    have hcore : u.CoreHas Q := ih h hu
    exact hcore
  | lax inner ih =>
    obtain ⟨u, hu, rfl⟩ := map_eq_ok.mp ht
    exact (ih h hu).strip hQ
  | _ =>
    simp only [Ty.atCore] at ht
    split at ht
    next u hu => exact Except.ok.inj ht ▸ hchange h hu
    next => cases ht

theorem CoreHas.withSchema {build : Option (Schema Ty Func) → Schema Ty Func}
    (hQ : ∀ s : Schema Ty Func, Q s → Q (s.mapTypes Ty.strip))
    (hnone : ∀ info, Q { build none with info }) (hsome : ∀ s, Q s → Q (build (some s)))
    (h : ty.CoreHas Q) (ht : ty.withSchema build = .ok t) : t.CoreHas Q := by
  refine CoreHas.atCore hQ (fun hcore hu => ?_) h ht
  split at hu
  next info => exact Option.some.inj hu ▸ coreHas_schema_iff.mpr (hnone info)
  next s => exact Option.some.inj hu ▸ coreHas_schema_iff.mpr (hsome s (hcore s rfl))
  next => cases hu

theorem CoreHas.onSchema {change : Schema Ty Func → Schema Ty Func}
    (hQ : ∀ s : Schema Ty Func, Q s → Q (s.mapTypes Ty.strip))
    (hchange : ∀ s, Q s → Q (change s)) (h : ty.CoreHas Q) (ht : ty.onSchema change = .ok t) :
    t.CoreHas Q := by
  refine CoreHas.atCore hQ (fun hcore hu => ?_) h ht
  split at hu
  next s => exact Option.some.inj hu ▸ coreHas_schema_iff.mpr (hchange s (hcore s rfl))
  next => cases hu

end

/-- The keys of the schema inside all layers have different names. -/
abbrev CoreDiffers : Ty → Prop :=
  CoreHas fun s => Schema.NamesDiffer s.keys

section

variable {ty t : Ty} {keys : List (Key Ty)}

theorem namesDiffer_mapTypes {s : Schema Ty Func} (f : Ty → Ty) (h : Schema.NamesDiffer s.keys) :
    Schema.NamesDiffer (s.mapTypes f).keys :=
  (Schema.namesDiffer_map f).mpr h

theorem CoreDiffers.declare (h : ty.CoreDiffers) (ht : ty.declare keys = .ok t) : t.CoreDiffers :=
  CoreHas.withSchema (fun _ => namesDiffer_mapTypes _) (fun _ => Schema.namesDiffer_ofKeys keys)
    (fun _ hs => Schema.namesDiffer_merge hs keys) h ht

theorem CoreDiffers.declareComplete (h : ty.CoreDiffers) (ht : ty.declareComplete keys = .ok t) :
    t.CoreDiffers :=
  CoreHas.withSchema (fun _ => namesDiffer_mapTypes _)
    (fun _ => Schema.namesDiffer_merge (Schema.namesDiffer_ofKeys []) keys)
    (fun _ hs => Schema.namesDiffer_merge hs keys) h ht

theorem CoreDiffers.onSchema {change : Schema Ty Func → Schema Ty Func} (h : ty.CoreDiffers)
    (ht : ty.onSchema change = .ok t) (hchange : ∀ s, (change s).keys = s.keys) :
    t.CoreDiffers :=
  CoreHas.onSchema (fun _ => namesDiffer_mapTypes _) (fun s hs => (hchange s).symm ▸ hs) h ht

theorem CoreDiffers.declares (h : ty.CoreDiffers) (ht : ty.Declares t) : t.CoreDiffers := by
  cases ht with
  | declare ht => exact h.declare ht
  | declareStrict ht =>
    obtain ⟨u, hu, ht⟩ := bind_eq_ok.mp ht
    exact (h.declare hu).onSchema ht fun _ => rfl
  | declareComplete ht => exact h.declareComplete ht
  | declareWeak ht => exact h.declare ht
  | declareSymbols ht =>
    obtain ⟨u, hu, ht⟩ := bind_eq_ok.mp ht
    exact CoreDiffers.onSchema (h.declare hu) ht fun _ => rfl
  | refuseUnknown ht => exact h.onSchema ht fun _ => rfl
  | withTransform ht => exact h.onSchema ht fun _ => rfl

end

end Ty

namespace Schema

variable {s : Schema Ty Func}

/-- However a schema comes about, no name stands for two of its keys. -/
theorem Produced.namesDiffer (h : s.Produced) : NamesDiffer s.keys := by
  induction h with
  | ofKeys keys => exact namesDiffer_ofKeys keys
  | merge _ keys ih => exact namesDiffer_merge ih keys
  | withStrict _ _ ih | withAlwaysDefaults _ _ ih | withTransform _ _ ih | withInfo _ _ ih =>
    exact ih
  | mapTypes _ f ih => exact Ty.namesDiffer_mapTypes f ih
  | declared _ ht hs ih => exact Ty.CoreDiffers.declares ih ht _ hs
  | compiled ht hs => exact hs Ty.RegularNode (Ast.regular_compile ht)

/-- Merging keys is a lawful update of any schema there is: what is merged in two steps may be
merged at once, the last key of a name counts, names stay where they came first, and merging the
keys that are there changes nothing. -/
theorem Produced.merge_lawful (h : s.Produced) :
    NamesDiffer s.keys ∧
    (∀ keys more, s.merge (keys ++ more) = (s.merge keys).merge more) ∧
    (∀ keys q, (s.merge keys).key? q = (keys.reverse.find? fun k => k.name == q).or (s.key? q)) ∧
    (∀ keys, s.merge keys =
      { s with keys := (s.keys ++ s.newcomers keys).map (latest keys) }) ∧
    (∀ keys (k : Key Ty), ((latest keys k).name == k.name) = true) ∧
    s.merge s.keys = s := by
  have hdiffer := h.namesDiffer
  refine ⟨hdiffer, merge_append s, key?_merge s, fun keys => ?_, latest_name, merge_self hdiffer⟩
  rw [← keys_merge hdiffer keys]
  rfl

def accountKey (name : String) (p : Primitive) : Key Ty :=
  ⟨.symbol name, .nominal p {}, true⟩

def accountSchema : Schema Ty Func :=
  ofKeys [accountKey "email" .string, accountKey "age" .string]

/-- The age stays in its place, and of the two names the later one is added. -/
theorem merge_lawful_account : accountSchema.Produced ∧
    (accountSchema.merge [accountKey "name" .symbol, accountKey "age" .int,
      accountKey "name" .string]).keys =
      [accountKey "email" .string, accountKey "age" .int, accountKey "name" .string] := by
  have hproduced : accountSchema.Produced := .ofKeys _
  obtain ⟨-, -, -, hmerged, -, -⟩ := hproduced.merge_lawful
  refine ⟨hproduced, ?_⟩
  rw [hmerged]
  rfl

end Schema

end Conform
