import Conform.Proofs.Equality
import Conform.Proofs.Ty.Induction
import Conform.Ty.Evaluate

namespace Conform

mutual

/-- A type with its metadata changed, at every depth. -/
def Ty.mapInfo (f : Metadata → Metadata) : Ty → Ty
  | .nominal p info => .nominal p (f info)
  | .constrained inner rule set => .constrained (inner.mapInfo f) rule set
  | .converted inner functions => .converted (inner.mapInfo f) functions
  | .sum left right info => .sum (left.mapInfo f) (right.mapInfo f) (f info)
  | .defaulted inner value => .defaulted (inner.mapInfo f) value
  | .enum inner values => .enum (inner.mapInfo f) values
  | .array member info => .array (member.mapInfo f) (f info)
  | .map key value info => .map (key.mapInfo f) (value.mapInfo f) (f info)
  | .schema s => .schema { s with keys := mapInfoKeys f s.keys, info := f s.info }
  | .safe inner => .safe (inner.mapInfo f)
  | .lax inner => .lax (inner.mapInfo f)
  | .maybe inner => .maybe (inner.mapInfo f)
  | .reference r => .reference { r with info := f r.info }

def mapInfoKeys (f : Metadata → Metadata) : List (Key Ty) → List (Key Ty)
  | [] => []
  | k :: ks => { k with type := k.type.mapInfo f } :: mapInfoKeys f ks

end

theorem mapInfoKeys_eq_map (f : Metadata → Metadata) (keys : List (Key Ty)) :
    mapInfoKeys f keys = keys.map fun k => { k with type := k.type.mapInfo f } := by
  induction keys with
  | nil => rfl
  | cons k ks ih => rw [mapInfoKeys, ih, List.map_cons]

namespace Schema

section

variable {s : Schema Ty Func} {g : Ty → Ty} {options : ApplyOptions}

theorem supply_mapTypes {k : Key Ty} (h : (g k.type).isDefault = k.type.isDefault)
    (present : Entries) :
    (s.mapTypes g).supply options present { k with type := g k.type } =
      s.supply options present k := by
  simp only [supply, mapTypes, h]

theorem key?_mapTypes (q : Value) : ((s.mapTypes g).key? q).isNone = (s.key? q).isNone := by
  simp only [key?, mapTypes, List.find?_map, Option.isNone_map]
  rfl

theorem unknown_mapTypes (order : Iteration) (present : Entries) :
    (s.mapTypes g).unknown order present = s.unknown order present := by
  simp only [unknown, key?_mapTypes]

theorem attemptKeys_map {attempt : Ty → Value → Run Outcome} {supply supply' : Key Ty → Supply}
    {keys : List (Key Ty)} (hcall : ∀ k ∈ keys, attempt (g k.type) = attempt k.type)
    (hsupply : ∀ k ∈ keys, supply' { k with type := g k.type } = supply k) :
    attemptKeys attempt supply' (keys.map fun k => { k with type := g k.type }) =
      attemptKeys attempt supply keys := by
  induction keys with
  | nil => rfl
  | cons k ks ih =>
    obtain ⟨hk, hks⟩ := List.forall_mem_cons.mp hcall
    obtain ⟨hsk, hsks⟩ := List.forall_mem_cons.mp hsupply
    simp only [List.map_cons, attemptKeys, hsk, hk, ih hks hsks]

theorem coerceKeys_map {call : Ty → Value → Run (Result Value)} {supply supply' : Key Ty → Supply}
    {keys : List (Key Ty)} (hcall : ∀ k ∈ keys, call (g k.type) = call k.type)
    (hsupply : ∀ k ∈ keys, supply' { k with type := g k.type } = supply k) (output : Entries) :
    coerceKeys call supply' (keys.map fun k => { k with type := g k.type }) output =
      coerceKeys call supply keys output := by
  induction keys generalizing output with
  | nil => rfl
  | cons k ks ih =>
    obtain ⟨hk, hks⟩ := List.forall_mem_cons.mp hcall
    obtain ⟨hsk, hsks⟩ := List.forall_mem_cons.mp hsupply
    simp only [List.map_cons, coerceKeys, hsk, hk, ih hks hsks]

/-- Types that answer alike may be exchanged in a schema. -/
theorem attempt_mapTypes {order : Iteration} {attempt : Ty → Value → Run Outcome}
    (hcall : ∀ k ∈ s.keys, attempt (g k.type) = attempt k.type)
    (hdefault : ∀ k ∈ s.keys, (g k.type).isDefault = k.type.isDefault) (input : Value) :
    (s.mapTypes g).attempt order attempt options input = s.attempt order attempt options input := by
  have hkeys : ∀ present, attemptKeys attempt ((s.mapTypes g).supply options present)
      (s.mapTypes g).keys = attemptKeys attempt (s.supply options present) s.keys :=
    fun present => attemptKeys_map hcall fun k hk => supply_mapTypes (hdefault k hk) present
  simp only [Schema.attempt, hkeys, unknown_mapTypes]
  rfl

theorem coerce_mapTypes {order : Iteration} {call : Ty → Value → Run (Result Value)}
    (hcall : ∀ k ∈ s.keys, call (g k.type) = call k.type)
    (hdefault : ∀ k ∈ s.keys, (g k.type).isDefault = k.type.isDefault) (input : Value) :
    (s.mapTypes g).coerce order call options input = s.coerce order call options input := by
  have hkeys : ∀ present output, coerceKeys call ((s.mapTypes g).supply options present)
      (s.mapTypes g).keys output = coerceKeys call (s.supply options present) s.keys output :=
    fun present => coerceKeys_map hcall fun k hk => supply_mapTypes (hdefault k hk) present
  simp only [Schema.coerce, hkeys, unknown_mapTypes]
  rfl

end

end Schema

namespace Reference

/-- The entry that a reference names. -/
def entry (r : Reference) : Nat × String :=
  (r.registry, r.identifier)

theorem any_same_congr {chain chain' : List Reference} (h : chain.map entry = chain'.map entry)
    (next : Reference) : chain.any (·.same next) = chain'.any (·.same next) := by
  have hany : ∀ chain : List Reference, chain.any (·.same next) =
      (chain.map entry).any fun e => e.2 = next.identifier && e.1 = next.registry := by
    intro chain
    rw [List.any_map]
    rfl
  rw [hany, hany, h]

theorem cycle_congr {chain chain' : List Reference} (h : chain.map entry = chain'.map entry)
    (next : Reference) : cycle chain next = cycle chain' next := by
  have hids : ∀ chain : List Reference,
      chain.map Reference.identifier = (chain.map entry).map Prod.snd := by
    intro chain
    rw [List.map_map]
    rfl
  simp only [cycle, List.map_append, hids, h]

theorem follow_congr {scope : Scope} {fuel : Nat} {chain chain' : List Reference}
    (h : chain.map entry = chain'.map entry) (ty : Ty) :
    follow scope fuel chain ty = follow scope fuel chain' ty := by
  induction fuel generalizing chain chain' ty with
  | zero => cases ty <;> rfl
  | succ fuel ih =>
    cases ty with
    | reference next =>
      have hnext : (chain ++ [next]).map entry = (chain' ++ [next]).map entry := by
        rw [List.map_append, List.map_append, h]
      simp only [follow, any_same_congr h, cycle_congr h, ih hnext]
    | _ => rfl

theorem resolve_withInfo (scope : Scope) (fuel : Nat) (r : Reference) (info : Metadata) :
    resolve scope fuel { r with info } = resolve scope fuel r := by
  unfold resolve
  cases fuel with
  | zero => rfl
  | succ fuel =>
    have hchain : [{ r with info }].map entry = [r].map entry := rfl
    simp only [follow, List.any_nil, List.nil_append, follow_congr hchain, Bool.false_eq_true,
      ↓reduceIte]

end Reference

namespace Ty

attribute [local simp] mapInfo

variable {f : Metadata → Metadata}

theorem mapInfo_schema (s : Schema Ty Func) :
    (schema s).mapInfo f = schema { s.mapTypes (mapInfo f) with info := f s.info } := by
  rw [mapInfo, mapInfoKeys_eq_map]
  rfl

theorem mapInfo_eq_self (hf : ∀ info, f info = info) (ty : Ty) : ty.mapInfo f = ty := by
  induction ty with
  | schema s ih =>
    have hkeys : (s.keys.map fun k => { k with type := k.type.mapInfo f }) = s.keys.map id :=
      List.map_congr_left fun k hk => by rw [ih k hk, id]
    rw [mapInfo_schema, Schema.mapTypes, hkeys, List.map_id, hf]
  | _ => simp_all

theorem strip_mapInfo (ty : Ty) : (ty.mapInfo f).strip = ty.strip.mapInfo f := by
  induction ty with
  | schema s ih =>
    simp only [mapInfo, strip, mapInfoKeys_eq_map, stripKeys_eq_map, List.map_map,
      Function.comp_def]
    congr 2
    exact List.map_congr_left fun k hk => by rw [ih k hk]
  | _ => simp_all [strip]

@[simp]
theorem isDefault_mapInfo (ty : Ty) : (ty.mapInfo f).isDefault = ty.isDefault := by
  induction ty with
  | schema s _ => rfl
  | _ => simp_all [isDefault]

theorem keysBeq_mapInfoKeys {keys : List (Key Ty)}
    (h : ∀ k ∈ keys, (k.type.mapInfo f).beq k.type = true) :
    keysBeq (mapInfoKeys f keys) keys = true := by
  induction keys with
  | nil => rfl
  | cons k ks ih =>
    obtain ⟨hk, hks⟩ := List.forall_mem_cons.mp h
    simp [mapInfoKeys, keysBeq, hk, ih hks]

/-- Types that differ in metadata only are equal. -/
theorem beq_mapInfo (ty : Ty) : (ty.mapInfo f).beq ty = true := by
  induction ty with
  | schema s ih => simp [beq, keysBeq_mapInfoKeys ih]
  | enum inner values ih => simp [beq, ih, Value.beqItems_refl]
  | _ => simp_all [beq]

/-- The metadata that a type has itself. -/
def notes : Ty → Metadata
  | nominal _ info | sum _ _ info | array _ info | map _ _ info => info
  | schema s => s.info
  | reference r => r.info
  | _ => {}

theorem everywhere_notes_mapInfo {P : Metadata → Prop} (hf : ∀ info, P (f info)) (hnil : P {})
    (ty : Ty) : (ty.mapInfo f).Everywhere fun t => P t.notes := by
  induction ty with
  | schema s ih =>
    simp only [mapInfo, Everywhere, notes, mapInfoKeys_eq_map, keysEverywhere_iff,
      List.forall_mem_map]
    exact ⟨hf s.info, ih⟩
  | _ => simp_all [Everywhere, notes]

section

variable (f) (scope : Scope)

/-- Metadata have no part in trials. -/
theorem attempt_mapInfo (fuel : Nat) (ty : Ty) :
    attempt scope fuel (ty.mapInfo f) = attempt scope fuel ty := by
  induction fuel generalizing ty with
  | zero => rfl
  | succ fuel ih =>
    funext input
    cases ty with
    | schema s =>
      rw [mapInfo_schema]
      exact s.attempt_mapTypes (fun k _ => ih k.type) (fun k _ => k.type.isDefault_mapInfo) input
    | reference r => simp only [mapInfo, attempt, r.resolve_withInfo]
    | _ => simp only [mapInfo, attempt, ih]

/-- Nor have they in what values are converted to. -/
theorem coerce_mapInfo (fuel : Nat) (ty : Ty) :
    coerce scope fuel (ty.mapInfo f) = coerce scope fuel ty := by
  induction fuel generalizing ty with
  | zero => rfl
  | succ fuel ih =>
    funext input
    cases ty with
    | schema s =>
      rw [mapInfo_schema]
      exact s.coerce_mapTypes (fun k _ => ih k.type) (fun k _ => k.type.isDefault_mapInfo) input
    | reference r => simp only [mapInfo, coerce, r.resolve_withInfo]
    | _ => simp only [mapInfo, coerce, ih, attempt_mapInfo]

theorem accepts_mapInfo (fuel : Nat) (ty : Ty) :
    accepts scope fuel (ty.mapInfo f) = accepts scope fuel ty := by
  induction fuel generalizing ty with
  | zero => rfl
  | succ fuel ih =>
    funext input
    have htry := attempt_mapInfo f scope (fuel + 1) ty
    cases ty with
    | constrained _ _ _ | array _ _ | map _ _ _ | schema _ =>
      simp only [mapInfo] at htry ⊢
      simp only [accepts, htry]
    | reference r => simp only [mapInfo, accepts, r.resolve_withInfo]
    | _ => simp only [mapInfo, accepts, ih]

end

end Ty

/-- Two types give the same results, at every depth and whatever the registries hold. -/
def Ty.Alike (t u : Ty) : Prop :=
  ∀ (scope : Scope) (fuel : Nat) (input : Value),
    t.coerce scope fuel input = u.coerce scope fuel input ∧
    t.attempt scope fuel input = u.attempt scope fuel input ∧
    t.accepts scope fuel input = u.accepts scope fuel input

end Conform
