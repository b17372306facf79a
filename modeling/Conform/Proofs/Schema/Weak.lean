import Conform.Proofs.Schema.Merging
import Conform.Proofs.Schema.Required
import Conform.Proofs.Ty.Accumulation
import Conform.Proofs.Ty.Cycle

/-!
Schemas of weak keys. Whatever is declared weakly, and in however many steps, what the type of a key
refuses stays as it is, and a call on a hash has no error to end with.
-/

namespace Conform

namespace Ty

section

variable {scope : Scope} {t : Ty} {input : Value} {r : Result Value}

/-- Nothing takes the place of what is given anyway. -/
theorem coerces_iff_of_ok (h : ∀ r, t.Coerces scope input r → ∃ v, r = .ok v) :
    t.Coerces scope input r ↔
      ∃ inner, t.Coerces scope input inner ∧ r = .ok (inner.toOption.getD input) := by
  constructor
  · intro hr
    obtain ⟨v, rfl⟩ := h r hr
    exact ⟨_, hr, rfl⟩
  · rintro ⟨inner, hinner, rfl⟩
    obtain ⟨v, rfl⟩ := h inner hinner
    exact hinner

/-- A type that is made safe gives what it gave before, or its input. -/
theorem coerces_toSafe_iff : t.toSafe.Coerces scope input r ↔
    ∃ inner, t.Coerces scope input inner ∧ r = .ok (inner.toOption.getD input) := by
  unfold toSafe
  split
  next inner =>
    refine coerces_iff_of_ok fun r hr => ?_
    obtain ⟨w, -, rfl⟩ := coerces_safe_iff.mp hr
    exact ⟨_, rfl⟩
  next inner =>
    refine coerces_iff_of_ok fun r hr => ?_
    obtain ⟨w, -, rfl⟩ := coerces_lax_iff.mp hr
    exact ⟨_, rfl⟩
  next => exact coerces_safe_iff

theorem isDefault_toSafe (t : Ty) : t.toSafe.isDefault = t.isDefault := by
  unfold toSafe
  split
  next => rfl
  next => rfl
  next => rfl

theorem coerces_schema_iff {s : Schema Ty Func} :
    (schema s).Coerces scope input r ↔ s.Coerces scope {} input r := by
  constructor
  · rintro ⟨fuel, h⟩
    cases fuel with
    | zero => cases h
    | succ fuel => exact ⟨fuel, h⟩
  · rintro ⟨fuel, h⟩
    exact ⟨fuel + 1, h⟩

end

end Ty

/-- Keys that are declared weakly, for symbols and strings alike or not. -/
structure WeakKeys where
  keys : List (Key Ty)
  symbols : Bool

namespace WeakKeys

def declareOn (declared : WeakKeys) (ty : Ty) : Result Ty :=
  if declared.symbols then ty.declareSymbols declared.keys else ty.declareWeak declared.keys

/-- Declares keys in several steps. -/
def declareAll (steps : List WeakKeys) (ty : Ty) : Result Ty :=
  steps.foldlM (fun ty declared => declared.declareOn ty) ty

end WeakKeys

namespace Schema

/-- The keys of a schema are some declared ones made weak, and nothing else is asked of a hash. -/
structure Weakens (s : Schema Ty Func) (declared : List (Key Ty)) (symbols : Bool) : Prop where
  keys : s.keys = (ofKeys declared : Schema Ty Func).keys.map Ty.weaken
  lenient : s.strict = false
  transform : s.transform = if symbols then .symbolize else .identity

theorem name_weaken (k : Key Ty) : (Ty.weaken k).name = k.name :=
  rfl

theorem weakens_declareOn_nominal (info : Metadata) (step : WeakKeys) :
    ∃ s : Schema Ty Func, step.declareOn (.nominal .hash info) = .ok (.schema s) ∧
      s.Weakens step.keys step.symbols := by
  have hkeys : (ofKeys (step.keys.map Ty.weaken) : Schema Ty Func).keys =
      (ofKeys step.keys : Schema Ty Func).keys.map Ty.weaken :=
    (map_foldl_putKey name_weaken [] step.keys).symm
  unfold WeakKeys.declareOn
  cases step.symbols with
  | true => exact ⟨_, rfl, hkeys, rfl, rfl⟩
  | false => exact ⟨_, rfl, hkeys, rfl, rfl⟩

theorem Weakens.declareOn {s : Schema Ty Func} {declared : List (Key Ty)} {symbols : Bool}
    (h : s.Weakens declared symbols) (step : WeakKeys) :
    ∃ t : Schema Ty Func, step.declareOn (.schema s) = .ok (.schema t) ∧
      t.Weakens (declared ++ step.keys) (symbols || step.symbols) := by
  have hkeys : (s.merge (step.keys.map Ty.weaken)).keys =
      (ofKeys (declared ++ step.keys) : Schema Ty Func).keys.map Ty.weaken := by
    rw [ofKeys, merge_append, merge, h.keys]
    exact (map_foldl_putKey name_weaken _ step.keys).symm
  unfold WeakKeys.declareOn
  cases step.symbols with
  | true => exact ⟨_, rfl, hkeys, h.lenient, by rw [Bool.or_true]; rfl⟩
  | false => exact ⟨_, rfl, hkeys, h.lenient, by rw [Bool.or_false]; exact h.transform⟩

theorem Weakens.declareAll {s : Schema Ty Func} {declared : List (Key Ty)} {symbols : Bool}
    (h : s.Weakens declared symbols) (steps : List WeakKeys) :
    ∃ t : Schema Ty Func, WeakKeys.declareAll steps (.schema s) = .ok (.schema t) ∧
      t.Weakens (declared ++ steps.flatMap WeakKeys.keys)
        (symbols || steps.any WeakKeys.symbols) := by
  induction steps generalizing s declared symbols with
  | nil => exact ⟨s, rfl, by simpa using h⟩
  | cons step steps ih =>
    obtain ⟨t, ht, hstep⟩ := h.declareOn step
    obtain ⟨u, hu, hsteps⟩ := ih hstep
    refine ⟨u, ?_, ?_⟩
    · rw [WeakKeys.declareAll, List.foldlM_cons, ht]
      exact hu
    · rwa [List.flatMap_cons, List.any_cons, ← List.append_assoc, ← Bool.or_assoc]

/-- What a schema of weak keys makes of a hash: it never fails, and ends if the types of its keys
do; each key has what its type makes of its value, or the value if its type refuses it, and there
are no others. -/
structure Tolerates (scope : Scope) (s : Schema Ty Func) (declared : List (Key Ty))
    (input present : Entries) : Prop where
  never_raises : ∀ e, ¬(Ty.schema s).Coerces scope (.hash input) (.error e)
  ends_iff : (∃ out, (Ty.schema s).Coerces scope (.hash input) (.ok out)) ↔
    ∀ k ∈ declared, ∀ v, s.Given {} present k v → ∃ r, k.type.Coerces scope v r
  output : ∀ out, (Ty.schema s).Coerces scope (.hash input) (.ok out) → ∃ es : Entries,
    out = .hash es ∧ (∀ e ∈ es, ∃ k ∈ declared, (k.name == e.1) = true) ∧
    ∀ k ∈ declared,
      (∀ v, s.Given {} present k v → ∃ r, k.type.Coerces scope v r ∧
        es.get? k.name =
          if (r.toOption.getD v).isUndefined then none else some (r.toOption.getD v)) ∧
      ((∀ v, ¬s.Given {} present k v) → es.get? k.name = none)

section

variable {scope : Scope} {s : Schema Ty Func} {declared : List (Key Ty)} {symbols : Bool}
  {input given : Entries}

theorem given_weaken {k : Key Ty} {v : Value} :
    s.Given {} given (Ty.weaken k) v ↔ s.Given {} given k v := by
  unfold Given FillsIn
  simp only [Ty.weaken, Ty.isDefault_toSafe]

theorem Weakens.presents (h : s.Weakens declared symbols) (input : Entries) :
    ∃ present, s.present input = .ok present ∧ s.transform.Rekeys input present := by
  refine s.present_rekeys fun e _ => ?_
  rw [h.transform]
  cases symbols with
  | true => cases e.1 <;> exact ⟨_, rfl⟩
  | false => exact ⟨e.1, rfl⟩

theorem Weakens.coerces_iff (h : s.Weakens declared symbols)
    (hp : s.present input = .ok given) {r : Result Value} :
    (Ty.schema s).Coerces scope (.hash input) r ↔
      ∃ kr, KeysEnd scope s {} given kr ∧ kr.map .hash = r := by
  have hlenient : ¬(s.strict = true ∧ ∃ p ∈ given, s.Undeclared p.1) := by
    rw [h.lenient]
    rintro ⟨hstrict, -⟩
    cases hstrict
  rw [Ty.coerces_schema_iff, coerces_hash_of_declared hp hlenient]

/-- A weak key is satisfied as soon as its type comes to an end. -/
theorem satisfied_weaken_iff {k : Key Ty} :
    s.Satisfied {} given (Ty.Coerces scope) (Ty.weaken k) ↔
      ∀ v, s.Given {} given k v → ∃ r, k.type.Coerces scope v r := by
  rw [satisfied_iff]
  constructor
  · rintro (homitted | ⟨v, w, hv, hw⟩) u hu
    · rw [supply_eq_value.mpr (given_weaken.mpr hu)] at homitted
      cases homitted
    · obtain rfl := Supply.value.inj
        (hv.symm.trans (supply_eq_value.mpr (given_weaken.mpr hu)))
      obtain ⟨r, hr, -⟩ := Ty.coerces_toSafe_iff.mp hw
      exact ⟨r, hr⟩
  · intro hends
    cases hs : s.supply {} given (Ty.weaken k) with
    | omitted => exact Or.inl rfl
    | missing =>
      obtain ⟨-, -, hrequired, -⟩ := supply_eq_missing.mp hs
      cases hrequired
    | value v =>
      obtain ⟨r, hr⟩ := hends v (given_weaken.mp (supply_eq_value.mp hs))
      exact Or.inr ⟨v, _, rfl, Ty.coerces_toSafe_iff.mpr ⟨r, hr, rfl⟩⟩

theorem Weakens.mem_keys (h : s.Weakens declared symbols) {l : Key Ty} :
    l ∈ s.keys ↔ ∃ k ∈ (ofKeys declared : Schema Ty Func).keys, Ty.weaken k = l := by
  rw [h.keys, List.mem_map]

theorem Weakens.namesDiffer (h : s.Weakens declared symbols) : NamesDiffer s.keys := by
  rw [h.keys]
  exact List.pairwise_map.mpr (namesDiffer_ofKeys declared)

/-- A weak key is not to blame for any error. -/
theorem not_refuses_weaken {k : Key Ty} {e : Error} :
    ¬s.Refuses {} given (Ty.Coerces scope) (Ty.weaken k) e := by
  intro h
  cases h with
  | missing hp hf hr => cases hr.1
  | invalid hv he =>
    obtain ⟨r, -, hr⟩ := Ty.coerces_toSafe_iff.mp he
    cases hr

/-- What the output has under the names of the keys, and that it has nothing else. -/
theorem Weakens.output (h : s.Weakens declared symbols) {es : Entries}
    (hes : KeysEnd scope s {} given (.ok es)) :
    (∀ e ∈ es, ∃ k ∈ (ofKeys declared : Schema Ty Func).keys, (k.name == e.1) = true) ∧
    ∀ k ∈ (ofKeys declared : Schema Ty Func).keys,
      (∀ v, s.Given {} given k v → ∃ r, k.type.Coerces scope v r ∧
        es.get? k.name =
          if (r.toOption.getD v).isUndefined then none else some (r.toOption.getD v)) ∧
      ((∀ v, ¬s.Given {} given k v) → es.get? k.name = none) := by
  have hget := keysEnd_get? h.namesDiffer hes
  constructor
  · intro e he
    have hentry : es.get? e.1 = some e.2 :=
      (keysEnd_distinct hes).get?_eq_some.mpr ⟨e, he, BEq.refl e.1, rfl⟩
    obtain ⟨-, l, hl, hname, -⟩ := (hget e.1 e.2).mp hentry
    obtain ⟨k, hk, rfl⟩ := h.mem_keys.mp hl
    exact ⟨k, hk, hname⟩
  · intro k hk
    have hmem : Ty.weaken k ∈ s.keys := h.mem_keys.mpr ⟨k, hk, rfl⟩
    constructor
    · intro v hv
      have hgiven := given_weaken.mpr hv
      obtain ⟨w, hw, -⟩ := keysEnd_supplied hes hmem hgiven
      obtain ⟨r, hr, hwr⟩ := Ty.coerces_toSafe_iff.mp hw
      obtain rfl := Except.ok.inj hwr
      exact ⟨r, hr, keysEnd_get?_name h.namesDiffer hes hmem hgiven hw⟩
    · intro hnone
      rw [Option.eq_none_iff_forall_ne_some]
      intro u hu
      obtain ⟨-, l, hl, hname, v, hv, -⟩ := (hget k.name u).mp hu
      obtain rfl : l = Ty.weaken k := h.namesDiffer.eq_of_name hl hmem hname
      exact hnone v (given_weaken.mp hv)

theorem Weakens.tolerates (h : s.Weakens declared symbols) (hp : s.present input = .ok given) :
    s.Tolerates scope (ofKeys declared : Schema Ty Func).keys input given := by
  have hok : ∀ out, (Ty.schema s).Coerces scope (.hash input) (.ok out) ↔
      ∃ es, KeysEnd scope s {} given (.ok es) ∧ .hash es = out := by
    intro out
    rw [h.coerces_iff hp]
    constructor
    · rintro ⟨kr, hkr, heq⟩
      obtain ⟨es, rfl, hes⟩ := map_eq_ok.mp heq
      exact ⟨es, hkr, hes⟩
    · rintro ⟨es, hes, rfl⟩
      exact ⟨.ok es, hes, rfl⟩
  constructor
  case never_raises =>
    intro e he
    obtain ⟨kr, hkr, heq⟩ := (h.coerces_iff hp).mp he
    cases kr with
    | ok es => cases heq
    | error f =>
      obtain ⟨before, l, after, hkeys, -, hl⟩ := keysEnd_error_iff.mp hkr
      have hmem : l ∈ s.keys := by rw [hkeys]; exact List.mem_append_right _ List.mem_cons_self
      obtain ⟨k, -, rfl⟩ := h.mem_keys.mp hmem
      exact not_refuses_weaken hl
  case ends_iff =>
    have hends : (∃ out, (Ty.schema s).Coerces scope (.hash input) (.ok out)) ↔
        ∃ es, KeysEnd scope s {} given (.ok es) := by
      simp only [hok]
      constructor
      · rintro ⟨-, es, hes, -⟩
        exact ⟨es, hes⟩
      · rintro ⟨es, hes⟩
        exact ⟨_, es, hes, rfl⟩
    rw [hends, keysEnd_ok_iff, h.keys, List.forall_mem_map]
    exact forall₂_congr fun k _ => satisfied_weaken_iff
  case output =>
    intro out hout
    obtain ⟨es, hes, rfl⟩ := (hok out).mp hout
    exact ⟨es, rfl, h.output hes⟩

end

/-- Weak keys, declared in any number of steps on the class of hashes, make a schema that no hash
fails. Of the keys of one name the last is meant, and undefined values are left out. The one thing
that may be amiss is a type that does not come to an end. -/
theorem declareAll_tolerates (scope : Scope) (info : Metadata) (first : WeakKeys)
    (more : List WeakKeys) :
    ∃ s : Schema Ty Func,
      WeakKeys.declareAll (first :: more) (.nominal .hash info) = .ok (.schema s) ∧
      (s.transform = if (first :: more).any WeakKeys.symbols then .symbolize else .identity) ∧
      ∀ input : Entries, ∃ present, s.present input = .ok present ∧
        s.transform.Rekeys input present ∧
        s.Tolerates scope
          (ofKeys ((first :: more).flatMap WeakKeys.keys) : Schema Ty Func).keys input present := by
  obtain ⟨t, ht, hfirst⟩ := weakens_declareOn_nominal info first
  obtain ⟨s, hs, hweak⟩ := hfirst.declareAll more
  refine ⟨s, ?_, hweak.transform, fun input => ?_⟩
  · rw [WeakKeys.declareAll, List.foldlM_cons, ht]
    exact hs
  · obtain ⟨present, hp, hrekeys⟩ := hweak.presents input
    exact ⟨present, hp, hrekeys, hweak.tolerates hp⟩

/-- Keys of a type that does not come to an end. -/
def endlessKeys : WeakKeys where
  keys := [⟨.symbol "k", .reference ⟨0, "a", {}⟩, true⟩]
  symbols := false

/-- What is present is passed on by a maybe type, back to the entry that it is about. -/
theorem cycles_of_present {input : Value} (h : input.isAbsent = false) :
    maybeWorld.scope.Cycles (Reference.entry ⟨0, "a", {}⟩, input) := by
  have hmaybe : maybeWorld.scope.Holds (0, "a") (.maybe (.reference ⟨0, "a", {}⟩)) := rfl
  constructor
  · exact .single ⟨_, ⟨0, "a", {}⟩, hmaybe, .single (.maybe h), rfl⟩
  · intro halias
    obtain ⟨k, ⟨r, hr, -⟩, -⟩ := Relation.TransGen.head'_iff.mp halias
    cases hr.unique hmaybe

/-- What does not end has no result, though no error either. -/
theorem declareAll_endless : ∃ s : Schema Ty Func,
    WeakKeys.declareAll [endlessKeys] (.nominal .hash {}) = .ok (.schema s) ∧
    ¬∃ out, (Ty.schema s).Coerces maybeWorld.scope (.hash [(.symbol "k", .int 1)]) (.ok out) := by
  obtain ⟨s, hs, hweak⟩ := weakens_declareOn_nominal {} endlessKeys
  refine ⟨s, by rw [WeakKeys.declareAll, List.foldlM_cons, hs]; rfl, fun hends => ?_⟩
  have hpresent : s.present [(.symbol "k", .int 1)] = .ok [(.symbol "k", .int 1)] := by
    simp only [present, hweak.transform, Entries.sorted, List.mergeSort_singleton]
    rfl
  have hkeys := (hweak.tolerates hpresent).ends_iff.mp hends
  obtain ⟨r, hr⟩ := hkeys _ List.mem_cons_self (.int 1) (Or.inl rfl)
  exact Ty.not_coerces_of_cycles (cycles_of_present rfl) ⟨r, hr⟩

end Schema

end Conform
