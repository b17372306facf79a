import Conform.Proofs.Schema.Resolution
import Conform.Proofs.Ty.Refinement

namespace Conform

namespace Schema

section

variable (s : Schema Ty Func) (options : ApplyOptions) (present : Entries)

/-- Is a declared key looked at? It is unless it may be left out and is. -/
def considers (k : Key Ty) : Bool :=
  (present.get? k.name).isSome ||
    (k.type.isDefault && (options.resolveDefaults || s.alwaysDefaults)) ||
    (k.required && !options.skipMissing)

/-- What is noted for a declared key, given what trials of types end with. -/
inductive Notes (tries : Ty → Value → Outcome → Prop) (k : Key Ty) : Outcome → Prop where
  | tried {v : Value} {o : Outcome} (hv : s.Given options present k v) (ho : tries k.type v o) :
      Notes tries k o
  | missing (hp : present.get? k.name = none) (hf : ¬s.FillsIn options k)
      (hr : k.required = true ∧ options.skipMissing = false) :
      Notes tries k (.refused .undefined "is missing")

/-- The outcomes of a trial by key: those of the declared keys that are looked at, in the order of
their declaration, and those of the undeclared ones where these are refused. -/
structure Recorded (scope : Scope) (declared undeclared : List (Value × Outcome)) : Prop where
  noted : List.Forall₂
    (fun k r => r.1 = k.name ∧ s.Notes options present (Ty.Attempts scope) k r.2)
    (s.keys.filter (s.considers options present)) declared
  strict : s.strict = true → s.ListsUndeclared present (undeclared.map Prod.fst)
  lenient : s.strict = false → undeclared = []
  refused : ∀ r ∈ undeclared, r.2.isSuccess = false
  distinct : (declared ++ undeclared).Pairwise fun a b => (a.1 == b.1) = false

end

section

variable {s : Schema Ty Func} {options : ApplyOptions} {present : Entries} {k : Key Ty}

theorem considers_eq_false :
    s.considers options present k = false ↔ s.supply options present k = .omitted := by
  unfold considers supply
  cases present.get? k.name with
  | some v => simp
  | none =>
    cases k.type.isDefault && (options.resolveDefaults || s.alwaysDefaults) with
    | true => simp
    | false => cases k.required && !options.skipMissing <;> simp

section

variable {tries tries' : Ty → Value → Outcome → Prop} {o : Outcome}

theorem notes_iff_of_missing (h : s.supply options present k = .missing) :
    s.Notes options present tries k o ↔ o = .refused .undefined "is missing" := by
  obtain ⟨hp, hf, hr⟩ := supply_eq_missing.mp h
  constructor
  · intro hn
    cases hn with
    | tried hv ho =>
      rw [supply_eq_value.mpr hv] at h
      cases h
    | missing => rfl
  · rintro rfl
    exact .missing hp hf hr

theorem notes_iff_of_value {v : Value} (h : s.supply options present k = .value v) :
    s.Notes options present tries k o ↔ tries k.type v o := by
  constructor
  · intro hn
    cases hn with
    | tried hv ho =>
      rw [supply_eq_value.mpr hv] at h
      cases h
      exact ho
    | missing hp hf hr =>
      rw [supply_eq_missing.mpr ⟨hp, hf, hr⟩] at h
      cases h
  · exact .tried (supply_eq_value.mp h)

theorem Notes.imp (h : ∀ ty v o, tries ty v o → tries' ty v o)
    (hk : s.Notes options present tries k o) : s.Notes options present tries' k o := by
  cases hk with
  | tried hv ho => exact .tried hv (h _ _ _ ho)
  | missing hp hf hr => exact .missing hp hf hr

end

/-- What is noted are the outcomes of the keys that are looked at, in order. -/
theorem attemptKeys_eq_ok {attempt : Ty → Value → Run Outcome} {keys : List (Key Ty)}
    {results : List (Value × Outcome)} :
    attemptKeys attempt (s.supply options present) keys = .ok results ↔
      List.Forall₂ (fun k r => r.1 = k.name ∧
          s.Notes options present (fun ty v o => attempt ty v = .ok o) k r.2)
        (keys.filter (s.considers options present)) results := by
  induction keys generalizing results with
  | nil => simp [attemptKeys, eq_comm]
  | cons k ks ih =>
    unfold attemptKeys
    cases hs : s.supply options present k with
    | omitted =>
      rw [List.filter_cons_of_neg (by simp [considers_eq_false.mpr hs])]
      exact ih
    | missing =>
      have hk : s.considers options present k = true := by
        rw [← Bool.not_eq_false, considers_eq_false, hs]
        simp
      rw [List.filter_cons_of_pos hk, List.forall₂_cons_left_iff]
      simp only [bind_eq_ok, pure_eq_ok, ih, notes_iff_of_missing hs]
      constructor
      · rintro ⟨rest, hrest, rfl⟩
        exact ⟨_, rest, ⟨rfl, rfl⟩, hrest, rfl⟩
      · rintro ⟨⟨_, _⟩, rest, ⟨rfl, rfl⟩, hrest, rfl⟩
        exact ⟨rest, hrest, rfl⟩
    | value v =>
      have hk : s.considers options present k = true := by
        rw [← Bool.not_eq_false, considers_eq_false, hs]
        simp
      rw [List.filter_cons_of_pos hk, List.forall₂_cons_left_iff]
      simp only [bind_eq_ok, pure_eq_ok, ih, notes_iff_of_value hs]
      constructor
      · rintro ⟨o, ho, rest, hrest, rfl⟩
        exact ⟨_, rest, ⟨rfl, ho⟩, hrest, rfl⟩
      · rintro ⟨⟨_, o⟩, rest, ⟨rfl, ho⟩, hrest, rfl⟩
        exact ⟨o, ho, rest, hrest, rfl⟩

theorem map_fst_of_noted {tries : Ty → Value → Outcome → Prop} {keys : List (Key Ty)}
    {results : List (Value × Outcome)}
    (h : List.Forall₂ (fun k r => r.1 = k.name ∧ s.Notes options present tries k r.2)
      keys results) : results.map Prod.fst = keys.map Key.name := by
  induction h with
  | nil => rfl
  | cons hr _ ih => rw [List.map_cons, List.map_cons, hr.1, ih]

/-- A key is looked at once, and none that is declared is undeclared. -/
theorem distinct_of_noted {order : Iteration} {tries : Ty → Value → Outcome → Prop}
    (hn : NamesDiffer s.keys) (hd : present.Distinct) {results : List (Value × Outcome)}
    (h : List.Forall₂ (fun k r => r.1 = k.name ∧ s.Notes options present tries k r.2)
      (s.keys.filter (s.considers options present)) results) :
    (results ++ s.refusals order present).Pairwise fun a b => (a.1 == b.1) = false := by
  have hnames := map_fst_of_noted h
  have hdeclared : (results.map Prod.fst).Pairwise fun a b => (a == b) = false := by
    rw [hnames, List.pairwise_map]
    exact hn.filter _
  refine List.pairwise_append.mpr ⟨List.pairwise_map.mp hdeclared, ?_, ?_⟩
  · unfold refusals
    split
    next => exact List.pairwise_map.mpr (List.pairwise_map.mp (unknown_listsUndeclared hd).distinct)
    next => exact .nil
  · intro r hr q hq
    have hmem : r.1 ∈ (s.keys.filter (s.considers options present)).map Key.name :=
      hnames ▸ List.mem_map_of_mem hr
    obtain ⟨k, hk, hkr⟩ := List.mem_map.mp hmem
    have hu : s.Undeclared q.1 := undeclared_of_mem_refusals hq
    rw [← hkr]
    exact hu k (List.mem_filter.mp hk).1

theorem recorded_of_attemptKeys {scope : Scope} {fuel : Nat} (hn : NamesDiffer s.keys)
    (hd : present.Distinct) {results : List (Value × Outcome)}
    (h : attemptKeys (Ty.attempt scope fuel) (s.supply options present) s.keys = .ok results) :
    s.Recorded options present scope results (s.refusals scope.iteration present) where
  noted := (attemptKeys_eq_ok.mp h).imp fun _ _ hr =>
    hr.imp_right (Notes.imp fun _ _ _ ho => ⟨fuel, ho⟩)
  strict := fun hs => by
    rw [map_fst_refusals hs]
    exact unknown_listsUndeclared hd
  lenient := fun hs => by simp [refusals, hs]
  refused := fun r => isSuccess_of_mem_refusals
  distinct := distinct_of_noted hn hd (attemptKeys_eq_ok.mp h)

end

section

variable {scope : Scope} {s : Schema Ty Func} {options : ApplyOptions} {present : Entries}

/-- Keys whose trials all end are tried together at one depth. -/
theorem attemptKeys_of_attempts {keys : List (Key Ty)}
    (h : ∀ k ∈ keys, ∀ v, s.Given options present k v → ∃ o, k.type.Attempts scope v o) :
    ∃ fuel results,
      attemptKeys (Ty.attempt scope fuel) (s.supply options present) keys = .ok results := by
  induction keys with
  | nil => exact ⟨0, [], rfl⟩
  | cons k ks ih =>
    obtain ⟨hk, hks⟩ := List.forall_mem_cons.mp h
    obtain ⟨fuel, rest, hrest⟩ := ih hks
    cases hs : s.supply options present k with
    | omitted => exact ⟨fuel, rest, by simp only [attemptKeys, hs, hrest]⟩
    | missing =>
      refine ⟨fuel, (k.name, .refused .undefined "is missing") :: rest, ?_⟩
      simp only [attemptKeys, hs, hrest]
      rfl
    | value v =>
      obtain ⟨o, more, ho⟩ := hk v (supply_eq_value.mp hs)
      have hle := Nat.le_max_left fuel more
      refine ⟨max fuel more, (k.name, o) :: rest, ?_⟩
      simp only [attemptKeys, hs, attemptKeys_extends (Ty.attempt_extends hle) ks rest hrest,
        Ty.attempt_mono (Nat.le_max_right fuel more) ho]
      rfl

theorem attempts_hash_iff {input : Entries} (hp : s.present input = .ok present) {o : Outcome} :
    s.Attempts scope options (.hash input) o ↔ ∃ fuel results,
      attemptKeys (Ty.attempt scope fuel) (s.supply options present) s.keys = .ok results ∧
        o = outcome (outputs results) (results ++ s.refusals scope.iteration present) := by
  unfold Attempts
  simp only [attempt_hash hp, bind_eq_ok, pure_eq_ok, eq_comm (a := o)]

/-- A trial of a hash succeeds when none of its keys is refused as undeclared and each declared one
that is looked at is accepted. -/
theorem attempts_success_iff {input : Entries} {out : Value} :
    s.Attempts scope options (.hash input) (.success out) ↔ ∃ present,
      s.present input = .ok present ∧ ¬(s.strict = true ∧ ∃ p ∈ present, s.Undeclared p.1) ∧
      ∃ fuel results,
        attemptKeys (Ty.attempt scope fuel) (s.supply options present) s.keys = .ok results ∧
        (∀ r ∈ results, r.2.isSuccess = true) ∧ out = .hash (outputs results) := by
  cases hp : s.present input with
  | error e =>
    have hne : ¬s.Attempts scope options (.hash input) (.success out) := by
      rintro ⟨fuel, h⟩
      simp [attempt, hp, Outcome.refused] at h
    simp [hne]
  | ok present =>
    simp only [attempts_hash_iff hp, Except.ok.injEq, exists_eq_left']
    simp only [eq_comm (a := Outcome.success out), outcome_eq_success, List.forall_mem_append]
    rw [← refusals_eq_nil_iff]
    constructor
    · rintro ⟨fuel, results, h, ⟨hs, hr⟩, rfl⟩
      have hnil : s.refusals scope.iteration present = [] :=
        List.eq_nil_iff_forall_not_mem.mpr fun r hmem =>
        Bool.noConfusion ((hr r hmem).symm.trans (isSuccess_of_mem_refusals hmem))
      exact ⟨hnil, fuel, results, h, hs, rfl⟩
    · rintro ⟨hnil, fuel, results, h, hs, rfl⟩
      exact ⟨fuel, results, h, ⟨hs, by simp [hnil]⟩, rfl⟩

end

end Schema

end Conform
