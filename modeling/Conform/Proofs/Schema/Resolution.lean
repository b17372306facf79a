import Conform.Proofs.Schema.Declared
import Conform.Proofs.Schema.Present
import Conform.Proofs.Schema.Undeclared
import Conform.Proofs.Ty.Depth
import Conform.World

namespace Conform.Schema

section

variable {s : Schema Ty Func} {options : ApplyOptions} {present : Entries} {k : Key Ty}
  {ends ends' : Ty → Value → Result Value → Prop}

theorem Satisfied.imp (h : ∀ ty v r, ends ty v r → ends' ty v r)
    (hk : s.Satisfied options present ends k) : s.Satisfied options present ends' k := by
  rw [satisfied_iff] at hk ⊢
  rcases hk with ho | ⟨v, w, hv, hw⟩
  · exact Or.inl ho
  · exact Or.inr ⟨v, w, hv, h _ _ _ hw⟩

theorem Refuses.imp (h : ∀ ty v r, ends ty v r → ends' ty v r) {e : Error}
    (hk : s.Refuses options present ends k e) : s.Refuses options present ends' k e := by
  cases hk with
  | missing hp hf hr => exact .missing hp hf hr
  | invalid hv he => exact .invalid hv (h _ _ _ he)

end

section

variable {scope : Scope} {s : Schema Ty Func} {options : ApplyOptions} {present : Entries}

theorem Satisfied.deepen {fuel more : Nat} {k : Key Ty} (hle : fuel ≤ more)
    (h : s.Satisfied options present (fun ty v r => ty.coerce scope fuel v = .ok r) k) :
    s.Satisfied options present (fun ty v r => ty.coerce scope more v = .ok r) k :=
  h.imp fun _ _ _ hr => Ty.coerce_mono hle hr

theorem Satisfied.at_depth {k : Key Ty} (h : s.Satisfied options present (Ty.Coerces scope) k) :
    ∃ fuel, s.Satisfied options present (fun ty v r => ty.coerce scope fuel v = .ok r) k := by
  rcases satisfied_iff.mp h with ho | ⟨v, w, hv, fuel, hw⟩
  · exact ⟨0, satisfied_iff.mpr (Or.inl ho)⟩
  · exact ⟨fuel, satisfied_iff.mpr (Or.inr ⟨v, w, hv, hw⟩)⟩

/-- One depth does for all declared keys. -/
theorem satisfied_at_depth {keys : List (Key Ty)}
    (h : ∀ k ∈ keys, s.Satisfied options present (Ty.Coerces scope) k) :
    ∃ fuel, ∀ k ∈ keys,
      s.Satisfied options present (fun ty v r => ty.coerce scope fuel v = .ok r) k :=
  exists_depth (fun _ _ hle _ hk => hk.deepen hle) fun k hk => (h k hk).at_depth

theorem Refuses.at_depth {k : Key Ty} {e : Error}
    (h : s.Refuses options present (Ty.Coerces scope) k e) :
    ∃ fuel, s.Refuses options present (fun ty v r => ty.coerce scope fuel v = .ok r) k e := by
  cases h with
  | missing hp hf hr => exact ⟨0, .missing hp hf hr⟩
  | invalid hv he =>
    obtain ⟨fuel, he⟩ := he
    exact ⟨fuel, .invalid hv he⟩

end

/-- What a schema makes of the present entries when it does not refuse them as undeclared: whether
it succeeds, with which output, and else with which error. -/
structure Resolves (scope : Scope) (s : Schema Ty Func) (options : ApplyOptions)
    (present : Entries) (result : Result Value → Prop) : Prop where
  ok_iff : (∃ out, result (.ok out)) ↔
    ∀ k ∈ s.keys, s.Satisfied options present (Ty.Coerces scope) k
  output : ∀ out, result (.ok out) → ∃ es : Entries, out = .hash es ∧ es.Distinct ∧
    ∀ q w, es.get? q = some w ↔ w.isUndefined = false ∧
      ∃ k ∈ s.keys, (k.name == q) = true ∧
        ∃ v, s.Given options present k v ∧ k.type.Coerces scope v (.ok w)
  error_iff : ∀ e, result (.error e) ↔ ∃ before k after, s.keys = before ++ k :: after ∧
    (∀ j ∈ before, s.Satisfied options present (Ty.Coerces scope) j) ∧
    s.Refuses options present (Ty.Coerces scope) k e
  ends : (∀ k ∈ s.keys, ∀ v, s.Given options present k v → ∃ r, k.type.Coerces scope v r) →
    ∃ r, result r

section

variable {scope : Scope} {s : Schema Ty Func} {options : ApplyOptions} {present : Entries}

/-- The result of resolving the declared keys, at some depth. -/
def KeysEnd (scope : Scope) (s : Schema Ty Func) (options : ApplyOptions) (present : Entries)
    (r : Result Entries) : Prop :=
  ∃ fuel, coerceKeys (Ty.coerce scope fuel) (s.supply options present) s.keys [] = .ok r

theorem keysEnd_ok_iff : (∃ es, KeysEnd scope s options present (.ok es)) ↔
    ∀ k ∈ s.keys, s.Satisfied options present (Ty.Coerces scope) k := by
  constructor
  · rintro ⟨es, fuel, h⟩ k hk
    exact ((coerceKeys_ok_iff []).mp ⟨es, h⟩ k hk).imp fun _ _ _ hr => ⟨fuel, hr⟩
  · intro h
    obtain ⟨fuel, h⟩ := satisfied_at_depth h
    obtain ⟨es, hes⟩ := (coerceKeys_ok_iff []).mpr h
    exact ⟨es, fuel, hes⟩

theorem keysEnd_error_iff {e : Error} : KeysEnd scope s options present (.error e) ↔
    ∃ before k after, s.keys = before ++ k :: after ∧
      (∀ j ∈ before, s.Satisfied options present (Ty.Coerces scope) j) ∧
      s.Refuses options present (Ty.Coerces scope) k e := by
  constructor
  · rintro ⟨fuel, h⟩
    obtain ⟨before, k, after, heq, hbefore, hk⟩ := (coerceKeys_error_iff []).mp h
    have hends : ∀ ty v r, Ty.coerce scope fuel ty v = .ok r → ty.Coerces scope v r :=
      fun _ _ _ hr => ⟨fuel, hr⟩
    exact ⟨before, k, after, heq, fun j hj => (hbefore j hj).imp hends, hk.imp hends⟩
  · rintro ⟨before, k, after, heq, hbefore, hk⟩
    obtain ⟨a, ha⟩ := satisfied_at_depth hbefore
    obtain ⟨b, hb⟩ := hk.at_depth
    refine ⟨max a b, (coerceKeys_error_iff []).mpr ⟨before, k, after, heq, fun j hj => ?_, ?_⟩⟩
    · exact (ha j hj).deepen (Nat.le_max_left a b)
    · exact hb.imp fun _ _ _ hr => Ty.coerce_mono (Nat.le_max_right a b) hr

theorem keysEnd_get? (hn : NamesDiffer s.keys) {es : Entries}
    (h : KeysEnd scope s options present (.ok es)) (q w : Value) :
    es.get? q = some w ↔ w.isUndefined = false ∧ ∃ k ∈ s.keys, (k.name == q) = true ∧
      ∃ v, s.Given options present k v ∧ k.type.Coerces scope v (.ok w) := by
  obtain ⟨fuel, h⟩ := h
  have hnil : ∀ k ∈ s.keys, Entries.get? [] k.name = none := fun _ _ => rfl
  rw [coerceKeys_get? hn hnil h]
  have hnone : ¬Entries.get? [] q = some w := fun hq => nomatch hq
  simp only [hnone, false_or, Yields, supply_eq_value]
  constructor
  · rintro ⟨k, hk, hkq, hw, v, hv, hr⟩
    exact ⟨hw, k, hk, hkq, v, hv, fuel, hr⟩
  · rintro ⟨hw, k, hk, hkq, v, hv, hr⟩
    -- The run went through this key at its own depth, so it had the same value there.
    rcases satisfied_iff.mp ((coerceKeys_ok_iff []).mp ⟨es, h⟩ k hk) with ho | ⟨v', w', hv', hr'⟩
    · rw [supply_eq_value.mpr hv] at ho
      exact nomatch ho
    · obtain rfl : v = v' := by simpa [supply_eq_value.mpr hv] using hv'
      obtain rfl : w = w' := Except.ok.inj (hr.unique ⟨fuel, hr'⟩)
      exact ⟨k, hk, hkq, hw, v, hv, hr'⟩

theorem keysEnd_distinct {es : Entries} (h : KeysEnd scope s options present (.ok es)) :
    es.Distinct := by
  obtain ⟨fuel, h⟩ := h
  exact coerceKeys_distinct List.Pairwise.nil h

/-- Declared keys that all end come to an end together. -/
theorem keysEnd_of_ends
    (h : ∀ k ∈ s.keys, ∀ v, s.Given options present k v → ∃ r, k.type.Coerces scope v r) :
    ∃ r, KeysEnd scope s options present r := by
  have hkeys := satisfied_or_first_refuses fun k hk => satisfied_or_refuses (h k hk)
  rcases hkeys with hok | ⟨before, k, after, e, hkeys⟩
  · obtain ⟨es, hes⟩ := keysEnd_ok_iff.mpr hok
    exact ⟨.ok es, hes⟩
  · exact ⟨.error e, keysEnd_error_iff.mpr ⟨before, k, after, hkeys⟩⟩

variable {input : Entries}

theorem coerces_hash_of_undeclared (hp : s.present input = .ok present)
    (hu : s.strict = true ∧ ∃ p ∈ present, s.Undeclared p.1) (r : Result Value) :
    s.Coerces scope options (.hash input) r ↔
      r = .error (.of (.unknownKeys ((s.unknown scope.iteration present).map Prod.fst))) := by
  have hne : (s.unknown scope.iteration present).isEmpty = false := by
    rw [Bool.eq_false_iff, ne_eq, unknown_isEmpty_iff, not_not]
    exact hu.2
  simp only [Coerces, coerce, hp, hu.1, hne, Bool.not_false, Bool.and_self, ↓reduceIte,
    Except.ok.injEq, exists_const]
  exact eq_comm

theorem coerces_hash_of_declared (hp : s.present input = .ok present)
    (hu : ¬(s.strict = true ∧ ∃ p ∈ present, s.Undeclared p.1)) (r : Result Value) :
    s.Coerces scope options (.hash input) r ↔
      ∃ kr, KeysEnd scope s options present kr ∧ kr.map .hash = r := by
  have hne : (s.strict && !(s.unknown scope.iteration present).isEmpty) = false := by
    rw [Bool.and_eq_false_iff, Bool.not_eq_false', unknown_isEmpty_iff]
    cases hs : s.strict with
    | false => exact Or.inl rfl
    | true => exact Or.inr fun h => hu ⟨hs, h⟩
  simp only [Coerces, KeysEnd, coerce, hp, hne, Bool.false_eq_true, ↓reduceIte, bind_eq_ok,
    pure_eq_ok]
  constructor
  · rintro ⟨fuel, kr, hkr, h⟩
    exact ⟨kr, ⟨fuel, hkr⟩, h⟩
  · rintro ⟨kr, ⟨fuel, hkr⟩, h⟩
    exact ⟨fuel, kr, hkr, h⟩

theorem coerces_hash_ok_iff (hp : s.present input = .ok present)
    (hu : ¬(s.strict = true ∧ ∃ p ∈ present, s.Undeclared p.1)) (out : Value) :
    s.Coerces scope options (.hash input) (.ok out) ↔
      ∃ es, KeysEnd scope s options present (.ok es) ∧ out = .hash es := by
  rw [coerces_hash_of_declared hp hu]
  constructor
  · rintro ⟨kr, hkr, h⟩
    cases kr with
    | error e => exact nomatch h
    | ok es => exact ⟨es, hkr, (Except.ok.inj h).symm⟩
  · rintro ⟨es, hes, rfl⟩
    exact ⟨.ok es, hes, rfl⟩

theorem coerces_hash_error_iff (hp : s.present input = .ok present)
    (hu : ¬(s.strict = true ∧ ∃ p ∈ present, s.Undeclared p.1)) (e : Error) :
    s.Coerces scope options (.hash input) (.error e) ↔
      KeysEnd scope s options present (.error e) := by
  rw [coerces_hash_of_declared hp hu]
  constructor
  · rintro ⟨kr, hkr, h⟩
    cases kr with
    | error f => exact Except.error.inj h ▸ hkr
    | ok es => exact nomatch h
  · exact fun he => ⟨.error e, he, rfl⟩

/-- A call on a hash succeeds when its keys can be transformed, none of them is refused as
undeclared and the declared ones get through. -/
theorem coerces_ok_iff {out : Value} : s.Coerces scope options (.hash input) (.ok out) ↔
    ∃ present, s.present input = .ok present ∧
      ¬(s.strict = true ∧ ∃ p ∈ present, s.Undeclared p.1) ∧
      ∃ es, KeysEnd scope s options present (.ok es) ∧ out = .hash es := by
  cases hp : s.present input with
  | error e =>
    have hne : ¬s.Coerces scope options (.hash input) (.ok out) := by
      rintro ⟨fuel, h⟩
      simp [coerce, hp] at h
    simp [hne]
  | ok present =>
    simp only [Except.ok.injEq, exists_eq_left']
    by_cases hu : s.strict = true ∧ ∃ p ∈ present, s.Undeclared p.1
    · simp only [coerces_hash_of_undeclared hp hu, not_true_eq_false, hu, reduceCtorEq, false_and,
        and_self]
    · simp only [coerces_hash_ok_iff hp hu, hu, not_false_eq_true, true_and]

theorem resolves_of_declared (hn : NamesDiffer s.keys) (hp : s.present input = .ok present)
    (hu : ¬(s.strict = true ∧ ∃ p ∈ present, s.Undeclared p.1)) :
    s.Resolves scope options present (s.Coerces scope options (.hash input)) where
  ok_iff := by
    rw [← keysEnd_ok_iff]
    simp only [coerces_hash_ok_iff hp hu]
    constructor
    · rintro ⟨_, es, hes, rfl⟩
      exact ⟨es, hes⟩
    · rintro ⟨es, hes⟩
      exact ⟨_, es, hes, rfl⟩
  output := by
    intro out h
    obtain ⟨es, hes, rfl⟩ := (coerces_hash_ok_iff hp hu out).mp h
    exact ⟨es, rfl, keysEnd_distinct hes, keysEnd_get? hn hes⟩
  error_iff := by
    intro e
    rw [coerces_hash_error_iff hp hu, keysEnd_error_iff]
  ends := by
    intro h
    obtain ⟨kr, hkr⟩ := keysEnd_of_ends h
    exact ⟨_, (coerces_hash_of_declared hp hu _).mpr ⟨kr, hkr, rfl⟩⟩

end

/-- How a schema resolves a hash whose keys can be transformed. A strict one refuses all undeclared
keys at once; else the declared keys decide. -/
theorem coerces_hash_resolves (scope : Scope) (s : Schema Ty Func) (options : ApplyOptions)
    (input : Entries) (hn : NamesDiffer s.keys)
    (ht : ∀ e ∈ input, ∃ k, s.transform.apply e.1 = .ok k) :
    ∃ present, s.transform.Rekeys input present ∧
      ((s.strict = true ∧ ∃ p ∈ present, s.Undeclared p.1) →
        ∃ names, s.ListsUndeclared present names ∧
          ∀ r, s.Coerces scope options (.hash input) r ↔ r = .error (.of (.unknownKeys names))) ∧
      (¬(s.strict = true ∧ ∃ p ∈ present, s.Undeclared p.1) →
        s.Resolves scope options present (s.Coerces scope options (.hash input))) := by
  obtain ⟨present, hp, hr⟩ := s.present_rekeys ht
  refine ⟨present, hr, fun hu => ?_, resolves_of_declared hn hp⟩
  exact ⟨_, unknown_listsUndeclared hr.distinct, coerces_hash_of_undeclared hp hu⟩

/-- A page of results, whose length fills in. -/
def pageSchema : Schema Ty Func where
  keys := [⟨.symbol "page", Ty.strict .int, true⟩,
    ⟨.symbol "size", .defaulted (Ty.strict .int) (.literal (.int 20)), false⟩]
  strict := true
  transform := .symbolize

/-- The page is given twice, and something else, too. -/
def pageInput : Entries :=
  [(.symbol "page", .int 1), (.string "page", .int 2), (.string "sort", .nil)]

theorem coerces_pageSchema :
    NamesDiffer pageSchema.keys ∧
    (∀ e ∈ pageInput, ∃ k, pageSchema.transform.apply e.1 = .ok k) ∧
    ∃ present, pageSchema.transform.Rekeys pageInput present ∧
      ∃ names, pageSchema.ListsUndeclared present names ∧
        ∀ r, pageSchema.Coerces (World.scope {}) {} (.hash pageInput) r ↔
          r = .error (.of (.unknownKeys names)) := by
  have hn : NamesDiffer pageSchema.keys := by simp [NamesDiffer, pageSchema]
  have ht : ∀ e ∈ pageInput, ∃ k, pageSchema.transform.apply e.1 = .ok k := by
    simp [pageInput, pageSchema, KeyTransform.apply]
  obtain ⟨present, hr, hstrict, -⟩ :=
    coerces_hash_resolves (World.scope {}) pageSchema {} pageInput hn ht
  refine ⟨hn, ht, present, hr, hstrict ⟨rfl, ?_⟩⟩
  obtain ⟨p, hp, hps⟩ := hr.covers (.string "sort", .nil) (by simp [pageInput]) (.symbol "sort") rfl
  refine ⟨p, hp, fun k hk => ?_⟩
  rw [BEq.congr_right hps]
  simp only [pageSchema, List.mem_cons, List.not_mem_nil, or_false] at hk
  rcases hk with rfl | rfl
  · rfl
  · rfl

theorem present_page (n : Int64) :
    pageSchema.present [(.string "page", .int n)] = .ok [(.symbol "page", .int n)] := by
  simp only [present, Entries.sorted, List.mergeSort_singleton]
  rfl

/-- A page alone is all it takes. -/
theorem coerces_page (n : Int64) :
    pageSchema.Coerces (World.scope {}) {} (.hash [(.string "page", .int n)])
      (.ok (.hash [(.symbol "page", .int n), (.symbol "size", .int 20)])) := by
  refine coerces_ok_iff.mpr ⟨_, present_page n, ?_, _, ⟨2, rfl⟩, rfl⟩
  rintro ⟨-, p, hp, hu⟩
  obtain rfl := List.mem_singleton.mp hp
  exact Bool.noConfusion (hu _ List.mem_cons_self)

end Conform.Schema
