import Conform.Schema

namespace Conform.Schema

section

variable (s : Schema Ty Func) (options : ApplyOptions) (present : Entries)

/-- A missing key gets its default, which is not asked for in vain. -/
def FillsIn (k : Key Ty) : Prop :=
  k.type.isDefault = true ∧ (options.resolveDefaults = true ∨ s.alwaysDefaults = true)

/-- The value on which the type of a declared key is called. -/
def Given (k : Key Ty) (v : Value) : Prop :=
  present.get? k.name = some v ∨
    present.get? k.name = none ∧ s.FillsIn options k ∧ v = .undefined

variable (ends : Ty → Value → Result Value → Prop)

/-- A declared key does not fail, given what calls of types end with. -/
def Satisfied (k : Key Ty) : Prop :=
  (∃ v w, present.get? k.name = some v ∧ ends k.type v (.ok w)) ∨
  (present.get? k.name = none ∧ s.FillsIn options k ∧ ∃ w, ends k.type .undefined (.ok w)) ∨
  (present.get? k.name = none ∧ ¬s.FillsIn options k ∧
    ¬(k.required = true ∧ options.skipMissing = false))

/-- The error with which a declared key fails. -/
inductive Refuses (k : Key Ty) : Error → Prop where
  | missing (hp : present.get? k.name = none) (hf : ¬s.FillsIn options k)
      (hr : k.required = true ∧ options.skipMissing = false) :
      Refuses k (.of (.missingKey k.name))
  | invalid {v : Value} {e : Error} (hv : s.Given options present k v)
      (he : ends k.type v (.error e)) : Refuses k (.of (.schema k.name v e))

end

section

variable {s : Schema Ty Func} {options : ApplyOptions} {present : Entries} {k : Key Ty}

theorem supply_eq_value {v : Value} :
    s.supply options present k = .value v ↔ s.Given options present k v := by
  unfold supply Given FillsIn
  cases hp : present.get? k.name with
  | some u => simp
  | none =>
    simp only [Bool.and_eq_true, Bool.or_eq_true]
    split
    next hf =>
      simp only [Supply.value.injEq, hf, reduceCtorEq, false_or, true_and]
      exact eq_comm
    next hf => split <;> simp [hf]

theorem supply_eq_missing :
    s.supply options present k = .missing ↔ present.get? k.name = none ∧ ¬s.FillsIn options k ∧
      k.required = true ∧ options.skipMissing = false := by
  unfold supply FillsIn
  cases hp : present.get? k.name with
  | some u => simp
  | none =>
    simp only [Bool.and_eq_true, Bool.or_eq_true, Bool.not_eq_true']
    split
    next hf => simp [hf]
    next hf => split <;> simp_all

theorem supply_eq_omitted :
    s.supply options present k = .omitted ↔ present.get? k.name = none ∧ ¬s.FillsIn options k ∧
      ¬(k.required = true ∧ options.skipMissing = false) := by
  unfold supply FillsIn
  cases hp : present.get? k.name with
  | some u => simp
  | none =>
    simp only [Bool.and_eq_true, Bool.or_eq_true, Bool.not_eq_true']
    split
    next hf => simp [hf]
    next hf => split <;> simp_all

variable {ends : Ty → Value → Result Value → Prop}

theorem satisfied_iff :
    s.Satisfied options present ends k ↔ s.supply options present k = .omitted ∨
      ∃ v w, s.supply options present k = .value v ∧ ends k.type v (.ok w) := by
  unfold Satisfied
  simp only [supply_eq_omitted, supply_eq_value, Given]
  constructor
  · rintro (⟨v, w, hp, hw⟩ | ⟨hp, hf, w, hw⟩ | ho)
    · exact Or.inr ⟨v, w, Or.inl hp, hw⟩
    · exact Or.inr ⟨.undefined, w, Or.inr ⟨hp, hf, rfl⟩, hw⟩
    · exact Or.inl ho
  · rintro (ho | ⟨v, w, hp | ⟨hp, hf, rfl⟩, hw⟩)
    · exact Or.inr (Or.inr ho)
    · exact Or.inl ⟨v, w, hp, hw⟩
    · exact Or.inr (Or.inl ⟨hp, hf, w, hw⟩)

/-- A key whose evaluation ends is satisfied or fails. -/
theorem satisfied_or_refuses
    (h : ∀ v, s.Given options present k v → ∃ r, ends k.type v r) :
    s.Satisfied options present ends k ∨ ∃ e, s.Refuses options present ends k e := by
  rw [satisfied_iff]
  cases hs : s.supply options present k with
  | omitted => exact Or.inl (Or.inl rfl)
  | missing =>
    obtain ⟨hp, hf, hr⟩ := supply_eq_missing.mp hs
    exact Or.inr ⟨_, .missing hp hf hr⟩
  | value v =>
    have hv := supply_eq_value.mp hs
    obtain ⟨r, hr⟩ := h v hv
    cases r with
    | ok w => exact Or.inl (Or.inr ⟨v, w, rfl, hr⟩)
    | error e => exact Or.inr ⟨_, .invalid hv hr⟩

/-- Of keys that are each satisfied or fail, all are satisfied or one is the first that fails. -/
theorem satisfied_or_first_refuses {keys : List (Key Ty)}
    (h : ∀ k ∈ keys, s.Satisfied options present ends k ∨
      ∃ e, s.Refuses options present ends k e) :
    (∀ k ∈ keys, s.Satisfied options present ends k) ∨
      ∃ before k after e, keys = before ++ k :: after ∧
        (∀ j ∈ before, s.Satisfied options present ends j) ∧
        s.Refuses options present ends k e := by
  induction keys with
  | nil => exact Or.inl (by simp)
  | cons k ks ih =>
    obtain ⟨hk, hks⟩ := List.forall_mem_cons.mp h
    rcases hk with hk | ⟨e, hk⟩
    · rcases ih hks with hok | ⟨before, l, after, e, rfl, hbefore, hl⟩
      · exact Or.inl (List.forall_mem_cons.mpr ⟨hk, hok⟩)
      · refine Or.inr ⟨k :: before, l, after, e, rfl, ?_, hl⟩
        exact List.forall_mem_cons.mpr ⟨hk, hbefore⟩
    · exact Or.inr ⟨[], k, ks, e, rfl, by simp, hk⟩

end

end Conform.Schema
