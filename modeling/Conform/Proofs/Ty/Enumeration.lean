import Conform.Proofs.Ty.Asking
import Conform.Proofs.Ty.Vocabulary
import Conform.Proofs.Value.Equality

/-!
Types that list their values. A listed value stands for itself, and an index for the value at it;
what is neither is left to the type, which has to give a listed value.
-/

namespace Conform

namespace Ty

/-- A value is in a list, up to equality. -/
def Listed (values : List Value) (v : Value) : Prop :=
  values.any (· == v) = true

/-- An integer is an index of a list, and is not in it. -/
def Indexes (values : List Value) (index : Int64) : Prop :=
  ¬Listed values (.int index) ∧ 0 ≤ index.toInt ∧ index.toInt < values.length

/-- One type does with one value what another one does with another value. -/
structure DoesAlike (scope : Scope) (a : Ty) (x : Value) (b : Ty) (y : Value) : Prop where
  called : ∀ r, a.Coerces scope x r ↔ b.Coerces scope y r
  tried : ∀ o, a.Attempts scope x o ↔ b.Attempts scope y o
  asked : ∀ answer, a.Accepts scope x answer ↔ b.Accepts scope y answer

/-- A type gives listed values only: those that another one gives for them, those at the indexes,
and for other values what is given under a constraint. -/
structure Lists (scope : Scope) (values : List Value) (ty limited e : Ty) : Prop where
  called_listed : ∀ x v, e.Coerces scope x (.ok v) → Listed values v
  tried_listed : ∀ x v, e.Attempts scope x (.success v) → Listed values v
  called_kept : ∀ m v, Listed values m → (m == v) = true → ty.Coerces scope m (.ok v) →
    e.Coerces scope m (.ok v)
  tried_kept : ∀ m v, Listed values m → (m == v) = true → ty.Attempts scope m (.success v) →
    e.Attempts scope m (.success v)
  index : ∀ index, Indexes values index → ∃ v, values[index.toInt.toNat]? = some v ∧
    DoesAlike scope e (.int index) e v
  other : ∀ x, (∀ index, Indexes values index → x ≠ .int index) → DoesAlike scope e x limited x

section

variable {values : List Value} {v w x : Value} {index : Int64}

theorem Listed.congr (h : Listed values v) (heq : (v == w) = true) : Listed values w := by
  obtain ⟨m, hm, hmv⟩ := List.any_eq_true.mp h
  exact List.any_eq_true.mpr ⟨m, hm, Value.beq_trans hmv heq⟩

theorem listed_of_mem (h : v ∈ values) : Listed values v :=
  List.any_eq_true.mpr ⟨v, h, Value.beq_refl v⟩

theorem pick_of_listed (h : Listed values v) : pick values v = v :=
  if_pos h

theorem pick_index (h : Indexes values index) : ∃ v, values[index.toInt.toNat]? = some v ∧
    pick values (.int index) = v ∧ pick values v = v := by
  obtain ⟨hnot, hlower, hupper⟩ := h
  have hlt : index.toInt.toNat < values.length := by omega
  have hget : values[index.toInt.toNat]? = some values[index.toInt.toNat] :=
    List.getElem?_eq_getElem hlt
  refine ⟨_, hget, ?_, pick_of_listed (listed_of_mem (List.getElem_mem hlt))⟩
  have hnot : values.any (· == .int index) = false := Bool.eq_false_iff.mpr hnot
  simp only [pick, hnot, Bool.false_eq_true, if_false, if_pos hlower, hget, Option.getD_some]

theorem pick_other (h : ∀ index, Indexes values index → x ≠ .int index) : pick values x = x := by
  by_cases hlisted : Listed values x
  · exact pick_of_listed hlisted
  · have hnot : values.any (· == x) = false := Bool.eq_false_iff.mpr hlisted
    cases x with
    | int index =>
      by_cases hlower : 0 ≤ index.toInt
      · have hupper : values.length ≤ index.toInt.toNat := by
          by_contra hlt
          exact h index ⟨hlisted, hlower, by omega⟩ rfl
        have hget : values[index.toInt.toNat]? = none := List.getElem?_eq_none hupper
        simp only [pick, hnot, Bool.false_eq_true, if_false, if_pos hlower, hget, Option.getD_none]
      · simp only [pick, hnot, Bool.false_eq_true, if_false, if_neg hlower]
    | _ => simp only [pick, hnot, Bool.false_eq_true, if_false]

variable {scope : Scope} {ty inner : Ty} {set : PredicateSet} {rule : Rule}

theorem coerces_enum_iff {r : Result Value} :
    (enum inner values).Coerces scope x r ↔ inner.Coerces scope (pick values x) r := by
  apply exists_fuel_iff
  intro h
  cases h

/-- The rule that a value is in a list. -/
def listRule (values : List Value) : Rule :=
  .predicate ⟨"included_in?", [.array values]⟩

theorem holds_listRule :
    ((listRule values).judge Standard.predicates v).holds = true ↔ Listed values v :=
  Iff.rfl

theorem lists_enum (hset : ty.judgedBy Standard.predicates = Standard.predicates) :
    Lists scope values ty (ty.restrict Standard.predicates (listRule values))
      (enum (ty.restrict Standard.predicates (listRule values)) values) := by
  constructor
  · intro x v h
    have hboth := (coerces_restrict_iff ty Standard.predicates).mp (coerces_enum_iff.mp h)
    rw [hset] at hboth
    exact holds_listRule.mp hboth.2
  · intro x v h
    have hboth := (attempts_restrict_iff ty Standard.predicates).mp (attempts_enum_iff.mp h)
    rw [hset] at hboth
    exact holds_listRule.mp hboth.2
  · intro m v hm heq h
    rw [coerces_enum_iff, pick_of_listed hm, coerces_restrict_iff, hset, holds_listRule]
    exact ⟨h, hm.congr heq⟩
  · intro m v hm heq h
    rw [attempts_enum_iff, pick_of_listed hm, attempts_restrict_iff, hset, holds_listRule]
    exact ⟨h, hm.congr heq⟩
  · intro index hindex
    obtain ⟨v, hget, hpick, hself⟩ := pick_index hindex
    refine ⟨v, hget, ?_, ?_, ?_⟩
    · intro r
      rw [coerces_enum_iff, coerces_enum_iff, hpick, hself]
    · intro o
      rw [attempts_enum_iff, attempts_enum_iff, hpick, hself]
    · intro answer
      rw [accepts_enum_iff, accepts_enum_iff, hpick, hself]
  · intro x hx
    refine ⟨?_, ?_, ?_⟩
    · intro r
      rw [coerces_enum_iff, pick_other hx]
    · intro o
      rw [attempts_enum_iff, pick_other hx]
    · intro answer
      rw [accepts_enum_iff, pick_other hx]

/-- Listing the values of a type succeeds unless the type hands constraints on, or is a sum whose
left class is not found. Then listed values are all that is given, and an index stands for the value
at it. -/
theorem enumeration_lists (h : ¬ty.HandsOn scope) (hset : ty.vocabulary = Standard.predicates)
    (hne : values ≠ []) :
    ((∀ left right info, ty = sum left right info →
        ∃ fuel p, left.primitive scope fuel = .ok p) →
      ∃ fuel e, ty.enumeration scope fuel values = .ok (.ok e)) ∧
    ∀ fuel r, ty.enumeration scope fuel values = .ok r → ∃ e limited, r = .ok e ∧
      ty.constrain scope fuel [("included_in", .array values)] none = .ok (.ok limited) ∧
      Lists scope values ty limited e := by
  have hbuild : ∀ fuel, ty.Bears scope fuel →
      ty.constrain scope fuel [("included_in", .array values)] none =
        .ok (.ok (ty.restrict Standard.predicates (listRule values))) := by
    intro fuel hbears
    rw [hbears.constrain, Option.getD_none, hset]
    rfl
  have henum : ∀ fuel, ty.enumeration scope fuel values =
      around (fun t => enum t values)
        (ty.constrain scope fuel [("included_in", .array values)] none) := by
    intro fuel
    have hsome : values.isEmpty = false := by simpa using hne
    unfold Ty.enumeration
    rw [hsome, if_neg Bool.false_ne_true]
    exact return_map_eq _ _
  constructor
  · intro hclass
    obtain ⟨fuel, hbears⟩ := exists_bears h hclass
    refine ⟨fuel, enum (ty.restrict Standard.predicates (listRule values)) values, ?_⟩
    rw [henum, hbuild fuel hbears]
    rfl
  · intro fuel r hr
    have hbears : ty.Bears scope fuel := by
      rw [henum] at hr
      obtain ⟨u, hu, -⟩ := map_eq_ok.mp hr
      exact bears_of_constrain h hu
    have hr' := henum fuel
    rw [hbuild fuel hbears, hr] at hr'
    obtain rfl := Except.ok.inj hr'
    have hown : ty.judgedBy Standard.predicates = Standard.predicates := by
      cases ty with
      | constrained inner rule set => exact hset
      | _ => rfl
    exact ⟨_, _, rfl, hbuild fuel hbears, lists_enum hown⟩

end

/-- Of the integers 1, 0 and 7, the first two are also indexes, of each other; they stand for
themselves, and 2 stands for 7. -/
theorem enumeration_lists_seven :
    (¬(strict .int).HandsOn chainScope ∧ (strict .int).vocabulary = Standard.predicates ∧
      [Value.int 1, .int 0, .int 7] ≠ []) ∧
    ∃ fuel e, (strict .int).enumeration chainScope fuel [.int 1, .int 0, .int 7] = .ok (.ok e) ∧
      e.Coerces chainScope (.int 0) (.ok (.int 0)) ∧
      e.Coerces chainScope (.int 2) (.ok (.int 7)) := by
  have hbears : ¬(strict .int).HandsOn chainScope := fun h => h
  have hne : [Value.int 1, .int 0, .int 7] ≠ [] := List.cons_ne_nil _ _
  obtain ⟨hbuilds, hlaw⟩ := enumeration_lists hbears rfl hne
  obtain ⟨fuel, e, he⟩ := hbuilds fun _ _ _ h => by cases h
  obtain ⟨e', limited, heq, hlimited, hlists⟩ := hlaw fuel _ he
  obtain rfl := Except.ok.inj heq
  have hkept : ∀ n, Listed [.int 1, .int 0, .int 7] (.int n) →
      e.Coerces chainScope (.int n) (.ok (.int n)) := by
    intro n hn
    have hgiven : (strict .int).Coerces chainScope (.int n) (.ok (.int n)) := ⟨2, rfl⟩
    exact hlists.called_kept _ _ hn (Value.beq_refl _) hgiven
  have hindex : Indexes [.int 1, .int 0, .int 7] 2 := by
    refine ⟨?_, by decide, by decide⟩
    intro h
    cases h
  obtain ⟨v, hv, halike⟩ := hlists.index 2 hindex
  obtain rfl := Option.some.inj hv
  exact ⟨⟨hbears, rfl, hne⟩, fuel, e, he, hkept 0 rfl, (halike.called _).mpr (hkept 7 rfl)⟩

end Ty

end Conform
