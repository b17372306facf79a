import Conform.Family.Coercible
import Conform.Proofs.Ty.Loosened
import Conform.Proofs.Ty.Stripped
import Conform.Proofs.Ty.Visits

/-!
What becomes of a trial when the constraints of the type are removed. It accepts no less, but for
two things that an enum does besides constraining: it picks values by their indexes, and it hides
from a schema that the type below it fills in for what is missing.
-/

namespace Conform.Ty

open Relation

/-- Whatever fills in is a literal. -/
def LiteralNode : Ty → Prop
  | defaulted _ value => ∃ v, value = .literal v
  | _ => True

abbrev LiteralDefaults (ty : Ty) : Prop :=
  ty.Everywhere LiteralNode

/-- Where the trial of one type on a value ends, that of another one does, and accepts the value if
the first one does. -/
def Relaxes (scope : Scope) (ty ty' : Ty) (input : Value) : Prop :=
  ∀ o, ty.Attempts scope input o → ∃ o', ty'.Attempts scope input o' ∧ o.Eases o'

/-- The trial does not need what goes with the enums that it comes to: what is left of an enum that
is given an index does as well with the index itself, and the type of a missing key that fills in
only when no enum is around it is fit to do so, or at least ends if the key is required. -/
structure Spared (scope : Scope) (a : Ty × Value) : Prop where
  index : ∀ inner values v, ReflTransGen (Visits scope) a (enum inner values, v) →
    pick values v ≠ v → Relaxes scope (enum inner values) inner.strip v
  hidden : ∀ s entries present, ReflTransGen (Visits scope) a (schema s, .hash entries) →
    s.present entries = .ok present → ∀ k ∈ s.keys, present.get? k.name = none →
    k.type.isDefault = false → k.type.strip.isDefault = true →
    ∃ o, k.type.strip.Attempts scope .undefined o ∧ (k.required = false → o.isSuccess = true)

section

variable {scope : Scope} {ty : Ty} {input : Value}

theorem Spared.step {a b : Ty × Value} (h : Spared scope a) (hstep : Visits scope a b) :
    Spared scope b where
  index inner values v run := h.index inner values v (.head hstep run)
  hidden s entries present run := h.hidden s entries present (.head hstep run)

/-- Evaluations at one depth are compared at some other depth. -/
theorem Relaxes.easier {ty' : Ty} (h : Relaxes scope ty ty' input) (fuel : Nat) :
    ∃ more, Easier (attempt scope fuel ty input) (attempt scope more ty' input) := by
  cases ho : attempt scope fuel ty input with
  | error e => exact ⟨0, fun o ho => by cases ho⟩
  | ok o =>
    obtain ⟨o', ⟨more, ho'⟩, heases⟩ := h o ⟨fuel, ho⟩
    refine ⟨more, fun p hp => ?_⟩
    obtain rfl := Except.ok.inj hp
    exact ⟨o', ho', heases⟩

theorem isDefault_strip (h : ty.isDefault = true) : ty.strip.isDefault = true := by
  induction ty with
  | constrained _ _ _ ih | converted _ _ ih | safe _ ih => exact ih h
  | lax inner _ => exact h
  | defaulted _ _ _ => rfl
  | _ => cases h

/-- At some depths, what is left of a type does not do worse than the type. -/
abbrev EasedAt (scope : Scope) (ty : Ty) (input : Value) (fuel more : Nat) : Prop :=
  Easier (attempt scope fuel ty input) (attempt scope more ty.strip input)

/-- Nor does a key of what is left of a schema. -/
abbrev KeyEasedAt (scope : Scope) (s : Schema Ty Func) (present : Entries) (k : Key Ty)
    (fuel more : Nat) : Prop :=
  Schema.EasedKey (attempt scope fuel) (attempt scope more) k.type k.type.strip
    (s.supply {} present k) ((s.mapTypes strip).supply {} present { k with type := k.type.strip })

section

variable {s : Schema Ty Func} {present : Entries} {k : Key Ty} {fuel : Nat}

theorem exists_easedKey_of_given {v : Value} (hgiven : s.Given {} present k v)
    (hgiven' : (s.mapTypes strip).Given {} present { k with type := k.type.strip } v)
    (h : ∃ more, EasedAt scope k.type v fuel more) :
    ∃ more, KeyEasedAt scope s present k fuel more := by
  obtain ⟨more, heases⟩ := h
  refine ⟨more, ?_⟩
  unfold KeyEasedAt
  rw [Schema.supply_eq_value.mpr hgiven, Schema.supply_eq_value.mpr hgiven']
  refine .same fun w hw => ?_
  obtain rfl := Supply.value.inj hw
  exact heases

/-- The type of a missing key comes to fill in. -/
theorem exists_easedKey_of_hidden (hmissing : present.get? k.name = none)
    (hno : k.type.isDefault = false) (hstrip : k.type.strip.isDefault = true)
    (h : ∃ o, k.type.strip.Attempts scope .undefined o ∧
      (k.required = false → o.isSuccess = true)) :
    ∃ more, KeyEasedAt scope s present k fuel more := by
  obtain ⟨o, ⟨more, ho⟩, hsuccess⟩ := h
  have hfills : (s.mapTypes strip).Given {} present { k with type := k.type.strip } .undefined :=
    Or.inr ⟨hmissing, ⟨hstrip, Or.inl rfl⟩, rfl⟩
  have hbefore : s.supply {} present k = if k.required then .missing else .omitted := by
    simp [Schema.supply, hmissing, hno]
  refine ⟨more, ?_⟩
  unfold KeyEasedAt
  rw [Schema.supply_eq_value.mpr hfills, hbefore]
  by_cases hrequired : k.required = true
  · rw [if_pos hrequired]
    exact .missing ho
  · rw [if_neg hrequired]
    exact .omitted ho (hsuccess (Bool.eq_false_iff.mpr hrequired))

/-- A key is eased at some depth if its type is on each value that it is given. -/
theorem exists_easedKey {entries : Entries} (hspared : Spared scope (schema s, .hash entries))
    (hp : s.present entries = .ok present) (hk : k ∈ s.keys)
    (h : ∀ v, s.Given {} present k v → ∃ more, EasedAt scope k.type v fuel more) :
    ∃ more, KeyEasedAt scope s present k fuel more := by
  cases hvalue : present.get? k.name with
  | some v => exact exists_easedKey_of_given (Or.inl hvalue) (Or.inl hvalue) (h v (Or.inl hvalue))
  | none =>
    by_cases hdefault : k.type.isDefault = true
    · have hgiven : s.Given {} present k .undefined :=
        Or.inr ⟨hvalue, ⟨hdefault, Or.inl rfl⟩, rfl⟩
      have hgiven' : (s.mapTypes strip).Given {} present { k with type := k.type.strip }
          .undefined := Or.inr ⟨hvalue, ⟨isDefault_strip hdefault, Or.inl rfl⟩, rfl⟩
      exact exists_easedKey_of_given hgiven hgiven' (h .undefined hgiven)
    · have hno : k.type.isDefault = false := Bool.eq_false_iff.mpr hdefault
      by_cases hstrip : k.type.strip.isDefault = true
      · exact exists_easedKey_of_hidden hvalue hno hstrip
          (hspared.hidden s entries present .refl hp k hk hvalue hno hstrip)
      · have hsame : k.type.strip.isDefault = k.type.isDefault := by
          rw [hno, Bool.eq_false_iff.mpr hstrip]
        refine ⟨0, Schema.easedKey_of_isDefault hsame fun v hv => ?_⟩
        rcases hv with hv | ⟨-, hfills, -⟩
        · rw [hvalue] at hv
          cases hv
        · exact absurd hfills.1 hdefault

end

theorem exists_easedKeys {s : Schema Ty Func} {entries : Entries} {fuel : Nat}
    (hspared : Spared scope (schema s, .hash entries))
    (h : ∀ present, s.present entries = .ok present → ∀ k ∈ s.keys, ∀ v, s.Given {} present k v →
      ∃ more, EasedAt scope k.type v fuel more) :
    ∃ more, ∀ present, s.present entries = .ok present → ∀ k ∈ s.keys,
      KeyEasedAt scope s present k fuel more := by
  cases hp : s.present entries with
  | error e => exact ⟨0, fun present hok => by cases hok⟩
  | ok present =>
    have hkeys : ∀ k ∈ s.keys, ∃ more, KeyEasedAt scope s present k fuel more := by
      intro k hk
      exact exists_easedKey hspared hp hk (h present hp k hk)
    obtain ⟨more, heases⟩ := exists_depth (fun _ _ hle _ h => h.deepen hle) hkeys
    refine ⟨more, fun others hok => ?_⟩
    obtain rfl := Except.ok.inj hok
    exact heases

section

variable {inner : Ty} {fuel : Nat}

theorem exists_eased_converted {functions : List Func}
    (h : ∀ v, convert functions input = .ok v → ∃ more, EasedAt scope inner v fuel more) :
    ∃ more, EasedAt scope (converted inner functions) input (fuel + 1) more := by
  cases hv : convert functions input with
  | error e =>
    have heases : EasedAt scope (converted inner functions) input (fuel + 1) 1 := by
      refine attempt_converted_eased fun v hok => ?_
      cases hv.symm.trans hok
    exact ⟨1, heases⟩
  | ok v =>
    obtain ⟨more, heases⟩ := h v hv
    refine ⟨more + 1, attempt_converted_eased fun w hw => ?_⟩
    obtain rfl := Except.ok.inj (hv.symm.trans hw)
    exact heases

theorem exists_eased_sum {left right : Ty} {info : Metadata}
    (hl : ∃ more, EasedAt scope left input fuel more)
    (hr : (∃ v e, attempt scope fuel left input = .ok (.failure v e)) →
      ∃ more, EasedAt scope right input fuel more) :
    ∃ more, EasedAt scope (sum left right info) input (fuel + 1) more := by
  obtain ⟨more, hleft⟩ := hl
  by_cases hfails : ∃ v e, attempt scope fuel left input = .ok (.failure v e)
  · -- The right side is tried only now.
    obtain ⟨deeper, hright⟩ := hr hfails
    have hleft := hleft.deepen (Nat.le_max_left more deeper)
    have hright := hright.deepen (Nat.le_max_right more deeper)
    exact ⟨max more deeper + 1, attempt_sum_eased hleft fun _ _ _ => hright⟩
  · refine ⟨more + 1, attempt_sum_eased hleft fun v e ho => ?_⟩
    exact absurd ⟨v, e, ho⟩ hfails

theorem exists_eased_defaulted {v : Value}
    (h : input.isAbsent = false → ∃ more, EasedAt scope inner input fuel more) :
    ∃ more, EasedAt scope (defaulted inner (.literal v)) input (fuel + 1) more := by
  by_cases habsent : input.isAbsent = false
  · obtain ⟨more, heases⟩ := h habsent
    exact ⟨more + 1, attempt_defaulted_eased fun _ => heases⟩
  · exact ⟨1, attempt_defaulted_eased fun hpresent => absurd hpresent habsent⟩

theorem exists_eased_array {info : Metadata}
    (h : ∀ items, input = .array items → ∀ v ∈ items, ∃ more, EasedAt scope inner v fuel more) :
    ∃ more, EasedAt scope (array inner info) input (fuel + 1) more := by
  cases input with
  | array items =>
    obtain ⟨more, heases⟩ := exists_depth (fun _ _ hle _ h => h.deepen hle) (h items rfl)
    refine ⟨more + 1, attempt_array_eased fun others heq => ?_⟩
    obtain rfl := Value.array.inj heq
    exact heases
  | _ => exact ⟨1, .refl _⟩

theorem exists_eased_map {key value : Ty} {info : Metadata}
    (hk : ∀ entries, input = .hash entries → ∀ e ∈ entries, ∃ more, EasedAt scope key e.1 fuel more)
    (hv : ∀ entries, input = .hash entries → ∀ e ∈ entries,
      ∃ more, EasedAt scope value e.2 fuel more) :
    ∃ more, EasedAt scope (map key value info) input (fuel + 1) more := by
  cases input with
  | hash entries =>
    obtain ⟨more, hkeys⟩ := exists_depth (fun _ _ hle _ h => h.deepen hle) (hk entries rfl)
    obtain ⟨deeper, hvalues⟩ := exists_depth (fun _ _ hle _ h => h.deepen hle) (hv entries rfl)
    refine ⟨max more deeper + 1, attempt_map_eased fun others heq e he => ?_⟩
    obtain rfl := Value.hash.inj heq
    have hkey := (hkeys e he).deepen (Nat.le_max_left more deeper)
    have hvalue := (hvalues e he).deepen (Nat.le_max_right more deeper)
    exact ⟨hkey, hvalue⟩
  | _ => exact ⟨1, .refl _⟩

theorem exists_eased_schema {s : Schema Ty Func} (hspared : Spared scope (schema s, input))
    (h : ∀ entries present, input = .hash entries → s.present entries = .ok present →
      ∀ k ∈ s.keys, ∀ v, s.Given {} present k v → ∃ more, EasedAt scope k.type v fuel more) :
    ∃ more, EasedAt scope (schema s) input (fuel + 1) more := by
  cases input with
  | hash entries =>
    obtain ⟨more, heases⟩ := exists_easedKeys hspared fun present => h entries present rfl
    refine ⟨more + 1, ?_⟩
    simp only [EasedAt, strip_schema, attempt]
    refine Schema.attempt_eased fun others present heq hp => ?_
    obtain rfl := Value.hash.inj heq
    exact heases present hp
  | _ =>
    unfold EasedAt
    rw [strip_schema]
    exact ⟨1, .refl _⟩

theorem exists_eased_maybe
    (h : input.isAbsent = false → ∃ more, EasedAt scope inner input fuel more) :
    ∃ more, EasedAt scope (maybe inner) input (fuel + 1) more := by
  by_cases habsent : input.isAbsent = false
  · obtain ⟨more, heases⟩ := h habsent
    exact ⟨more + 1, attempt_maybe_eased fun _ => heases⟩
  · exact ⟨1, attempt_maybe_eased fun hpresent => absurd hpresent habsent⟩

end

/-- Without its constraints, a type that is spared ends and accepts wherever it does with them. -/
theorem LiteralDefaults.exists_easier_strip (h : ty.LiteralDefaults)
    (hspared : Spared scope (ty, input)) (fuel : Nat) :
    ∃ more, EasedAt scope ty input fuel more := by
  induction fuel generalizing ty input with
  | zero => exact ⟨0, fun o ho => by simp [attempt] at ho⟩
  | succ fuel ih =>
    cases ty with
    | nominal _ _ | reference _ => exact ⟨fuel + 1, .refl _⟩
    | lax inner => exact ⟨fuel, .refl _⟩
    | constrained inner rule set =>
      obtain ⟨more, heases⟩ := ih h.2 (hspared.step (.inl .constrained))
      exact ⟨more, attempt_constrained_eased heases⟩
    | converted inner functions =>
      exact exists_eased_converted fun v hv => ih h.2 (hspared.step (.inl (.converted hv)))
    | sum left right info =>
      refine exists_eased_sum (ih h.2.1 (hspared.step (.inl .left))) ?_
      rintro ⟨v, e, ho⟩
      exact ih h.2.2 (hspared.step (.inl (.right ⟨fuel, ho⟩)))
    | defaulted inner value =>
      obtain ⟨⟨v, rfl⟩, hinner⟩ := h
      exact exists_eased_defaulted fun hpresent =>
        ih hinner (hspared.step (.inl (.defaulted hpresent)))
    | enum inner values =>
      by_cases hpick : pick values input = input
      · have hinner := hspared.step (.inl .enum)
        rw [hpick] at hinner
        obtain ⟨more, heases⟩ := ih h.2 hinner
        refine ⟨more, ?_⟩
        simp only [EasedAt, attempt, hpick]
        exact heases
      · exact (hspared.index inner values input .refl hpick).easier (fuel + 1)
    | array member info =>
      refine exists_eased_array fun items hitems v hv => ih h.2 ?_
      subst hitems
      exact hspared.step (.inr (.item hv))
    | map key value info =>
      refine exists_eased_map (fun entries hentries e he => ih h.2.1 ?_)
        fun entries hentries e he => ih h.2.2 ?_
      · subst hentries
        exact hspared.step (.inr (.key he))
      · subst hentries
        exact hspared.step (.inr (.value he))
    | schema s =>
      refine exists_eased_schema hspared fun entries present hentries hp k hk v hv => ?_
      subst hentries
      exact ih (keysEverywhere_iff.mp h.2 k hk) (hspared.step (.inr (.declared hk hp hv)))
    | safe inner =>
      obtain ⟨more, heases⟩ := ih h.2 (hspared.step (.inl .safe))
      exact ⟨more + 1, heases⟩
    | maybe inner =>
      exact exists_eased_maybe fun hpresent => ih h.2 (hspared.step (.inl (.maybe hpresent)))

theorem Spared.of_closed {a : Ty × Value} {P : Ty × Value → Prop} (ha : P a)
    (hstep : ∀ {b c}, P b → Visits scope b c → P c)
    (hindex : ∀ inner values v, P (enum inner values, v) → pick values v ≠ v →
      Relaxes scope (enum inner values) inner.strip v)
    (hschema : ∀ s v, ¬P (schema s, v)) : Spared scope a := by
  constructor
  · intro inner values v run
    exact hindex inner values v (holds_of_steps hstep ha run)
  · intro s entries present run
    have hreached : P (schema s, .hash entries) := holds_of_steps hstep ha run
    exact absurd hreached (hschema s _)

/-- What a type accepts when it is tried, it accepts when its constraints are removed, provided that
its defaults are literals and that it does not need what goes with its enums. -/
theorem LiteralDefaults.attempts_toLax (h : ty.LiteralDefaults) (hspared : Spared scope (ty, input))
    {v : Value} (hv : ty.Attempts scope input (.success v)) :
    ∃ w, ty.toLax.Attempts scope input (.success w) := by
  obtain ⟨fuel, hv⟩ := hv
  obtain ⟨more, heases⟩ := h.exists_easier_strip hspared fuel
  obtain ⟨o, ho, hsuccess⟩ := heases _ hv
  rw [Outcome.eq_success (hsuccess rfl)] at ho
  have hlax : attempt scope (more + 1) ty.toLax input = .ok (.success o.input) := by
    rw [toLax_eq_lax_strip]
    exact ho
  exact ⟨o.input, more + 1, hlax⟩

end

/-- Some values of a class that is checked. -/
def choice (p : Primitive) (values : List Value) : Ty :=
  enum (constrained (nominal p {}) (.and (classRule p)
    (.predicate ⟨"included_in?", [.array values]⟩)) Standard.predicates) values

theorem enumeration_strict {scope : Scope} {fuel : Nat} {values : List Value} (h : values ≠ [])
    (p : Primitive) :
    (strict p).enumeration scope fuel values = .ok (.ok (choice p values)) := by
  cases values with
  | nil => exact absurd rfl h
  | cons v vs => rfl

/-- Tens, of which the first two are also known by their indexes. -/
def tens : Ty :=
  choice .int [.int 10, .int 20]

theorem spared_tens : Spared chainScope (array tens {}, .array [.int 0, .int 20]) := by
  -- What is tried below the array is an integer, and any integer will do without the constraints.
  let P (a : Ty × Value) : Prop := a = (array tens {}, .array [.int 0, .int 20]) ∨
    a = (tens, .int 0) ∨ a = (tens, .int 20) ∨
    (∃ rule set n, a = (constrained (nominal .int {}) rule set, .int n)) ∨
    ∃ n, a = (nominal .int {}, .int n)
  have hstep : ∀ {b c}, P b → Visits chainScope b c → P c := by
    rintro b c (rfl | rfl | rfl | ⟨rule, set, n, rfl⟩ | ⟨n, rfl⟩) (step | step)
    · cases step
    · cases step with
      | item hv =>
        simp only [List.mem_cons, List.not_mem_nil, or_false] at hv
        rcases hv with rfl | rfl
        · exact Or.inr (Or.inl rfl)
        · exact Or.inr (Or.inr (Or.inl rfl))
    · cases step
      exact Or.inr (Or.inr (Or.inr (Or.inl ⟨_, _, 10, rfl⟩)))
    · cases step
    · cases step
      exact Or.inr (Or.inr (Or.inr (Or.inl ⟨_, _, 20, rfl⟩)))
    · cases step
    · cases step
      exact Or.inr (Or.inr (Or.inr (Or.inr ⟨n, rfl⟩)))
    · cases step
    · cases step
    · cases step
  refine Spared.of_closed (P := P) (Or.inl rfl) hstep ?_ ?_
  · rintro inner values v (h | h | h | ⟨_, _, _, h⟩ | ⟨_, h⟩) - o ho
    · cases h
    · cases h
      exact ⟨_, ⟨1, rfl⟩, fun _ => rfl⟩
    · cases h
      exact ⟨_, ⟨1, rfl⟩, fun _ => rfl⟩
    · cases h
    · cases h
  · rintro s v (h | h | h | ⟨_, _, _, h⟩ | ⟨_, h⟩) <;> cases h

theorem attempts_toLax_tens :
    (strict .int).enumeration chainScope 5 [.int 10, .int 20] = .ok (.ok tens) ∧
    (array tens {}).LiteralDefaults ∧
    Spared chainScope (array tens {}, .array [.int 0, .int 20]) ∧
    (array tens {}).Attempts chainScope (.array [.int 0, .int 20])
      (.success (.array [.int 10, .int 20])) ∧
    ∃ w, (array tens {}).toLax.Attempts chainScope (.array [.int 0, .int 20]) (.success w) := by
  have hliteral : (array tens {}).LiteralDefaults := ⟨trivial, trivial, trivial, trivial⟩
  have hv : (array tens {}).Attempts chainScope (.array [.int 0, .int 20])
      (.success (.array [.int 10, .int 20])) := ⟨4, rfl⟩
  exact ⟨enumeration_strict (by simp) .int, hliteral, spared_tens, hv,
    hliteral.attempts_toLax spared_tens hv⟩

def letters : Ty :=
  choice .string [.string "a", .string "b"]

/-- The default is out of sight of the schema, so that nothing is converted when the key is
missing. -/
def hiddenDefault : Ty :=
  schema
    { keys :=
        [⟨.symbol "k",
          converted
            (enum (defaulted (constrained (nominal .int {}) (.and (classRule .int)
              (.predicate ⟨"included_in?", [.array [.int 5, .int 6]]⟩)) Standard.predicates)
              (.literal (.int 5))) [.int 5, .int 6])
            [⟨"coercible.to_integer", Coercible.integer⟩], false⟩] }

/-- Without the enum, an index is no letter, and the key that fills in converts nothing to an
integer. -/
theorem toLax_refuses :
    ((strict .string).enumeration chainScope 5 [.string "a", .string "b"] = .ok (.ok letters) ∧
      letters.LiteralDefaults ∧ letters.Attempts chainScope (.int 0) (.success (.string "a")) ∧
      ¬∃ w, letters.toLax.Attempts chainScope (.int 0) (.success w)) ∧
    hiddenDefault.LiteralDefaults ∧
    hiddenDefault.Attempts chainScope (.hash []) (.success (.hash [])) ∧
      ¬∃ w, hiddenDefault.toLax.Attempts chainScope (.hash []) (.success w) := by
  have hrefuses : ∀ {t : Ty} {v : Value}, (∃ u e, t.Attempts chainScope v (.failure u e)) →
      ¬∃ w, t.Attempts chainScope v (.success w) := by
    rintro t v ⟨u, e, ho⟩ ⟨w, hw⟩
    cases ho.unique hw
  have hkept : hiddenDefault.Attempts chainScope (.hash []) (.success (.hash [])) := by
    refine ⟨1, ?_⟩
    simp only [hiddenDefault, attempt, Schema.attempt, Schema.present, Entries.sorted,
      List.mergeSort_nil]
    rfl
  have hfills : hiddenDefault.toLax.Attempts chainScope (.hash []) (.failure (.hash [])
      (.keys [(.symbol "k", .refused .undefined
        "cannot coerce undefined: cannot be coerced to an integer")])) := by
    refine ⟨4, ?_⟩
    simp only [hiddenDefault, toLax, strip, stripKeys, attempt, Schema.attempt, Schema.present,
      Entries.sorted, List.mergeSort_nil]
    rfl
  refine ⟨⟨enumeration_strict (by simp) .string, ⟨trivial, trivial, trivial⟩, ⟨3, rfl⟩,
    hrefuses ⟨_, _, 2, rfl⟩⟩, ⟨trivial, ?_⟩, hkept, hrefuses ⟨_, _, hfills⟩⟩
  exact keysEverywhere_iff.mpr (by simp [Everywhere, LiteralNode])

end Conform.Ty
