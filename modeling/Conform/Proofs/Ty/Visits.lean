import Conform.Proofs.Schema.Present
import Conform.Proofs.Schema.Recorded
import Conform.Proofs.Ty.Refinement
import Mathlib.Logic.Relation

/-!
The types and values that the trial of a type comes to. Some steps stay with the value as a whole;
others enter an array, a hash or a schema and go on with a part of it. All of them go on with a part
of the type, until a reference is reached.
-/

namespace Conform

open Relation

/-- What each step keeps holds after any number of steps. -/
theorem holds_of_steps {α : Type} {R : α → α → Prop} {P : α → Prop} {a b : α}
    (hstep : ∀ {a b}, P a → R a b → P b) (ha : P a) (run : ReflTransGen R a b) : P b := by
  induction run with
  | refl => exact ha
  | tail _ step ih => exact hstep ih step

namespace Ty

/-- One step of a trial that enters no item, entry or key. -/
inductive Within (scope : Scope) : Ty × Value → Ty × Value → Prop
  | constrained {inner : Ty} {rule : Rule} {set : PredicateSet} {input : Value} :
    Within scope (constrained inner rule set, input) (inner, input)
  | converted {inner : Ty} {functions : List Func} {input v : Value}
    (hv : convert functions input = .ok v) :
    Within scope (converted inner functions, input) (inner, v)
  | left {left right : Ty} {info : Metadata} {input : Value} :
    Within scope (sum left right info, input) (left, input)
  | right {left right : Ty} {info : Metadata} {input v : Value} {e : Explanation}
    (hleft : left.Attempts scope input (.failure v e)) :
    Within scope (sum left right info, input) (right, input)
  | defaulted {inner : Ty} {value : Fallback Func} {input : Value}
    (hinput : input.isAbsent = false) :
    Within scope (defaulted inner value, input) (inner, input)
  | enum {inner : Ty} {values : List Value} {input : Value} :
    Within scope (enum inner values, input) (inner, pick values input)
  | safe {inner : Ty} {input : Value} : Within scope (safe inner, input) (inner, input)
  | lax {inner : Ty} {input : Value} : Within scope (lax inner, input) (inner, input)
  | maybe {inner : Ty} {input : Value} (hinput : input.isAbsent = false) :
    Within scope (maybe inner, input) (inner, input)

/-- One step of a trial into an array, a hash or a schema. -/
inductive Enters : Ty × Value → Ty × Value → Prop
  | item {member : Ty} {info : Metadata} {items : List Value} {v : Value} (hv : v ∈ items) :
    Enters (array member info, .array items) (member, v)
  | key {key value : Ty} {info : Metadata} {entries : Entries} {e : Value × Value}
    (he : e ∈ entries) : Enters (map key value info, .hash entries) (key, e.1)
  | value {key value : Ty} {info : Metadata} {entries : Entries} {e : Value × Value}
    (he : e ∈ entries) : Enters (map key value info, .hash entries) (value, e.2)
  | declared {s : Schema Ty Func} {entries present : Entries} {k : Key Ty} {v : Value}
    (hk : k ∈ s.keys) (hp : s.present entries = .ok present) (hv : s.Given {} present k v) :
    Enters (schema s, .hash entries) (k.type, v)

/-- One step of a trial. -/
def Visits (scope : Scope) (a b : Ty × Value) : Prop :=
  Within scope a b ∨ Enters a b

/-- The trial of a type ends on a value. -/
def Ends (scope : Scope) (ty : Ty) (input : Value) : Prop :=
  ∃ o, ty.Attempts scope input o

section

variable {scope : Scope} {ty : Ty} {input : Value}

theorem Ends.coerces (h : ty.Ends scope input) : ∃ r, ty.Coerces scope input r := by
  obtain ⟨o, fuel, ho⟩ := h
  obtain ⟨r, hr⟩ := coerce_ends ho
  exact ⟨r, fuel, hr⟩

theorem ends_array {member : Ty} {info : Metadata} {items : List Value}
    (h : ∀ v ∈ items, member.Ends scope v) : (array member info).Ends scope (.array items) := by
  have hitems : ∀ v ∈ items, ∃ fuel o, attempt scope fuel member v = .ok o := by
    intro v hv
    obtain ⟨o, fuel, ho⟩ := h v hv
    exact ⟨fuel, o, ho⟩
  obtain ⟨fuel, outcomes, hos⟩ := mapM_at_depth (fun _ _ hle => attempt_extends hle member) hitems
  refine ⟨ofItems outcomes, fuel + 1, ?_⟩
  simp only [attempt, hos]
  rfl

theorem ends_map {key value : Ty} {info : Metadata} {entries : Entries}
    (h : ∀ e ∈ entries, key.Ends scope e.1 ∧ value.Ends scope e.2) :
    (map key value info).Ends scope (.hash entries) := by
  have hmono : ∀ fuel more, fuel ≤ more →
      Extends (attemptEntry (attempt scope fuel key) (attempt scope fuel value))
        (attemptEntry (attempt scope more key) (attempt scope more value)) :=
    fun _ _ hle => attemptEntry_extends (attempt_extends hle key) (attempt_extends hle value)
  have hentries : ∀ e ∈ Entries.sorted entries, ∃ fuel r,
      attemptEntry (attempt scope fuel key) (attempt scope fuel value) e = .ok r := by
    intro e he
    obtain ⟨⟨k, a, hk⟩, v, b, hv⟩ := h e ((Entries.sorted_perm entries).mem_iff.mp he)
    have hk := attempt_mono (Nat.le_max_left a b) hk
    have hv := attempt_mono (Nat.le_max_right a b) hv
    exact ⟨max a b, (e.1, k, v), attemptEntry_eq_ok.mpr ⟨k, v, hk, hv, rfl⟩⟩
  obtain ⟨fuel, outcomes, hos⟩ := mapM_at_depth hmono hentries
  refine ⟨ofEntries outcomes, fuel + 1, ?_⟩
  simp only [attempt, hos]
  rfl

theorem ends_schema {s : Schema Ty Func} {entries : Entries}
    (h : ∀ present, s.present entries = .ok present →
      ∀ k ∈ s.keys, ∀ v, s.Given {} present k v → k.type.Ends scope v) :
    (schema s).Ends scope (.hash entries) := by
  cases hp : s.present entries with
  | error e =>
    refine ⟨.refused (.hash entries) e.message, 1, ?_⟩
    simp only [attempt, Schema.attempt, hp]
  | ok present =>
    obtain ⟨fuel, results, hr⟩ := Schema.attemptKeys_of_attempts (h present hp)
    obtain ⟨fuel, ho⟩ := (Schema.attempts_hash_iff hp).mpr ⟨fuel, results, hr, rfl⟩
    exact ⟨_, fuel + 1, ho⟩

theorem ends_constrained {inner : Ty} (h : inner.Ends scope input) (rule : Rule)
    (set : PredicateSet) : (constrained inner rule set).Ends scope input := by
  obtain ⟨o, fuel, ho⟩ := h
  cases o with
  | success v => exact ⟨check rule set v, fuel + 1, by simp only [attempt, ho]; rfl⟩
  | failure v e => exact ⟨.failure v e, fuel + 1, by simp only [attempt, ho]; rfl⟩

/-- The right side is tried only when the left one is known to fail. -/
theorem ends_sum {left right : Ty} {info : Metadata} (hl : left.Ends scope input)
    (hr : ∀ v e, left.Attempts scope input (.failure v e) → right.Ends scope input) :
    (sum left right info).Ends scope input := by
  obtain ⟨o, fuel, ho⟩ := hl
  cases o with
  | success v => exact ⟨.success v, fuel + 1, by simp only [attempt, ho]; rfl⟩
  | failure v e =>
    obtain ⟨p, more, hp⟩ := hr v e ⟨fuel, ho⟩
    have ho := attempt_mono (Nat.le_max_left fuel more) ho
    have hp := attempt_mono (Nat.le_max_right fuel more) hp
    cases p with
    | success w => exact ⟨.success w, max fuel more + 1, by simp only [attempt, ho, hp]; rfl⟩
    | failure w f =>
      exact ⟨.failure w (.list [e, f]), max fuel more + 1, by simp only [attempt, ho, hp]; rfl⟩

theorem ends_defaulted {inner : Ty} {value : Fallback Func}
    (h : input.isAbsent = false → inner.Ends scope input) :
    (defaulted inner value).Ends scope input := by
  cases ha : input.isAbsent with
  | true => exact ⟨_, 1, by simp only [attempt, ha, if_true]; rfl⟩
  | false =>
    obtain ⟨o, fuel, ho⟩ := h ha
    have hends : ∃ p, attempt scope (fuel + 1) (defaulted inner value) input = .ok p := by
      simp only [attempt, ha, ho, ok_bind, Bool.false_eq_true, if_false]
      split
      · exact ⟨_, rfl⟩
      · exact ⟨_, rfl⟩
    obtain ⟨p, hp⟩ := hends
    exact ⟨p, fuel + 1, hp⟩

/-- A trial ends when all that it visits in one step do, unless it is that of a reference. -/
theorem ends_of_steps (hty : ∀ r, ty ≠ reference r)
    (h : ∀ u v, Visits scope (ty, input) (u, v) → u.Ends scope v) : ty.Ends scope input := by
  cases ty with
  | nominal p info =>
    by_cases hp : p.admits input = true
    · exact ⟨.success input, 1, by simp [attempt, hp]⟩
    · exact ⟨_, 1, by simp [attempt, hp]; rfl⟩
  | constrained inner rule set =>
    exact ends_constrained (h inner input (.inl .constrained)) rule set
  | converted inner functions =>
    cases hv : convert functions input with
    | error e => exact ⟨.refused input e.message, 1, by simp only [attempt, hv]⟩
    | ok v =>
      obtain ⟨o, fuel, ho⟩ := h inner v (.inl (.converted hv))
      exact ⟨o, fuel + 1, by simp only [attempt, hv, ho]⟩
  | sum left right info =>
    exact ends_sum (h left input (.inl .left)) fun _ _ hleft =>
      h right input (.inl (.right hleft))
  | defaulted inner value => exact ends_defaulted fun ha => h inner input (.inl (.defaulted ha))
  | enum inner values =>
    obtain ⟨o, fuel, ho⟩ := h inner _ (.inl .enum)
    exact ⟨o, fuel + 1, by simp only [attempt, ho]⟩
  | array member info =>
    cases input with
    | array items => exact ends_array fun v hv => h member v (.inr (.item hv))
    | _ => exact ⟨_, 1, by simp only [attempt]; rfl⟩
  | map key value info =>
    cases input with
    | hash entries =>
      exact ends_map fun e he => ⟨h key e.1 (.inr (.key he)), h value e.2 (.inr (.value he))⟩
    | _ => exact ⟨_, 1, by simp only [attempt]; rfl⟩
  | schema s =>
    cases input with
    | hash entries =>
      exact ends_schema fun present hp k hk v hv => h k.type v (.inr (.declared hk hp hv))
    | _ => exact ⟨_, 1, by simp only [attempt, Schema.attempt]; rfl⟩
  | safe inner =>
    obtain ⟨o, fuel, ho⟩ := h inner input (.inl .safe)
    exact ⟨o, fuel + 1, by simp only [attempt, ho]⟩
  | lax inner =>
    obtain ⟨o, fuel, ho⟩ := h inner input (.inl .lax)
    exact ⟨o, fuel + 1, by simp only [attempt, ho]⟩
  | maybe inner =>
    cases ha : input.isAbsent with
    | true => exact ⟨.success .nil, 1, by simp only [attempt, ha, if_true]⟩
    | false =>
      obtain ⟨o, fuel, ho⟩ := h inner input (.inl (.maybe ha))
      exact ⟨o, fuel + 1, by simp [attempt, ha, ho]⟩
  | reference r => exact absurd rfl (hty r)

theorem Within.sizeOf_lt {a b : Ty × Value} (h : Within scope a b) :
    sizeOf b.1 < sizeOf a.1 := by
  cases h
  all_goals
    simp
    try omega

theorem sizeOf_type_lt {s : Schema Ty Func} {k : Key Ty} (hk : k ∈ s.keys) :
    sizeOf k.type < sizeOf (schema s) := by
  have hmem := List.sizeOf_lt_of_mem hk
  obtain ⟨keys, _, _, _, _⟩ := s
  obtain ⟨name, type, required⟩ := k
  simp at hmem ⊢
  omega

theorem Enters.sizeOf_lt {a b : Ty × Value} (h : Enters a b) : sizeOf b.1 < sizeOf a.1 := by
  cases h with
  | declared hk => exact sizeOf_type_lt hk
  | _ =>
    simp
    try omega

/-- What is entered is a smaller part of the value, or undefined. -/
theorem Enters.sizeOf_value_lt {a b : Ty × Value} (h : Enters a b) :
    sizeOf b.2 < sizeOf a.2 := by
  have hentry : ∀ {entries : Entries} {e : Value × Value}, e ∈ entries →
      sizeOf e.1 < sizeOf (Value.hash entries) ∧ sizeOf e.2 < sizeOf (Value.hash entries) := by
    intro entries e he
    have hmem := List.sizeOf_lt_of_mem he
    obtain ⟨k, v⟩ := e
    simp at hmem ⊢
    omega
  cases h with
  | item hv =>
    have hmem := List.sizeOf_lt_of_mem hv
    simp
    omega
  | key he => exact (hentry he).1
  | value he => exact (hentry he).2
  | declared _ hp hv =>
    rcases hv with hv | ⟨-, -, rfl⟩
    · obtain ⟨e, he, rfl⟩ := Schema.mem_of_present hp hv
      exact (hentry he).2
    · have hpos : ∀ entries : Entries, 0 < sizeOf entries := by
        intro entries
        cases entries
        all_goals
          simp only [List.nil.sizeOf_spec, List.cons.sizeOf_spec]
          omega
      simp [hpos]

/-- The trial of a type ends if it does for each reference on each value that it comes to. -/
theorem ends_of_references
    (h : ∀ r v, ReflTransGen (Visits scope) (ty, input) (reference r, v) →
      (reference r).Ends scope v) : ty.Ends scope input := by
  induction hn : sizeOf ty using Nat.strongRecOn generalizing ty input with
  | ind n ih =>
    subst hn
    by_cases hty : ∃ r, ty = reference r
    · obtain ⟨r, rfl⟩ := hty
      exact h r input .refl
    · refine ends_of_steps (fun r hr => hty ⟨r, hr⟩) fun u v hstep => ?_
      have hlt : sizeOf u < sizeOf ty := by
        rcases hstep with hstep | hstep
        · exact hstep.sizeOf_lt
        · exact hstep.sizeOf_lt
      exact ih _ hlt (fun r w hrest => h r w (.head hstep hrest)) rfl

end

end Ty

end Conform
