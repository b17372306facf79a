import Conform.Proofs.Primitive
import Conform.Proofs.Ty.Acceptance
import Conform.Proofs.Ty.Class

/-!
What a type accepts, and the class that it is about. The two are found apart from each other: a
trial stops at the first side of a sum that accepts the value, while the class of a sum is that of
both sides, and nil does not count on the left. So what is accepted is of the class, or else it is
nil.
-/

namespace Conform

theorem Schema.eq_hash_of_attempt {order : Iteration} {s : Schema Ty Func}
    {f : Ty → Value → Run Outcome} {options : ApplyOptions} {input v : Value}
    (h : s.attempt order f options input = .ok (.success v)) : ∃ entries, v = .hash entries := by
  cases input with
  | hash entries =>
    simp only [Schema.attempt] at h
    split at h
    next => cases h
    next =>
      obtain ⟨results, -, h⟩ := bind_eq_ok.mp h
      exact ⟨_, (outcome_eq_success.mp (pure_eq_ok.mp h)).2⟩
  | _ => cases h

namespace Ty

open Relation

/-- What a type accepts is what another one has accepted. -/
inductive RestsOn (scope : Scope) : Ty → Ty → Prop
  | asks {ty u : Ty} (h : Asks scope ty u) : RestsOn scope ty u
  | constrained {inner : Ty} {rule : Rule} {set : PredicateSet} :
    RestsOn scope (constrained inner rule set) inner

/-- What is accepted does not come from a default, though parts of it may. -/
def Undefaulted (scope : Scope) (ty : Ty) : Prop :=
  ∀ inner value, ¬ReflTransGen (RestsOn scope) ty (defaulted inner value)

/-- A layer that may accept nil, whatever the class. -/
def AllowsNil : Ty → Prop
  | sum _ _ _ | maybe _ => True
  | _ => False

/-- A value is of the class of a type, unless it is nil, which some layer below the type allows. -/
def Belongs (scope : Scope) (ty : Ty) (p : Primitive) (v : Value) : Prop :=
  p.admits v = true ∨ v = .nil ∧ ∃ u, ReflTransGen (RestsOn scope) ty u ∧ u.AllowsNil

section

variable {scope : Scope} {ty u : Ty} {p : Primitive} {input v : Value}

theorem Undefaulted.steps (h : ty.Undefaulted scope) (run : ReflTransGen (RestsOn scope) ty u) :
    u.Undefaulted scope :=
  fun inner value rest => h inner value (run.trans rest)

theorem Belongs.above (run : ReflTransGen (RestsOn scope) ty u) (h : u.Belongs scope p v) :
    ty.Belongs scope p v := by
  rcases h with hadmits | ⟨hnil, w, rest, hw⟩
  · exact Or.inl hadmits
  · exact Or.inr ⟨hnil, w, run.trans rest, hw⟩

theorem Belongs.of_allowsNil (h : ty.AllowsNil) (hv : v ≠ .nil → p.admits v = true) :
    ty.Belongs scope p v := by
  by_cases hnil : v = .nil
  · exact Or.inr ⟨hnil, ty, .refl, h⟩
  · exact Or.inl (hv hnil)

/-- Either side of a sum keeps to the class of the whole, except for nil. -/
theorem admits_either {l r : Primitive} (hv : v ≠ .nil)
    (h : l.admits v = true ∨ r.admits v = true) :
    (if l = .nil then r else if l = r then l else .any).admits v = true := by
  by_cases hl : l = .nil
  · rw [if_pos hl]
    refine h.resolve_left fun hadmits => hv ?_
    exact Primitive.admits_nil_iff.mp (hl ▸ hadmits)
  · rw [if_neg hl]
    by_cases heq : l = r
    · rw [if_pos heq]
      rcases h with h | h
      · exact h
      · exact heq ▸ h
    · rw [if_neg heq]
      rfl

/-- What a trial accepts belongs to the type. -/
theorem Undefaulted.belongs (h : ty.Undefaulted scope) {fuel : Nat}
    (hp : primitive scope fuel ty = .ok p)
    (hv : attempt scope fuel ty input = .ok (.success v)) : ty.Belongs scope p v := by
  induction fuel generalizing ty p input v with
  | zero => simp [attempt] at hv
  | succ fuel ih =>
    -- Most layers hand on both the class and what is accepted.
    have hinner : ∀ {inner : Ty} {w : Value}, RestsOn scope ty inner →
        primitive scope fuel inner = .ok p → attempt scope fuel inner w = .ok (.success v) →
        ty.Belongs scope p v :=
      fun step hp hv => (ih (h.steps (.single step)) hp hv).above (.single step)
    cases ty with
    | nominal q info =>
      obtain rfl := Except.ok.inj hp
      obtain ⟨hadmits, rfl⟩ := nominal_eq_success.mp hv
      exact Or.inl hadmits
    | constrained inner rule set => exact hinner .constrained hp (constrained_eq_success.mp hv).1
    | converted inner functions =>
      obtain ⟨w, -, hv⟩ := converted_eq_success.mp hv
      exact hinner (.asks .converted) hp hv
    | sum left right info =>
      obtain ⟨l, hl, hp⟩ := bind_eq_ok.mp hp
      obtain ⟨r, hr, hp⟩ := bind_eq_ok.mp hp
      obtain rfl := pure_eq_ok.mp hp
      refine .of_allowsNil trivial fun hnil => admits_either hnil ?_
      rcases sum_eq_success.mp hv with hv | ⟨-, hv⟩
      · have hleft := ih (h.steps (.single (.asks .left))) hl hv
        exact Or.inl (hleft.resolve_right fun hright => hnil hright.1)
      · have hright := ih (h.steps (.single (.asks .right))) hr hv
        exact Or.inr (hright.resolve_right fun hleft => hnil hleft.1)
    | defaulted inner value => exact absurd .refl (h inner value)
    | enum inner values => exact hinner (.asks .enum) hp hv
    | array member info =>
      obtain rfl := Except.ok.inj hp
      obtain ⟨items, outcomes, -, -, -, rfl⟩ := array_eq_success.mp hv
      exact Or.inl rfl
    | map key value info =>
      obtain rfl := Except.ok.inj hp
      obtain ⟨entries, outcomes, -, -, hv⟩ := map_eq_success.mp hv
      obtain ⟨-, rfl⟩ := Schema.outcome_eq_success.mp hv
      exact Or.inl rfl
    | schema s =>
      obtain rfl := Except.ok.inj hp
      obtain ⟨entries, rfl⟩ := Schema.eq_hash_of_attempt hv
      exact Or.inl rfl
    | safe inner => exact hinner (.asks .safe) hp hv
    | lax inner => exact hinner (.asks .lax) hp hv
    | maybe inner =>
      rcases maybe_eq_success.mp hv with ⟨-, rfl⟩ | ⟨-, hv⟩
      · exact .of_allowsNil trivial fun hnil => absurd rfl hnil
      · exact hinner (.asks .maybe) hp hv
    | reference r =>
      obtain ⟨t, hfound, hv⟩ := reference_eq_success.mp hv
      have hsteps : ReflTransGen (RestsOn scope) (reference r) t :=
        steps_of_follow (fun hty => .asks (.reference hty)) hfound
      rw [primitive, hfound] at hp
      exact (ih (h.steps hsteps) hp hv).above hsteps

/-- Without a default in its way, what a type accepts when it is tried is of the class that the type
is about, or nil. It is nil for a class that has no nil only by way of a sum or a maybe type. -/
theorem Undefaulted.instance_or_nil (h : ty.Undefaulted scope)
    (hp : ∃ fuel, primitive scope fuel ty = .ok p) (hv : ty.Attempts scope input (.success v)) :
    (p.admits v = true ∨ v = .nil) ∧
    (v = .nil → p ≠ .nil → p ≠ .any →
      ∃ u, ReflTransGen (RestsOn scope) ty u ∧ u.AllowsNil) := by
  obtain ⟨fuel, hp⟩ := hp
  obtain ⟨more, hv⟩ := hv
  have hp := primitive_mono (Nat.le_max_left fuel more) hp
  have hv := attempt_mono (Nat.le_max_right fuel more) hv
  have hbelongs := h.belongs hp hv
  refine ⟨hbelongs.imp_right And.left, ?_⟩
  rintro rfl hnil hany
  rcases hbelongs with hadmits | ⟨-, hallows⟩
  · simp [Primitive.admits, Value.primitive, hany, Ne.symm hnil] at hadmits
  · exact hallows

end

/-- Words, which may be left out. -/
def wordScope : Scope where
  find _ _ := .ok (.ok (.maybe (strict .string)))

def word : Ty :=
  .safe (.reference { registry := 0, identifier := "word" })

theorem undefaulted_word : word.Undefaulted wordScope := by
  let P (t : Ty) : Prop := t = word ∨ (∃ r, t = .reference r) ∨ t = .maybe (strict .string) ∨
    t = strict .string ∨ t = .nominal .string {}
  have hstep : ∀ {t u}, P t → RestsOn wordScope t u → P u := by
    rintro t u (rfl | ⟨r, rfl⟩ | rfl | rfl | rfl) (step | step)
    · cases step
      exact Or.inr (Or.inl ⟨_, rfl⟩)
    · cases step with
      | reference hty =>
        have hword : wordScope.Holds r.entry (.maybe (strict .string)) := rfl
        obtain rfl := hty.unique hword
        exact Or.inr (Or.inr (Or.inl rfl))
    · cases step
      exact Or.inr (Or.inr (Or.inr (Or.inl rfl)))
    · cases step
    · exact Or.inr (Or.inr (Or.inr (Or.inr rfl)))
    · cases step
  intro inner value run
  have hlast : P (defaulted inner value) := holds_of_steps hstep (Or.inl rfl) run
  rcases hlast with h | ⟨_, h⟩ | h | h | h <;> cases h

theorem instance_or_nil_word :
    word.Undefaulted wordScope ∧ primitive wordScope 5 word = .ok .string ∧
    word.Attempts wordScope .undefined (.success .nil) ∧
    ∃ u, ReflTransGen (RestsOn wordScope) word u ∧ u.AllowsNil := by
  have hp : primitive wordScope 5 word = .ok .string := rfl
  have hv : word.Attempts wordScope .undefined (.success .nil) := ⟨5, rfl⟩
  obtain ⟨-, hallows⟩ := undefaulted_word.instance_or_nil ⟨5, hp⟩ hv
  exact ⟨undefaulted_word, hp, hv, hallows rfl (by decide) (by decide)⟩

end Ty

end Conform
