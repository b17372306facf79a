import Conform.Proofs.Ty.References

/-!
Asking whether a value is accepted, and trying it. The question is handed on layer by layer until a
layer answers it by a trial of its own. It has the answer of the trial as long as it meets no
default; a default is tried on nil without a look at its type, but asked about nil it asks its type.
-/

namespace Conform

open Relation

theorem isSuccess_after (x : Run Outcome) :
    (do return (← x).isSuccess : Run Bool) = x.map Outcome.isSuccess := by
  cases x with
  | error e => rfl
  | ok o => rfl

namespace Ty

/-- Asking a type about a value ends, at some depth, with an answer. -/
def Accepts (scope : Scope) (ty : Ty) (input : Value) (b : Bool) : Prop :=
  ∃ fuel, ty.accepts scope fuel input = .ok b

theorem accepts_below {scope : Scope} {fuel more : Nat} (hle : fuel ≤ more) (ty : Ty)
    (input : Value) : Below (accepts scope fuel ty input) (accepts scope more ty input) := by
  induction fuel generalizing more ty input with
  | zero => intro b h; cases h
  | succ fuel ih =>
    have htried : Below (attempt scope (fuel + 1) ty input) (attempt scope more ty input) :=
      attempt_extends hle ty input
    obtain ⟨more, rfl⟩ : ∃ n, more = n + 1 := ⟨more - 1, by omega⟩
    have hle : fuel ≤ more := by omega
    cases ty with
    | nominal p info => exact .refl _
    | constrained _ _ _ | array _ _ | map _ _ _ | schema _ => exact htried.bind fun _ => .refl _
    | converted inner functions =>
      simp only [accepts]
      cases convert functions input with
      | error e => exact .refl _
      | ok v => exact ih hle inner v
    | sum left right info =>
      refine (ih hle left input).bind fun l => ?_
      cases l with
      | true => exact .refl _
      | false => exact ih hle right input
    | defaulted inner value | maybe inner => exact .ite (.refl _) (ih hle inner input)
    | enum inner values => exact ih hle inner _
    | safe inner | lax inner => exact ih hle inner input
    | reference r =>
      refine (Reference.follow_below hle [] _).bind fun found => ?_
      cases found with
      | error e => exact .refl _
      | ok ty => exact ih hle ty input

/-- More depth does not change the answer. -/
theorem accepts_mono {scope : Scope} {fuel more : Nat} {ty : Ty} {input : Value} {b : Bool}
    (hle : fuel ≤ more) (h : accepts scope fuel ty input = .ok b) :
    accepts scope more ty input = .ok b :=
  accepts_below hle ty input b h

theorem Accepts.unique {scope : Scope} {ty : Ty} {input : Value} {b c : Bool}
    (hb : ty.Accepts scope input b) (hc : ty.Accepts scope input c) : b = c :=
  outcome_unique accepts_mono hb hc

/-- A type that is asked about a value asks another one. -/
inductive Asks (scope : Scope) : Ty → Ty → Prop
  | converted {inner : Ty} {functions : List Func} : Asks scope (converted inner functions) inner
  | left {left right : Ty} {info : Metadata} : Asks scope (sum left right info) left
  | right {left right : Ty} {info : Metadata} : Asks scope (sum left right info) right
  | enum {inner : Ty} {values : List Value} : Asks scope (enum inner values) inner
  | safe {inner : Ty} : Asks scope (safe inner) inner
  | lax {inner : Ty} : Asks scope (lax inner) inner
  | maybe {inner : Ty} : Asks scope (maybe inner) inner
  | reference {r : Reference} {ty : Ty} (hty : scope.Holds r.entry ty) :
    Asks scope (reference r) ty

/-- No default is asked, however often the question is handed on. Members, keys and what is under
constraints may have defaults, since they are tried. -/
def DefaultFree (scope : Scope) (ty : Ty) : Prop :=
  ∀ inner value, ¬ReflTransGen (Asks scope) ty (defaulted inner value)

section

variable {scope : Scope} {ty u : Ty}

theorem DefaultFree.step (h : ty.DefaultFree scope) (hstep : Asks scope ty u) :
    u.DefaultFree scope :=
  fun inner value rest => h inner value (.head hstep rest)

theorem DefaultFree.steps (h : ty.DefaultFree scope) (hrun : ReflTransGen (Asks scope) ty u) :
    u.DefaultFree scope :=
  fun inner value rest => h inner value (hrun.trans rest)

/-- Following aliases is to go on step by step, if it is a step to go on with an entry. -/
theorem steps_of_follow {R : Ty → Ty → Prop}
    (hR : ∀ {r t}, scope.Holds (Reference.entry r) t → R (reference r) t) {fuel : Nat}
    {chain : List Reference} (h : Reference.follow scope fuel chain ty = .ok (.ok u)) :
    ReflTransGen R ty u := by
  induction fuel generalizing chain ty with
  | zero =>
    cases ty with
    | reference next => simp [Reference.follow] at h
    | _ =>
      obtain rfl := Except.ok.inj (Except.ok.inj h)
      exact .refl
  | succ fuel ih =>
    by_cases hty : ∃ r, ty = reference r
    · obtain ⟨r, rfl⟩ := hty
      simp only [Reference.follow] at h
      split at h
      next => cases h
      next =>
        obtain ⟨found, hfound, h⟩ := bind_eq_ok.mp h
        cases found with
        | error e => cases h
        | ok v =>
          have hholds : scope.Holds r.entry v := hfound
          exact .head (hR hholds) (ih h)
    · rw [Reference.follow_other fun r hr => hty ⟨r, hr⟩] at h
      obtain rfl := Except.ok.inj (Except.ok.inj h)
      exact .refl

/-- Without defaults on the way, the question is answered as the trial is, and at the same depth. -/
theorem DefaultFree.accepts_eq (h : ty.DefaultFree scope) (fuel : Nat) (input : Value) :
    accepts scope fuel ty input = (attempt scope fuel ty input).map Outcome.isSuccess := by
  induction fuel generalizing ty input with
  | zero => rfl
  | succ fuel ih =>
    cases ty with
    | nominal p info =>
      simp only [accepts, attempt]
      cases p.admits input with
      | true => rfl
      | false => rfl
    | defaulted inner value => exact absurd .refl (h inner value)
    | converted inner functions =>
      have hinner := h.step .converted
      simp only [accepts, attempt]
      split
      next v _ => exact ih hinner v
      next => rfl
    | sum left right info =>
      have hleft := ih (h.step .left) input
      have hright := ih (h.step .right) input
      simp only [accepts, attempt, hleft, hright]
      cases attempt scope fuel left input with
      | error e => rfl
      | ok o =>
        cases o with
        | success v => rfl
        | failure v e =>
          cases attempt scope fuel right input with
          | error e => rfl
          | ok o => cases o <;> rfl
    | enum inner values => exact ih (h.step .enum) (pick values input)
    | safe inner => exact ih (h.step .safe) input
    | lax inner => exact ih (h.step .lax) input
    | maybe inner =>
      have hinner := ih (h.step .maybe) input
      simp only [accepts, attempt]
      split
      next => rfl
      next => exact hinner
    | reference r =>
      simp only [accepts, attempt]
      cases hfound : r.resolve scope fuel with
      | error e => rfl
      | ok found =>
        cases found with
        | error e => rfl
        | ok v => exact ih (h.steps (steps_of_follow .reference hfound)) input
    | constrained _ _ _ | array _ _ | map _ _ _ | schema _ => exact isSuccess_after _

theorem accepts_iff_of_eq {input : Value} {b : Bool}
    (h : ∀ fuel, accepts scope fuel ty input =
      (attempt scope fuel ty input).map Outcome.isSuccess) :
    ty.Accepts scope input b ↔ ∃ o, ty.Attempts scope input o ∧ o.isSuccess = b := by
  constructor
  · rintro ⟨fuel, hb⟩
    rw [h, map_eq_ok] at hb
    obtain ⟨o, ho, hsuccess⟩ := hb
    exact ⟨o, ⟨fuel, ho⟩, hsuccess⟩
  · rintro ⟨o, ⟨fuel, ho⟩, hsuccess⟩
    have hb : accepts scope fuel ty input = .ok b := by
      rw [h, map_eq_ok]
      exact ⟨o, ho, hsuccess⟩
    exact ⟨fuel, hb⟩

theorem defaultFree_of_closed {P : Ty → Prop} (hstep : ∀ {t u}, P t → Asks scope t u → P u)
    (hno : ∀ inner value, ¬P (defaulted inner value)) (hty : P ty) : ty.DefaultFree scope := by
  intro inner value run
  exact hno inner value (holds_of_steps hstep hty run)

/-- Asking a type about a value has an answer exactly where trying the type on it has an outcome,
and the answer says whether the trial succeeds, provided that no default is asked. -/
theorem DefaultFree.accepts_iff_attempts (h : ty.DefaultFree scope) (input : Value) (b : Bool) :
    ty.Accepts scope input b ↔ ∃ o, ty.Attempts scope input o ∧ o.isSuccess = b :=
  accepts_iff_of_eq fun fuel => h.accepts_eq fuel input

/-- Chains of links that end in nil. The weight of a link fills in when it is left out. -/
def chainLink : Ty :=
  .sum (.nominal .nil {})
    (.schema
      { keys :=
          [⟨.symbol "next", .maybe (.reference { registry := 0, identifier := "chain" }), true⟩,
           ⟨.symbol "weight", .defaulted (.strict .int) (.literal (.int 1)), false⟩] }) {}

def chainScope : Scope where
  find _ _ := .ok (.ok chainLink)

def safeChain : Ty :=
  .safe (.reference { registry := 0, identifier := "chain" })

theorem defaultFree_safeChain : safeChain.DefaultFree chainScope := by
  -- The question stops at the keys, so the default below them is not asked.
  let P (t : Ty) : Prop := (∃ r, t = safe (.reference r)) ∨ (∃ r, t = .reference r) ∨
    t = chainLink ∨ t = .nominal .nil {} ∨ ∃ s, t = .schema s
  have hstep : ∀ {t u}, P t → Asks chainScope t u → P u := by
    intro t u ht step
    rcases ht with ⟨r, rfl⟩ | ⟨r, rfl⟩ | rfl | rfl | ⟨s, rfl⟩
    · cases step with
      | safe => exact Or.inr (Or.inl ⟨r, rfl⟩)
    · cases step with
      | reference hty =>
        have hlink : chainScope.Holds r.entry chainLink := rfl
        obtain rfl := hty.unique hlink
        exact Or.inr (Or.inr (Or.inl rfl))
    · cases step with
      | left => exact Or.inr (Or.inr (Or.inr (Or.inl rfl)))
      | right => exact Or.inr (Or.inr (Or.inr (Or.inr ⟨_, rfl⟩)))
    · cases step
    · cases step
  have hno : ∀ inner value, ¬P (defaulted inner value) := by
    intro inner value h
    simp [P, chainLink] at h
  exact defaultFree_of_closed hstep hno (Or.inl ⟨_, rfl⟩)

theorem accepts_iff_attempts_safeChain :
    safeChain.DefaultFree chainScope ∧
    ∀ b, safeChain.Accepts chainScope
        (.hash [(.symbol "next", .hash [(.symbol "next", .nil), (.symbol "weight", .nil)])]) b ↔
      ∃ o, safeChain.Attempts chainScope
        (.hash [(.symbol "next", .hash [(.symbol "next", .nil), (.symbol "weight", .nil)])]) o ∧
          o.isSuccess = b :=
  ⟨defaultFree_safeChain, defaultFree_safeChain.accepts_iff_attempts _⟩

/-- Any value but nil is treated alike by a default that is asked and one that is tried. -/
theorem DefaultFree.accepts_defaulted_eq (h : ty.DefaultFree scope) (v : Value) {input : Value}
    (hinput : input ≠ .nil) (fuel : Nat) :
    accepts scope fuel (defaulted ty (.literal v)) input =
      (attempt scope fuel (defaulted ty (.literal v)) input).map Outcome.isSuccess := by
  cases fuel with
  | zero => rfl
  | succ fuel =>
    by_cases hundefined : input = .undefined
    · rw [hundefined]
      rfl
    have hasked : input.isUndefined = false := by
      cases input with
      | undefined => exact absurd rfl hundefined
      | _ => rfl
    have htried : input.isAbsent = false := by
      cases input with
      | undefined => exact absurd rfl hundefined
      | nil => exact absurd rfl hinput
      | _ => rfl
    have hinner := h.accepts_eq fuel input
    simp only [accepts, attempt, hasked, htried, hinner, Bool.false_eq_true, if_false]
    cases attempt scope fuel ty input with
    | error e => rfl
    | ok o =>
      cases o with
      | failure w e => rfl
      | success w =>
        cases w with
        | nil => rfl
        | _ => rfl

/-- A default with a literal, over a type that asks no other default. Asked about a value other than
nil it answers as a trial would. A trial gives the literal for nil, but asked about nil it answers
as its type does. -/
theorem DefaultFree.accepts_defaulted (h : ty.DefaultFree scope) (v : Value) :
    (∀ input b, input ≠ .nil →
      ((defaulted ty (.literal v)).Accepts scope input b ↔
        ∃ o, (defaulted ty (.literal v)).Attempts scope input o ∧ o.isSuccess = b)) ∧
    (∀ o, (defaulted ty (.literal v)).Attempts scope .nil o ↔ o = .success v) ∧
    ∀ b, (defaulted ty (.literal v)).Accepts scope .nil b ↔
      ∃ o, ty.Attempts scope .nil o ∧ o.isSuccess = b := by
  refine ⟨fun input b hinput => ?_, fun o => ?_, fun b => ?_⟩
  · exact accepts_iff_of_eq fun fuel => h.accepts_defaulted_eq v hinput fuel
  · have htried : (defaulted ty (.literal v)).Attempts scope .nil (.success v) := ⟨1, rfl⟩
    exact ⟨fun ho => ho.unique htried, fun ho => ho ▸ htried⟩
  · have hasked : (defaulted ty (.literal v)).Accepts scope .nil b ↔ ty.Accepts scope .nil b := by
      constructor
      · rintro ⟨fuel, hb⟩
        cases fuel with
        | zero => simp [accepts] at hb
        | succ fuel => exact ⟨fuel, hb⟩
      · rintro ⟨fuel, hb⟩
        exact ⟨fuel + 1, hb⟩
    rw [hasked]
    exact accepts_iff_of_eq fun fuel => h.accepts_eq fuel .nil

end

theorem accepts_defaulted_safeChain :
    safeChain.DefaultFree chainScope ∧
    (∀ input b, input ≠ .nil →
      ((defaulted safeChain (.literal (.hash []))).Accepts chainScope input b ↔
        ∃ o, (defaulted safeChain (.literal (.hash []))).Attempts chainScope input o ∧
          o.isSuccess = b)) ∧
    (∀ o, (defaulted safeChain (.literal (.hash []))).Attempts chainScope .nil o ↔
      o = .success (.hash [])) ∧
    ∀ b, (defaulted safeChain (.literal (.hash []))).Accepts chainScope .nil b ↔
      ∃ o, safeChain.Attempts chainScope .nil o ∧ o.isSuccess = b :=
  ⟨defaultFree_safeChain, defaultFree_safeChain.accepts_defaulted (.hash [])⟩

/-- Asked about nil, integers with a default say no, although a trial and a call both give the
default. -/
theorem accepts_default_of_nil :
    (strict .int).DefaultFree chainScope ∧
    (defaulted (strict .int) (.literal (.int 1))).Accepts chainScope .nil false ∧
    (defaulted (strict .int) (.literal (.int 1))).Attempts chainScope .nil (.success (.int 1)) ∧
    (defaulted (strict .int) (.literal (.int 1))).Coerces chainScope .nil (.ok (.int 1)) := by
  have hstrict : (strict .int).DefaultFree chainScope := by
    refine defaultFree_of_closed (P := fun t => t = strict .int) ?_ ?_ rfl
    · rintro t u rfl step
      cases step
    · intro inner value h
      cases h
  exact ⟨hstrict, ⟨4, rfl⟩, ⟨1, rfl⟩, 1, rfl⟩

end Ty

end Conform
