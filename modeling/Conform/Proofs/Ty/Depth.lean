import Conform.Proofs.Run
import Conform.Ty.Evaluate

namespace Conform

namespace Schema

section

variable {f g : Ty → Value → Run Outcome} {supply : Key Ty → Supply}

theorem attemptKeys_extends (h : ∀ ty, Extends (f ty) (g ty)) :
    Extends (attemptKeys f supply) (attemptKeys g supply) := by
  intro keys
  induction keys with
  | nil => exact .refl _
  | cons k ks ih =>
    unfold attemptKeys
    cases supply k with
    | omitted => exact ih
    | missing => exact ih.bind fun _ => .refl _
    | value v => exact (h k.type v).bind fun _ => ih.bind fun _ => .refl _

theorem attempt_extends (h : ∀ ty, Extends (f ty) (g ty)) (order : Iteration) (s : Schema Ty Func)
    (options : ApplyOptions) : Extends (s.attempt order f options) (s.attempt order g options) := by
  intro input
  cases input with
  | hash entries =>
    simp only [Schema.attempt]
    cases s.present entries with
    | error e => exact .refl _
    | ok present => exact (attemptKeys_extends h s.keys).bind fun _ => .refl _
  | _ => exact .refl _

end

section

variable {f g : Ty → Value → Run (Result Value)} {supply : Key Ty → Supply}

theorem coerceKeys_extends (h : ∀ ty, Extends (f ty) (g ty)) (keys : List (Key Ty)) :
    Extends (coerceKeys f supply keys) (coerceKeys g supply keys) := by
  induction keys with
  | nil => exact fun _ => .refl _
  | cons k ks ih =>
    intro output
    unfold coerceKeys
    cases supply k with
    | omitted => exact ih output
    | missing => exact .refl _
    | value v =>
      refine (h k.type v).bind fun r => ?_
      cases r with
      | error e => exact .refl _
      | ok w => exact ih _

theorem coerce_extends (h : ∀ ty, Extends (f ty) (g ty)) (order : Iteration) (s : Schema Ty Func)
    (options : ApplyOptions) : Extends (s.coerce order f options) (s.coerce order g options) := by
  intro input
  cases input with
  | hash entries =>
    simp only [Schema.coerce]
    cases s.present entries with
    | error e => exact .refl _
    | ok present =>
      exact .ite (.refl _) ((coerceKeys_extends h s.keys []).bind fun _ => .refl _)
  | _ => exact .refl _

end

end Schema

namespace Reference

variable {scope : Scope} {fuel more : Nat}

theorem follow_below (hle : fuel ≤ more) (chain : List Reference) (ty : Ty) :
    Below (follow scope fuel chain ty) (follow scope more chain ty) := by
  induction fuel generalizing more chain ty with
  | zero =>
    intro r h
    cases ty with
    | reference next => cases h
    | _ => simpa only [follow] using h
  | succ fuel ih =>
    obtain ⟨more, rfl⟩ : ∃ n, more = n + 1 := ⟨more - 1, by omega⟩
    cases ty with
    | reference next =>
      refine .ite (.refl _) (Below.bind (.refl _) fun found => ?_)
      cases found with
      | error e => exact .refl _
      | ok ty => exact ih (by omega) _ ty
    | _ => exact .refl _

/-- More depth does not change what aliases lead to. -/
theorem follow_mono {chain : List Reference} {ty : Ty} {r : Result Ty} (hle : fuel ≤ more)
    (h : follow scope fuel chain ty = .ok r) : follow scope more chain ty = .ok r :=
  follow_below hle chain ty r h

end Reference

namespace Ty

theorem attemptEntry_eq_ok {key value : Value → Run Outcome} {e : Value × Value}
    {r : Value × Outcome × Outcome} :
    attemptEntry key value e = .ok r ↔
      ∃ k v, key e.1 = .ok k ∧ value e.2 = .ok v ∧ r = (e.1, k, v) := by
  simp only [attemptEntry, bind_eq_ok, pure_eq_ok]
  constructor
  · rintro ⟨k, hk, v, hv, rfl⟩
    exact ⟨k, v, hk, hv, rfl⟩
  · rintro ⟨k, v, hk, hv, rfl⟩
    exact ⟨k, hk, v, hv, rfl⟩

theorem attemptEntry_extends {key value key' value' : Value → Run Outcome}
    (hk : Extends key key') (hv : Extends value value') :
    Extends (attemptEntry key value) (attemptEntry key' value') :=
  fun e => (hk e.1).bind fun _ => (hv e.2).bind fun _ => .refl _

section

variable {scope : Scope} {fuel more : Nat}

theorem attempt_extends (hle : fuel ≤ more) (ty : Ty) :
    Extends (attempt scope fuel ty) (attempt scope more ty) := by
  induction fuel generalizing more ty with
  | zero => intro input o h; cases h
  | succ fuel ih =>
    obtain ⟨more, rfl⟩ : ∃ n, more = n + 1 := ⟨more - 1, by omega⟩
    have hle : fuel ≤ more := by omega
    have hext : ∀ ty, Extends (attempt scope fuel ty) (attempt scope more ty) := ih hle
    intro input
    cases ty with
    | nominal p info => exact .refl _
    | constrained inner rule set => exact (hext inner input).bind fun _ => .refl _
    | converted inner functions =>
      simp only [attempt]
      cases convert functions input with
      | error e => exact .refl _
      | ok v => exact hext inner v
    | sum left right info =>
      refine (hext left input).bind fun o => ?_
      cases o with
      | success v => exact .refl _
      | failure v e => exact (hext right input).bind fun _ => .refl _
    | defaulted inner value =>
      exact .ite (.refl _) ((hext inner input).bind fun _ => .refl _)
    | enum inner values => exact hext inner _
    | array member info =>
      cases input with
      | array items => exact ((hext member).mapM items).bind fun _ => .refl _
      | _ => exact .refl _
    | map key value info =>
      cases input with
      | hash entries =>
        exact ((attemptEntry_extends (hext key) (hext value)).mapM _).bind fun _ => .refl _
      | _ => exact .refl _
    | schema s => exact s.attempt_extends hext _ {} input
    | safe inner | lax inner => exact hext inner input
    | maybe inner => exact .ite (.refl _) (hext inner input)
    | reference r =>
      refine (Reference.follow_below hle [] _).bind fun found => ?_
      cases found with
      | error e => exact .refl _
      | ok ty => exact hext ty input

/-- More depth does not change the outcome of a trial. -/
theorem attempt_mono {ty : Ty} {input : Value} {o : Outcome} (hle : fuel ≤ more)
    (h : attempt scope fuel ty input = .ok o) : attempt scope more ty input = .ok o :=
  attempt_extends hle ty input o h

theorem coerceItems_extends {call call' : Value → Run (Result Value)} (h : Extends call call')
    (index : Nat) : Extends (coerceItems call index) (coerceItems call' index) := by
  intro items
  induction items generalizing index with
  | nil => exact .refl _
  | cons item items ih =>
    refine (h item).bind fun r => ?_
    cases r with
    | error e => exact .refl _
    | ok v => exact (ih (index + 1)).bind fun _ => .refl _

theorem coerceEntries_extends {key key' value value' : Value → Run (Result Value)}
    (hk : Extends key key') (hv : Extends value value') (entries : Entries) :
    Extends (coerceEntries key value entries) (coerceEntries key' value' entries) := by
  induction entries with
  | nil => exact fun _ => .refl _
  | cons e entries ih =>
    intro output
    refine (hk e.1).bind fun k => ?_
    cases k with
    | error _ => exact .refl _
    | ok k =>
      refine (hv e.2).bind fun v => ?_
      cases v with
      | error _ => exact .refl _
      | ok v => exact ih _

theorem coerce_extends (hle : fuel ≤ more) (ty : Ty) :
    Extends (coerce scope fuel ty) (coerce scope more ty) := by
  induction fuel generalizing more ty with
  | zero => intro input r h; cases h
  | succ fuel ih =>
    obtain ⟨more, rfl⟩ : ∃ n, more = n + 1 := ⟨more - 1, by omega⟩
    have hle : fuel ≤ more := by omega
    have hext : ∀ ty, Extends (coerce scope fuel ty) (coerce scope more ty) := ih hle
    intro input
    cases ty with
    | nominal p info => exact .refl _
    | constrained inner rule set => exact (hext inner input).bind fun _ => .refl _
    | converted inner functions =>
      simp only [coerce]
      cases convert functions input with
      | error e => exact .refl _
      | ok v => exact hext inner v
    | sum left right info =>
      refine (attempt_extends hle left input).bind fun o => ?_
      cases o with
      | success v => exact .refl _
      | failure v e => exact hext right input
    | defaulted inner value =>
      exact .ite (.refl _) ((hext inner input).bind fun _ => .refl _)
    | enum inner values => exact hext inner _
    | array member info =>
      cases input with
      | array items => exact (coerceItems_extends (hext member) 0 items).bind fun _ => .refl _
      | _ => exact .refl _
    | map key value info =>
      cases input with
      | hash entries =>
        exact (coerceEntries_extends (hext key) (hext value) _ []).bind fun _ => .refl _
      | _ => exact .refl _
    | schema s => exact s.coerce_extends hext _ {} input
    | safe inner | lax inner => exact (hext inner input).bind fun _ => .refl _
    | maybe inner => exact .ite (.refl _) (hext inner input)
    | reference r =>
      refine (Reference.follow_below hle [] _).bind fun found => ?_
      cases found with
      | error e => exact .refl _
      | ok ty => exact hext ty input

/-- More depth does not change the result of a conversion. -/
theorem coerce_mono {ty : Ty} {input : Value} {r : Result Value} (hle : fuel ≤ more)
    (h : coerce scope fuel ty input = .ok r) : coerce scope more ty input = .ok r :=
  coerce_extends hle ty input r h

end

/-- Trying a type on a value ends, at some depth, with an outcome. -/
def Attempts (scope : Scope) (ty : Ty) (input : Value) (o : Outcome) : Prop :=
  ∃ fuel, ty.attempt scope fuel input = .ok o

/-- Converting a value by a type ends, at some depth, with a result. -/
def Coerces (scope : Scope) (ty : Ty) (input : Value) (r : Result Value) : Prop :=
  ∃ fuel, ty.coerce scope fuel input = .ok r

theorem Attempts.unique {scope : Scope} {ty : Ty} {input : Value} {o o' : Outcome}
    (h : ty.Attempts scope input o) (h' : ty.Attempts scope input o') : o = o' :=
  outcome_unique attempt_mono h h'

theorem Coerces.unique {scope : Scope} {ty : Ty} {input : Value} {r r' : Result Value}
    (h : ty.Coerces scope input r) (h' : ty.Coerces scope input r') : r = r' :=
  outcome_unique coerce_mono h h'

theorem Attempts.iff {scope : Scope} {ty : Ty} {input : Value} {o o' : Outcome}
    (h : ty.Attempts scope input o) : ty.Attempts scope input o' ↔ o' = o :=
  ⟨fun h' => h'.unique h, fun heq => heq ▸ h⟩

theorem Coerces.iff {scope : Scope} {ty : Ty} {input : Value} {r r' : Result Value}
    (h : ty.Coerces scope input r) : ty.Coerces scope input r' ↔ r' = r :=
  ⟨fun h' => h'.unique h, fun heq => heq ▸ h⟩

end Ty

namespace Schema

/-- Trying a schema with options on a value ends, at some depth, with an outcome. -/
def Attempts (scope : Scope) (s : Schema Ty Func) (options : ApplyOptions) (input : Value)
    (o : Outcome) : Prop :=
  ∃ fuel, s.attempt scope.iteration (Ty.attempt scope fuel) options input = .ok o

/-- Converting a value by a schema with options ends, at some depth, with a result. -/
def Coerces (scope : Scope) (s : Schema Ty Func) (options : ApplyOptions) (input : Value)
    (r : Result Value) : Prop :=
  ∃ fuel, s.coerce scope.iteration (Ty.coerce scope fuel) options input = .ok r

theorem Coerces.unique {scope : Scope} {s : Schema Ty Func} {options : ApplyOptions}
    {input : Value} {r r' : Result Value} (h : s.Coerces scope options input r)
    (h' : s.Coerces scope options input r') : r = r' := by
  exact outcome_unique (fun hle => s.coerce_extends (Ty.coerce_extends hle) _ options input _) h h'

end Schema

end Conform
