import Conform.Proofs.Ty.Accepting
import Conform.Proofs.Ty.Ending
import Conform.Ty.Build

namespace Conform

/-- What a trial accepts is converted to the same value. -/
def Refines (attempt : Value → Run Outcome) (call : Value → Run (Result Value)) : Prop :=
  ∀ input v, attempt input = .ok (.success v) → call input = .ok (.ok v)

namespace Schema

/-- When no key fails, trying and converting the keys give the same output. -/
theorem coerceKeys_of_attemptKeys {attempt : Ty → Value → Run Outcome}
    {call : Ty → Value → Run (Result Value)} (h : ∀ ty, Refines (attempt ty) (call ty))
    {supply : Key Ty → Supply} {keys : List (Key Ty)} {results : List (Value × Outcome)}
    (hr : attemptKeys attempt supply keys = .ok results)
    (hs : ∀ r ∈ results, r.2.isSuccess = true) (output : Entries) :
    coerceKeys call supply keys output =
      .ok (.ok (results.foldl (fun es r => keep es r.1 r.2.input) output)) := by
  induction keys generalizing results output with
  | nil =>
    obtain rfl := Except.ok.inj hr
    rfl
  | cons k ks ih =>
    unfold attemptKeys at hr
    unfold coerceKeys
    cases hk : supply k with
    | omitted => exact ih (by simpa only [hk] using hr) hs output
    | missing =>
      simp only [hk, bind_eq_ok, pure_eq_ok] at hr
      obtain ⟨rest, _, rfl⟩ := hr
      exact absurd (hs _ List.mem_cons_self) (by simp [Outcome.refused, Outcome.isSuccess])
    | value v =>
      simp only [hk, bind_eq_ok, pure_eq_ok] at hr
      obtain ⟨o, ho, rest, hrest, rfl⟩ := hr
      obtain ⟨hso, hsrest⟩ := List.forall_mem_cons.mp hs
      obtain ⟨w, rfl⟩ : ∃ w, o = .success w := ⟨_, Outcome.eq_success hso⟩
      simp only [h k.type v w ho]
      exact ih hrest hsrest (keep output k.name w)

/-- A schema that refines key by key does so as a whole. -/
theorem coerce_of_attempt {attempt : Ty → Value → Run Outcome}
    {call : Ty → Value → Run (Result Value)} (h : ∀ ty, Refines (attempt ty) (call ty))
    (order : Iteration) (s : Schema Ty Func) (options : ApplyOptions) :
    Refines (s.attempt order attempt options) (s.coerce order call options) := by
  intro input v hv
  unfold Schema.attempt at hv
  unfold Schema.coerce
  split at hv
  next entries =>
    cases hp : s.present entries with
    | error e => simp [hp, Outcome.refused] at hv
    | ok present =>
      simp only [hp, bind_eq_ok, pure_eq_ok, outcome_eq_success] at hv
      obtain ⟨results, hr, hs, rfl⟩ := hv
      rw [List.forall_mem_append] at hs
      have hu : ¬(s.strict && !(s.unknown order present).isEmpty) = true := by
        intro hu
        obtain ⟨hstrict, hne⟩ := Bool.and_eq_true_iff.mp hu
        obtain ⟨e, he⟩ : ∃ e, e ∈ s.unknown order present := by
          apply List.exists_mem_of_ne_nil
          simpa using hne
        have hmem : (e.1, Outcome.refused e.2 "is not allowed") ∈
            if s.strict then
              (s.unknown order present).map fun e => (e.1, Outcome.refused e.2 "is not allowed")
            else [] := by
          rw [if_pos hstrict]
          exact List.mem_map_of_mem he
        have hsuccess := hs.2 _ hmem
        exact Bool.noConfusion hsuccess
      simp only [hu, coerceKeys_of_attemptKeys h hr hs.1 []]
      rfl
  next => simp [Outcome.refused] at hv

end Schema

namespace Ty

/-- When no item fails, converting the items gives what was tried, without what is undefined. -/
theorem coerceItems_of_attempts {attempt : Value → Run Outcome}
    {call : Value → Run (Result Value)} (h : Refines attempt call) {items : List Value}
    {outcomes : List Outcome}
    (hos : List.Forall₂ (fun item o => attempt item = .ok o) items outcomes)
    (hs : ∀ o ∈ outcomes, o.isSuccess = true) (index : Nat) :
    coerceItems call index items =
      .ok (.ok ((outcomes.map Outcome.input).filter (!·.isUndefined))) := by
  induction hos generalizing index with
  | nil => rfl
  | @cons item o items outcomes ho _ ih =>
    obtain ⟨hso, hsos⟩ := List.forall_mem_cons.mp hs
    obtain ⟨v, rfl⟩ : ∃ v, o = .success v := ⟨_, Outcome.eq_success hso⟩
    unfold coerceItems
    simp only [h item v ho, ih hsos, ok_bind, List.map_cons, List.filter_cons, Outcome.input]
    cases v.isUndefined <;> rfl

theorem entryOutcome_isSuccess {key value : Outcome}
    (h : (entryOutcome key value).isSuccess = true) :
    (∃ k, key = .success k) ∧ ∃ v, value = .success v := by
  cases key with
  | success k => exact ⟨⟨k, rfl⟩, _, Outcome.eq_success h⟩
  | failure k e => exact Bool.noConfusion h

/-- When no entry fails, converting the entries gives what was tried. -/
theorem coerceEntries_of_attempts {tryKey tryValue : Value → Run Outcome}
    {key value : Value → Run (Result Value)} (hk : Refines tryKey key) (hv : Refines tryValue value)
    {entries : Entries} {outcomes : List (Value × Outcome × Outcome)}
    (hos : List.Forall₂ (fun e o => attemptEntry tryKey tryValue e = .ok o) entries outcomes)
    (hs : ∀ o ∈ outcomes, (entryOutcome o.2.1 o.2.2).isSuccess = true) (output : Entries) :
    coerceEntries key value entries output = .ok (.ok (outcomes.foldl addEntry output)) := by
  induction hos generalizing output with
  | nil => rfl
  | @cons e o entries outcomes ho _ ih =>
    obtain ⟨hso, hsos⟩ := List.forall_mem_cons.mp hs
    obtain ⟨ko, vo, hko, hvo, rfl⟩ := attemptEntry_eq_ok.mp ho
    obtain ⟨⟨k, rfl⟩, v, rfl⟩ := entryOutcome_isSuccess hso
    unfold coerceEntries
    simp only [hk _ k hko, hv _ v hvo, ok_bind]
    exact ih hsos (output.insert k v)

end Ty

/-- The results of a call that go with an outcome of a trial: after a refusal, any. -/
def Outcome.Allows : Outcome → Result Value → Prop
  | .success v, r => r = .ok v
  | .failure .., _ => True

theorem Outcome.allows_toResult (o : Outcome) : o.Allows o.toResult := by
  cases o with
  | success v => rfl
  | failure v e => trivial

theorem Outcome.allows_ofResult (input : Value) (r : Result Value) :
    (Outcome.ofResult input r).Allows r := by
  cases r with
  | ok v => rfl
  | error e => trivial

/-- A call comes to an end wherever the trial does, and with what the trial accepts. -/
def Tracks (attempt : Value → Run Outcome) (call : Value → Run (Result Value)) : Prop :=
  ∀ input o, attempt input = .ok o → ∃ r, call input = .ok r ∧ o.Allows r

section

variable {attempt : Value → Run Outcome} {call : Value → Run (Result Value)}

theorem Tracks.follows (h : Tracks attempt call) : Follows attempt call := by
  intro input o ho
  obtain ⟨r, hr, -⟩ := h input o ho
  exact ⟨r, hr⟩

theorem Tracks.refines (h : Tracks attempt call) : Refines attempt call := by
  intro input v hv
  obtain ⟨r, hr, rfl⟩ := h input (.success v) hv
  exact hr

theorem tracks_of_follows (hf : Follows attempt call) (hr : Refines attempt call) :
    Tracks attempt call := by
  intro input o ho
  obtain ⟨r, hcall⟩ := hf input o ho
  refine ⟨r, hcall, ?_⟩
  cases o with
  | success v => exact Except.ok.inj (hcall.symm.trans (hr input v ho))
  | failure v e => trivial

end

namespace Ty

/-- At a depth, calling a type tracks trying it. -/
def TracksAt (scope : Scope) (fuel : Nat) (ty : Ty) : Prop :=
  Tracks (attempt scope fuel ty) (coerce scope fuel ty)

section

variable {scope : Scope} {fuel : Nat} {inner : Ty}

theorem tracks_nominal (p : Primitive) (info : Metadata) :
    (nominal p info).TracksAt scope (fuel + 1) := by
  intro input o h
  refine ⟨.ok input, rfl, ?_⟩
  simp only [attempt] at h
  split at h
  next =>
    obtain rfl := Except.ok.inj h
    rfl
  next =>
    obtain rfl := Except.ok.inj h
    trivial

theorem tracks_constrained (hi : inner.TracksAt scope fuel) (rule : Rule) (set : PredicateSet) :
    (constrained inner rule set).TracksAt scope (fuel + 1) := by
  intro input o h
  simp only [attempt, coerce, bind_eq_ok] at h ⊢
  obtain ⟨u, hu, h⟩ := h
  obtain ⟨r, hr, hallows⟩ := hi input u hu
  cases u with
  | success w =>
    obtain rfl : r = .ok w := hallows
    obtain rfl := pure_eq_ok.mp h
    exact ⟨_, ⟨.ok w, hr, rfl⟩, Outcome.allows_toResult _⟩
  | failure w e =>
    obtain rfl := pure_eq_ok.mp h
    cases r with
    | ok v => exact ⟨_, ⟨.ok v, hr, rfl⟩, trivial⟩
    | error f => exact ⟨_, ⟨.error f, hr, rfl⟩, trivial⟩

theorem tracks_converted (hi : inner.TracksAt scope fuel) (functions : List Func) :
    (converted inner functions).TracksAt scope (fuel + 1) := by
  intro input o h
  simp only [attempt, coerce] at h ⊢
  split at h
  next w hw => exact hi w o h
  next e he =>
    obtain rfl := Except.ok.inj h
    exact ⟨_, rfl, trivial⟩

theorem tracks_sum (left : Ty) {right : Ty} (hr : right.TracksAt scope fuel) (info : Metadata) :
    (sum left right info).TracksAt scope (fuel + 1) := by
  intro input o h
  simp only [attempt, coerce, bind_eq_ok] at h ⊢
  obtain ⟨u, hu, h⟩ := h
  cases u with
  | success w =>
    obtain rfl := pure_eq_ok.mp h
    exact ⟨_, ⟨.success w, hu, rfl⟩, rfl⟩
  | failure w e =>
    simp only [bind_eq_ok] at h
    obtain ⟨p, hp, h⟩ := h
    obtain ⟨r, hcall, hallows⟩ := hr input p hp
    refine ⟨r, ⟨.failure w e, hu, hcall⟩, ?_⟩
    cases p with
    | success v =>
      obtain rfl := pure_eq_ok.mp h
      exact hallows
    | failure v f =>
      obtain rfl := pure_eq_ok.mp h
      trivial

theorem tracks_defaulted (hi : inner.TracksAt scope fuel) (value : Fallback Func) :
    (defaulted inner value).TracksAt scope (fuel + 1) := by
  intro input o h
  simp only [attempt, coerce] at h ⊢
  split at h
  next ha =>
    rw [if_pos ha]
    obtain rfl := Except.ok.inj h
    exact ⟨_, rfl, Outcome.allows_ofResult _ _⟩
  next ha =>
    rw [if_neg ha]
    obtain ⟨u, hu, h⟩ := bind_eq_ok.mp h
    obtain ⟨r, hr, hallows⟩ := hi input u hu
    simp only [hr, ok_bind]
    cases u with
    | success w =>
      obtain rfl : r = .ok w := hallows
      -- Nil is accepted in place of the value that fills in, by a call as by a trial.
      cases w with
      | nil =>
        obtain rfl := pure_eq_ok.mp h
        exact ⟨_, rfl, Outcome.allows_ofResult _ _⟩
      | _ =>
        obtain rfl := pure_eq_ok.mp h
        exact ⟨_, rfl, rfl⟩
    | failure w e =>
      obtain rfl := pure_eq_ok.mp h
      split
      next => exact ⟨_, rfl, trivial⟩
      next => exact ⟨_, rfl, trivial⟩

theorem tracks_enum (hi : inner.TracksAt scope fuel) (values : List Value) :
    (enum inner values).TracksAt scope (fuel + 1) :=
  fun input => hi (pick values input)

theorem tracks_array (hi : inner.TracksAt scope fuel) (info : Metadata) :
    (array inner info).TracksAt scope (fuel + 1) := by
  intro input o h
  simp only [attempt, coerce] at h ⊢
  split at h
  next items =>
    simp only [bind_eq_ok, pure_eq_ok, mapM_eq_ok] at h
    obtain ⟨outcomes, hos, rfl⟩ := h
    obtain ⟨r, hr⟩ := coerceItems_ends hi.follows hos 0
    refine ⟨r.map .array, by simp only [hr]; rfl, ?_⟩
    cases ho : ofItems outcomes with
    | success v =>
      obtain ⟨hs, rfl⟩ := ofItems_eq_success.mp ho
      obtain rfl := Except.ok.inj (hr.symm.trans (coerceItems_of_attempts hi.refines hos hs 0))
      rfl
    | failure v e => trivial
  next =>
    obtain rfl := Except.ok.inj h
    exact ⟨_, rfl, trivial⟩

theorem tracks_map {key value : Ty} (hk : key.TracksAt scope fuel)
    (hv : value.TracksAt scope fuel) (info : Metadata) :
    (map key value info).TracksAt scope (fuel + 1) := by
  intro input o h
  simp only [attempt, coerce] at h ⊢
  split at h
  next entries =>
    simp only [bind_eq_ok, pure_eq_ok, mapM_eq_ok] at h
    obtain ⟨outcomes, hos, rfl⟩ := h
    obtain ⟨r, hr⟩ := coerceEntries_ends hk.follows hv.follows hos []
    refine ⟨r.map .hash, by simp only [hr]; rfl, ?_⟩
    cases ho : ofEntries outcomes with
    | success v =>
      obtain ⟨hs, rfl⟩ := Schema.outcome_eq_success.mp ho
      rw [List.forall_mem_map] at hs
      obtain rfl := Except.ok.inj <|
        hr.symm.trans (coerceEntries_of_attempts hk.refines hv.refines hos hs [])
      rfl
    | failure v e => trivial
  next =>
    obtain rfl := Except.ok.inj h
    exact ⟨_, rfl, trivial⟩

theorem tracks_schema (h : ∀ ty, TracksAt scope fuel ty) (s : Schema Ty Func) :
    (schema s).TracksAt scope (fuel + 1) :=
  tracks_of_follows (s.coerce_ends (fun ty => (h ty).follows) _ {})
    (s.coerce_of_attempt (fun ty => (h ty).refines) _ {})

/-- What stands in for a refusal has no part in what is accepted. -/
theorem tracks_safe (hi : inner.TracksAt scope fuel) : (safe inner).TracksAt scope (fuel + 1) := by
  intro input o h
  obtain ⟨r, hr, hallows⟩ := hi input o h
  simp only [coerce, hr, ok_bind]
  cases r with
  | ok v => exact ⟨_, rfl, hallows⟩
  | error e =>
    cases o with
    | success v => cases hallows
    | failure v f => exact ⟨_, rfl, trivial⟩

theorem tracks_maybe (hi : inner.TracksAt scope fuel) :
    (maybe inner).TracksAt scope (fuel + 1) := by
  intro input o h
  simp only [attempt, coerce] at h ⊢
  split at h
  next ha =>
    rw [if_pos ha]
    obtain rfl := Except.ok.inj h
    exact ⟨_, rfl, rfl⟩
  next ha =>
    rw [if_neg ha]
    exact hi input o h

theorem tracks_reference (h : ∀ ty, TracksAt scope fuel ty) (r : Reference) :
    (reference r).TracksAt scope (fuel + 1) := by
  intro input o ho
  simp only [attempt, coerce, bind_eq_ok] at ho ⊢
  obtain ⟨found, hfound, ho⟩ := ho
  cases found with
  | error e =>
    obtain rfl := pure_eq_ok.mp ho
    exact ⟨_, ⟨.error e, hfound, rfl⟩, trivial⟩
  | ok ty =>
    obtain ⟨r, hr, hallows⟩ := h ty input o ho
    exact ⟨r, ⟨.ok ty, hfound, hr⟩, hallows⟩

end

/-- Calling a type looks at no more than trying it, and accepts what that accepts. -/
theorem tracksAt (scope : Scope) (fuel : Nat) (ty : Ty) : ty.TracksAt scope fuel := by
  induction fuel generalizing ty with
  | zero => intro input o h; cases h
  | succ fuel ih =>
    cases ty with
    | nominal p info => exact tracks_nominal p info
    | constrained inner rule set => exact tracks_constrained (ih inner) rule set
    | converted inner functions => exact tracks_converted (ih inner) functions
    | sum left right info => exact tracks_sum left (ih right) info
    | defaulted inner value => exact tracks_defaulted (ih inner) value
    | enum inner values => exact tracks_enum (ih inner) values
    | array member info => exact tracks_array (ih member) info
    | map key value info => exact tracks_map (ih key) (ih value) info
    | schema s => exact tracks_schema ih s
    | safe inner => exact tracks_safe (ih inner)
    | lax inner => exact tracks_safe (ih inner)
    | maybe inner => exact tracks_maybe (ih inner)
    | reference r => exact tracks_reference ih r

theorem coerce_ends {scope : Scope} {fuel : Nat} {ty : Ty} {input : Value} {o : Outcome}
    (h : attempt scope fuel ty input = .ok o) : ∃ r, coerce scope fuel ty input = .ok r :=
  (tracksAt scope fuel ty).follows input o h

/-- What a type accepts when tried is what it is converted to. -/
theorem coerce_of_attempt {scope : Scope} {fuel : Nat} {ty : Ty} {input v : Value}
    (h : attempt scope fuel ty input = .ok (.success v)) :
    coerce scope fuel ty input = .ok (.ok v) :=
  (tracksAt scope fuel ty).refines input v h

theorem coerces_of_attempts {scope : Scope} {ty : Ty} {input v : Value}
    (h : ty.Attempts scope input (.success v)) : ty.Coerces scope input (.ok v) := by
  obtain ⟨fuel, h⟩ := h
  exact ⟨fuel, coerce_of_attempt h⟩

end Ty

/-- A type or a schema that accepts a value when tried converts it to the value that the trial
gives, and to nothing else. -/
theorem coerces_of_attempts_success (scope : Scope) :
    (∀ (ty : Ty) (input v : Value), ty.Attempts scope input (.success v) →
      ∀ r, ty.Coerces scope input r ↔ r = .ok v) ∧
    ∀ (s : Schema Ty Func) (options : ApplyOptions) (input v : Value),
      s.Attempts scope options input (.success v) →
        ∀ r, s.Coerces scope options input r ↔ r = .ok v := by
  constructor
  · rintro ty input v ⟨fuel, h⟩ r
    have hok : ty.Coerces scope input (.ok v) := ⟨fuel, Ty.coerce_of_attempt h⟩
    exact ⟨fun hr => hr.unique hok, fun hr => hr ▸ hok⟩
  · rintro s options input v ⟨fuel, h⟩ r
    have hrefines : ∀ ty, Refines (Ty.attempt scope fuel ty) (Ty.coerce scope fuel ty) :=
      fun ty => (Ty.tracksAt scope fuel ty).refines
    have hok : s.Coerces scope options input (.ok v) :=
      ⟨fuel, s.coerce_of_attempt hrefines _ options input v h⟩
    exact ⟨fun hr => hr.unique hok, fun hr => hr ▸ hok⟩

/-- A registry in which every identifier stands for integers and arrays of strings. -/
def idScope : Scope where
  find _ _ := .ok (.ok (.sum (Ty.strict .int) (.array (Ty.strict .string) {}) {}))

/-- A schema whose one key holds what the registry says. -/
def idSchema : Schema Ty Func where
  keys := [⟨.symbol "id", .reference { registry := 0, identifier := "id" }, true⟩]
  transform := .symbolize

theorem coerces_idSchema :
    (∀ r, Ty.Coerces idScope (.reference { registry := 0, identifier := "id" })
      (.array [.string "a"]) r ↔ r = .ok (.array [.string "a"])) ∧
    ∀ r, idSchema.Coerces idScope .given (.hash [(.string "id", .array [.string "a"])]) r ↔
      r = .ok (.hash [(.symbol "id", .array [.string "a"])]) := by
  constructor
  · exact (coerces_of_attempts_success idScope).1 _ _ _ ⟨5, rfl⟩
  · refine (coerces_of_attempts_success idScope).2 idSchema _ _ _ ⟨5, ?_⟩
    simp only [Schema.attempt, Schema.present, Entries.sorted, List.mergeSort_singleton]
    rfl

end Conform
