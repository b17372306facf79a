import Conform.Proofs.Ty.Acceptance
import Conform.Proofs.Ty.Refinement

/-!
Types in the places of others. Where what is inside a layer refuses no more than what was there
before, the layer refuses no more, either.
-/

namespace Conform

/-- If the first outcome is a success, so is the second. -/
def Outcome.Eases (o o' : Outcome) : Prop :=
  o.isSuccess = true → o'.isSuccess = true

/-- The second of two trials ends wherever the first does, and succeeds if it does. -/
def Easier (x y : Run Outcome) : Prop :=
  ∀ o, x = .ok o → ∃ o', y = .ok o' ∧ o.Eases o'

theorem Easier.refl (x : Run Outcome) : Easier x x :=
  fun o ho => ⟨o, ho, id⟩

theorem Easier.deepen {scope : Scope} {x : Run Outcome} {ty : Ty} {input : Value} {fuel more : Nat}
    (hle : fuel ≤ more) (h : Easier x (ty.attempt scope fuel input)) :
    Easier x (ty.attempt scope more input) := by
  intro o ho
  obtain ⟨o', ho', heases⟩ := h o ho
  exact ⟨o', Ty.attempt_mono hle ho', heases⟩

namespace Schema

theorem outcome_isSuccess {output : Entries} {results : List (Value × Outcome)} :
    (outcome output results).isSuccess = true ↔ ∀ r ∈ results, r.2.isSuccess = true := by
  constructor
  · intro h
    exact (outcome_eq_success.mp (Outcome.eq_success h)).1
  · intro h
    rw [outcome_eq_success.mpr ⟨h, rfl⟩]
    rfl

section

variable {f f' : Ty → Value → Run Outcome} {g : Ty → Ty}

/-- One type in the place of another as that of a key: it refuses no more, or it fills in where the
other one does not. -/
inductive EasedKey (f f' : Ty → Value → Run Outcome) (ty ty' : Ty) : Supply → Supply → Prop
  | same {supply : Supply} (h : ∀ v, supply = .value v → Easier (f ty v) (f' ty' v)) :
    EasedKey f f' ty ty' supply supply
  | omitted {v : Value} {o : Outcome} (ho : f' ty' v = .ok o) (hsuccess : o.isSuccess = true) :
    EasedKey f f' ty ty' .omitted (.value v)
  | missing {v : Value} {o : Outcome} (ho : f' ty' v = .ok o) :
    EasedKey f f' ty ty' .missing (.value v)

theorem EasedKey.deepen {scope : Scope} {ty ty' : Ty} {supply supply' : Supply} {fuel more : Nat}
    (hle : fuel ≤ more) (h : EasedKey f (Ty.attempt scope fuel) ty ty' supply supply') :
    EasedKey f (Ty.attempt scope more) ty ty' supply supply' := by
  cases h with
  | same h => exact .same fun v hv => (h v hv).deepen hle
  | omitted ho hsuccess => exact .omitted (Ty.attempt_mono hle ho) hsuccess
  | missing ho => exact .missing (Ty.attempt_mono hle ho)

theorem attemptKeys_eased {supply supply' : Key Ty → Supply} {keys : List (Key Ty)}
    (h : ∀ k ∈ keys,
      EasedKey f f' k.type (g k.type) (supply k) (supply' { k with type := g k.type }))
    {results : List (Value × Outcome)} (hr : attemptKeys f supply keys = .ok results) :
    ∃ results', attemptKeys f' supply' (keys.map fun k => { k with type := g k.type }) =
        .ok results' ∧
      ((∀ r ∈ results, r.2.isSuccess = true) → ∀ r ∈ results', r.2.isSuccess = true) := by
  induction keys generalizing results with
  | nil =>
    obtain rfl := Except.ok.inj hr
    exact ⟨[], rfl, id⟩
  | cons k ks ih =>
    obtain ⟨hk, hks⟩ := List.forall_mem_cons.mp h
    simp only [List.map_cons, attemptKeys] at hr ⊢
    generalize supply k = before at hk hr
    generalize supply' { k with type := g k.type } = after at hk ⊢
    cases hk with
    | same heases =>
      cases before with
      | omitted => exact ih hks hr
      | missing =>
        obtain ⟨rest, hrest, hr⟩ := bind_eq_ok.mp hr
        obtain ⟨rest', hrest', -⟩ := ih hks hrest
        obtain rfl := pure_eq_ok.mp hr
        simp only [hrest', ok_bind]
        refine ⟨_, rfl, fun hall => ?_⟩
        cases hall _ List.mem_cons_self
      | value v =>
        obtain ⟨o, ho, hr⟩ := bind_eq_ok.mp hr
        obtain ⟨rest, hrest, hr⟩ := bind_eq_ok.mp hr
        obtain ⟨o', ho', hstays⟩ := heases v rfl o ho
        obtain ⟨rest', hrest', hall⟩ := ih hks hrest
        obtain rfl := pure_eq_ok.mp hr
        simp only [ho', hrest', ok_bind]
        refine ⟨_, rfl, fun hsuccess => ?_⟩
        obtain ⟨hfirst, hothers⟩ := List.forall_mem_cons.mp hsuccess
        exact List.forall_mem_cons.mpr ⟨hstays hfirst, hall hothers⟩
    | omitted ho hsuccess =>
      obtain ⟨rest', hrest', hall⟩ := ih hks hr
      simp only [ho, hrest', ok_bind]
      exact ⟨_, rfl, fun hothers => List.forall_mem_cons.mpr ⟨hsuccess, hall hothers⟩⟩
    | missing ho =>
      obtain ⟨rest, hrest, hr⟩ := bind_eq_ok.mp hr
      obtain ⟨rest', hrest', -⟩ := ih hks hrest
      obtain rfl := pure_eq_ok.mp hr
      simp only [ho, hrest', ok_bind]
      refine ⟨_, rfl, fun hall => ?_⟩
      cases hall _ List.mem_cons_self

/-- Types that refuse less may take the places of others in a schema. -/
theorem attempt_eased {order : Iteration} {s : Schema Ty Func} {options : ApplyOptions}
    {input : Value}
    (h : ∀ entries present, input = .hash entries → s.present entries = .ok present →
      ∀ k ∈ s.keys, EasedKey f f' k.type (g k.type) (s.supply options present k)
        ((s.mapTypes g).supply options present { k with type := g k.type })) :
    Easier (s.attempt order f options input) ((s.mapTypes g).attempt order f' options input) := by
  intro o ho
  unfold Schema.attempt at ho ⊢
  split at ho
  next entries =>
    have hpresent : (s.mapTypes g).present entries = s.present entries := rfl
    rw [hpresent]
    cases hp : s.present entries with
    | error e =>
      simp only [hp] at ho
      exact ⟨o, ho, id⟩
    | ok present =>
      simp only [hp, bind_eq_ok, pure_eq_ok] at ho
      obtain ⟨results, hr, rfl⟩ := ho
      obtain ⟨results', hr', hkept⟩ := attemptKeys_eased (h entries present rfl hp) hr
      have hkeys : attemptKeys f' ((s.mapTypes g).supply options present) (s.mapTypes g).keys =
          .ok results' := hr'
      simp only [hkeys, ok_bind, unknown_mapTypes]
      refine ⟨_, rfl, fun hall => outcome_isSuccess.mpr ?_⟩
      obtain ⟨hdeclared, hundeclared⟩ := List.forall_mem_append.mp (outcome_isSuccess.mp hall)
      exact List.forall_mem_append.mpr ⟨hkept hdeclared, hundeclared⟩
  next => exact ⟨o, ho, id⟩

/-- A type that fills in wherever the other one does is given the same values. -/
theorem easedKey_of_isDefault {s : Schema Ty Func} {options : ApplyOptions} {present : Entries}
    {k : Key Ty} (hdefault : (g k.type).isDefault = k.type.isDefault)
    (h : ∀ v, s.Given options present k v → Easier (f k.type v) (f' (g k.type) v)) :
    EasedKey f f' k.type (g k.type) (s.supply options present k)
      ((s.mapTypes g).supply options present { k with type := g k.type }) := by
  rw [supply_mapTypes hdefault]
  exact .same fun v hv => h v (supply_eq_value.mp hv)

end

end Schema

namespace Ty

theorem ofItems_eased {outcomes outcomes' : List Outcome}
    (h : List.Forall₂ Outcome.Eases outcomes outcomes') :
    (ofItems outcomes).Eases (ofItems outcomes') := by
  intro hall
  have hall := (ofItems_eq_success.mp (Outcome.eq_success hall)).1
  have hall' : ∀ o' ∈ outcomes', o'.isSuccess = true := by
    intro o' ho'
    obtain ⟨o, ho, hstays⟩ := exists_mem_of_forall₂ h.flip ho'
    exact hstays (hall o ho)
  rw [ofItems_eq_success.mpr ⟨hall', rfl⟩]
  rfl

theorem entryOutcome_eased {key key' value value' : Outcome} (hk : key.Eases key')
    (hv : value.Eases value') : (entryOutcome key value).Eases (entryOutcome key' value') := by
  intro h
  obtain ⟨⟨k, rfl⟩, v, rfl⟩ := entryOutcome_isSuccess h
  rw [Outcome.eq_success (hk rfl)]
  exact hv rfl

theorem ofEntries_eased {outcomes outcomes' : List (Value × Outcome × Outcome)}
    (h : List.Forall₂ (fun o o' => o.2.1.Eases o'.2.1 ∧ o.2.2.Eases o'.2.2) outcomes outcomes') :
    (ofEntries outcomes).Eases (ofEntries outcomes') := by
  intro hall
  have hall := Schema.outcome_isSuccess.mp hall
  refine Schema.outcome_isSuccess.mpr fun r' hr' => ?_
  obtain ⟨o', ho', rfl⟩ := List.mem_map.mp hr'
  obtain ⟨o, ho, hkey, hvalue⟩ := exists_mem_of_forall₂ h.flip ho'
  exact entryOutcome_eased hkey hvalue (hall _ (List.mem_map_of_mem ho))

section

variable {scope : Scope} {fuel more : Nat} {input : Value}

theorem attempt_converted_eased {inner inner' : Ty} {functions : List Func}
    (h : ∀ v, convert functions input = .ok v →
      Easier (attempt scope fuel inner v) (attempt scope more inner' v)) :
    Easier (attempt scope (fuel + 1) (converted inner functions) input)
      (attempt scope (more + 1) (converted inner' functions) input) := by
  simp only [attempt]
  split
  next v hv => exact h v hv
  next => exact .refl _

/-- Another side may be the first to accept, but one does. -/
theorem attempt_sum_eased {left left' right right' : Ty} {info : Metadata}
    (hl : Easier (attempt scope fuel left input) (attempt scope more left' input))
    (hr : ∀ v e, attempt scope fuel left input = .ok (.failure v e) →
      Easier (attempt scope fuel right input) (attempt scope more right' input)) :
    Easier (attempt scope (fuel + 1) (sum left right info) input)
      (attempt scope (more + 1) (sum left' right' info) input) := by
  intro o ho
  simp only [attempt, bind_eq_ok] at ho ⊢
  obtain ⟨l, hleft, ho⟩ := ho
  obtain ⟨l', hleft', hl⟩ := hl l hleft
  cases l' with
  | success v => exact ⟨.success v, ⟨_, hleft', rfl⟩, fun _ => rfl⟩
  | failure v e =>
    cases l with
    | success w => cases hl rfl
    | failure w f =>
      obtain ⟨r, hright, ho⟩ := bind_eq_ok.mp ho
      obtain ⟨r', hright', hr⟩ := hr w f hleft r hright
      cases r' with
      | success x =>
        refine ⟨.success x, ⟨_, hleft', ?_⟩, fun _ => rfl⟩
        simp only [hright', ok_bind]
        rfl
      | failure x g =>
        refine ⟨.failure x (.list [e, g]), ⟨_, hleft', ?_⟩, fun hsuccess => ?_⟩
        · simp only [hright', ok_bind]
          rfl
        · cases r with
          | success y => cases hr rfl
          | failure y g =>
            obtain rfl := pure_eq_ok.mp ho
            cases hsuccess

/-- A literal fills in for nil, whatever made nil of the input. -/
theorem attempt_defaulted_eased {inner inner' : Ty} {v : Value}
    (h : input.isAbsent = false →
      Easier (attempt scope fuel inner input) (attempt scope more inner' input)) :
    Easier (attempt scope (fuel + 1) (defaulted inner (.literal v)) input)
      (attempt scope (more + 1) (defaulted inner' (.literal v)) input) := by
  intro o ho
  simp only [attempt] at ho ⊢
  split at ho
  next habsent =>
    rw [if_pos habsent]
    exact ⟨o, ho, id⟩
  next hpresent =>
    rw [if_neg hpresent]
    obtain ⟨tried, htried, ho⟩ := bind_eq_ok.mp ho
    obtain ⟨tried', htried', heases⟩ := h (Bool.eq_false_iff.mpr hpresent) tried htried
    simp only [htried', ok_bind]
    cases tried' with
    | success w =>
      cases w with
      | nil => exact ⟨.success v, rfl, fun _ => rfl⟩
      | _ => exact ⟨_, rfl, fun _ => rfl⟩
    | failure w e =>
      refine ⟨.failure w e, rfl, fun hsuccess => ?_⟩
      cases tried with
      | success x => cases heases rfl
      | failure x f =>
        obtain rfl := pure_eq_ok.mp ho
        cases hsuccess

theorem attempt_array_eased {member member' : Ty} {info : Metadata}
    (h : ∀ items, input = .array items → ∀ v ∈ items,
      Easier (attempt scope fuel member v) (attempt scope more member' v)) :
    Easier (attempt scope (fuel + 1) (array member info) input)
      (attempt scope (more + 1) (array member' info) input) := by
  intro o ho
  simp only [attempt] at ho ⊢
  split at ho
  next items =>
    obtain ⟨outcomes, houtcomes, ho⟩ := bind_eq_ok.mp ho
    obtain rfl := pure_eq_ok.mp ho
    obtain ⟨outcomes', houtcomes', heased⟩ := mapM_related (h items rfl) houtcomes
    refine ⟨ofItems outcomes', ?_, ofItems_eased heased⟩
    simp only [houtcomes', ok_bind]
    rfl
  next => exact ⟨o, ho, id⟩

theorem attempt_map_eased {key key' value value' : Ty} {info : Metadata}
    (h : ∀ entries, input = .hash entries → ∀ e ∈ entries,
      Easier (attempt scope fuel key e.1) (attempt scope more key' e.1) ∧
        Easier (attempt scope fuel value e.2) (attempt scope more value' e.2)) :
    Easier (attempt scope (fuel + 1) (map key value info) input)
      (attempt scope (more + 1) (map key' value' info) input) := by
  intro o ho
  simp only [attempt] at ho ⊢
  split at ho
  next entries =>
    obtain ⟨outcomes, houtcomes, ho⟩ := bind_eq_ok.mp ho
    obtain rfl := pure_eq_ok.mp ho
    have hentry : ∀ e ∈ Entries.sorted entries, ∀ p,
        attemptEntry (attempt scope fuel key) (attempt scope fuel value) e = .ok p →
        ∃ p', attemptEntry (attempt scope more key') (attempt scope more value') e = .ok p' ∧
          p.2.1.Eases p'.2.1 ∧ p.2.2.Eases p'.2.2 := by
      intro e he p hp
      have he : e ∈ entries := (Entries.sorted_perm entries).mem_iff.mp he
      obtain ⟨hk, hv⟩ := h entries rfl e he
      obtain ⟨k, v, hkey, hvalue, rfl⟩ := attemptEntry_eq_ok.mp hp
      obtain ⟨k', hkey', hk⟩ := hk k hkey
      obtain ⟨v', hvalue', hv⟩ := hv v hvalue
      exact ⟨_, attemptEntry_eq_ok.mpr ⟨k', v', hkey', hvalue', rfl⟩, hk, hv⟩
    obtain ⟨outcomes', houtcomes', heased⟩ := mapM_related hentry houtcomes
    refine ⟨ofEntries outcomes', ?_, ofEntries_eased heased⟩
    simp only [houtcomes', ok_bind]
    rfl
  next => exact ⟨o, ho, id⟩

theorem attempt_maybe_eased {inner inner' : Ty}
    (h : input.isAbsent = false →
      Easier (attempt scope fuel inner input) (attempt scope more inner' input)) :
    Easier (attempt scope (fuel + 1) (maybe inner) input)
      (attempt scope (more + 1) (maybe inner') input) := by
  simp only [attempt]
  split
  next => exact .refl _
  next hpresent => exact h (Bool.eq_false_iff.mpr hpresent)

/-- A rule above refuses more, if anything. -/
theorem attempt_constrained_eased {inner inner' : Ty} {rule : Rule} {set : PredicateSet}
    (h : Easier (attempt scope fuel inner input) (attempt scope more inner' input)) :
    Easier (attempt scope (fuel + 1) (constrained inner rule set) input)
      (attempt scope more inner' input) := by
  intro o ho
  obtain ⟨tried, htried, ho⟩ := bind_eq_ok.mp ho
  obtain ⟨tried', htried', heases⟩ := h tried htried
  refine ⟨tried', htried', fun hsuccess => ?_⟩
  cases tried with
  | success v => exact heases rfl
  | failure v e =>
    obtain rfl := pure_eq_ok.mp ho
    cases hsuccess

end

theorem strip_schema (s : Schema Ty Func) : (schema s).strip = schema (s.mapTypes strip) := by
  rw [strip, stripKeys_eq_map]
  rfl

end Ty

end Conform
