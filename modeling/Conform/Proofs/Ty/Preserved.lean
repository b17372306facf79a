import Conform.Proofs.Schema.Recorded
import Conform.Proofs.Schema.Required
import Conform.Proofs.Ty.Asking
import Conform.Proofs.Value.Hash

/-!
Values that a type gives back as they are. This is so where no conversion, index, default or schema
on the way changes anything; then whatever asking accepts a trial gives back.
-/

namespace Conform

/-- A hash has entries for declared keys only, under names that the schema leaves alone, and with
values that a schema does not leave out. -/
structure Schema.DeclaresAll (s : Schema Ty Func) (entries : Entries) : Prop where
  namesDiffer : NamesDiffer s.keys
  distinct : entries.Distinct
  kept : ∀ e ∈ entries, ∀ k, s.transform.apply e.1 = .ok k → (k == e.1) = true
  declared : ∀ e ∈ entries, ∃ k ∈ s.keys, (k.name == e.1) = true
  defined : ∀ e ∈ entries, e.2.isUndefined = false

namespace Ty

/-- Nothing in a type changes a value: a conversion gives it back, an index does not stand for
another value, a default is the value itself, and a schema neither fills in nor leaves out. -/
inductive Preserves (scope : Scope) : Ty → Value → Prop
  | nominal {p : Primitive} {info : Metadata} {v : Value} : Preserves scope (nominal p info) v
  | constrained {inner : Ty} {rule : Rule} {set : PredicateSet} {v : Value}
    (h : Preserves scope inner v) : Preserves scope (constrained inner rule set) v
  | converted {inner : Ty} {functions : List Func} {v : Value}
    (hsame : ∀ w, convert functions v = .ok w → (w == v) = true)
    (h : ∀ w, convert functions v = .ok w → Preserves scope inner w) :
    Preserves scope (converted inner functions) v
  | sum {left right : Ty} {info : Metadata} {v : Value} (hleft : Preserves scope left v)
    (hright : (∀ w, ¬left.Attempts scope v (.success w)) → Preserves scope right v) :
    Preserves scope (sum left right info) v
  | defaulted {inner : Ty} {value : Fallback Func} {v : Value}
    (habsent : v.isAbsent = true → value.evaluate = .ok v)
    (h : v.isAbsent = false → Preserves scope inner v) : Preserves scope (defaulted inner value) v
  | enum {inner : Ty} {values : List Value} {v : Value} (hsame : (pick values v == v) = true)
    (h : Preserves scope inner (pick values v)) : Preserves scope (enum inner values) v
  | array {member : Ty} {info : Metadata} {v : Value}
    (hdefined : ∀ items, v = .array items → ∀ item ∈ items, item.isUndefined = false)
    (h : ∀ items, v = .array items → ∀ item ∈ items, Preserves scope member item) :
    Preserves scope (array member info) v
  | map {key value : Ty} {info : Metadata} {v : Value}
    (hdistinct : ∀ entries, v = .hash entries → Entries.Distinct entries)
    (hkeys : ∀ entries, v = .hash entries → ∀ e ∈ entries, Preserves scope key e.1)
    (hvalues : ∀ entries, v = .hash entries → ∀ e ∈ entries, Preserves scope value e.2) :
    Preserves scope (map key value info) v
  | schema {s : Schema Ty Func} {v : Value}
    (hdeclares : ∀ entries, v = .hash entries → s.DeclaresAll entries)
    (hkeys : ∀ entries, v = .hash entries → ∀ k ∈ s.keys, ∀ u, s.Given {} entries k u →
      Preserves scope k.type u) :
    Preserves scope (schema s) v
  | safe {inner : Ty} {v : Value} (h : Preserves scope inner v) : Preserves scope (safe inner) v
  | lax {inner : Ty} {v : Value} (h : Preserves scope inner v) : Preserves scope (lax inner) v
  | maybe {inner : Ty} {v : Value} (habsent : v.isAbsent = true → v = .nil)
    (h : v.isAbsent = false → Preserves scope inner v) : Preserves scope (maybe inner) v
  | reference {r : Reference} {v : Value}
    (h : ∀ fuel ty, r.resolve scope fuel = .ok (.ok ty) → Preserves scope ty v) :
    Preserves scope (reference r) v

end Ty

namespace KeyTransform

/-- Keys that are left alone are found with their values. -/
theorem Rekeys.get?_eq {t : KeyTransform Func} {input output : Entries} (h : t.Rekeys input output)
    (hd : input.Distinct) (hall : ∀ e ∈ input, ∃ k, t.apply e.1 = .ok k)
    (hkept : ∀ e ∈ input, ∀ k, t.apply e.1 = .ok k → (k == e.1) = true) (q : Value) :
    output.get? q = input.get? q := by
  refine Option.ext fun v => ?_
  rw [h.distinct.get?_eq_some, hd.get?_eq_some]
  constructor
  · rintro ⟨p, hp, hpq, rfl⟩
    obtain ⟨e, ⟨he, hek, -⟩, hvalue⟩ := h.origin p hp
    exact ⟨e, he, BEq.trans (BEq.symm (hkept e he p.1 hek)) hpq, hvalue⟩
  · rintro ⟨e, he, heq, rfl⟩
    obtain ⟨k, hk⟩ := hall e he
    obtain ⟨p, hp, hpk⟩ := h.covers e he k hk
    have hpe : (p.1 == e.1) = true := BEq.trans hpk (hkept e he k hk)
    refine ⟨p, hp, BEq.trans hpe heq, ?_⟩
    obtain ⟨d, ⟨hdin, hdk, -⟩, hvalue⟩ := h.origin p hp
    have hde : (d.1 == e.1) = true := BEq.trans (BEq.symm (hkept d hdin p.1 hdk)) hpe
    have hdget := hd.get?_eq_some.mpr ⟨d, hdin, hde, rfl⟩
    have heget := hd.get?_eq_some.mpr ⟨e, he, BEq.refl e.1, rfl⟩
    exact hvalue.symm.trans (Option.some.inj (hdget.symm.trans heget))

end KeyTransform

namespace Schema

variable {scope : Scope} {s : Schema Ty Func} {entries present : Entries} {fuel : Nat}

theorem DeclaresAll.get?_present (h : s.DeclaresAll entries) (hp : s.present entries = .ok present)
    (q : Value) : present.get? q = entries.get? q := by
  have hall : ∀ e ∈ entries, ∃ k, s.transform.apply e.1 = .ok k := by
    intro e he
    cases hk : s.transform.apply e.1 with
    | ok k => exact ⟨k, rfl⟩
    | error err =>
      obtain ⟨_, _, _, _, herr⟩ := present_of_transform_error ⟨e, he, err, hk⟩
      cases hp.symm.trans herr
  exact (rekeys_of_present hp).get?_eq h.distinct hall h.kept q

/-- Every key that is given a value is accepted in a trial that succeeds. -/
theorem exists_attempt_of_given {w : Value}
    (hp : s.present entries = .ok present)
    (hw : s.attempt scope.iteration (Ty.attempt scope fuel) {} (.hash entries) = .ok (.success w))
    {k : Key Ty} (hk : k ∈ s.keys) {v : Value} (hv : s.Given {} present k v) :
    ∃ u, Ty.attempt scope fuel k.type v = .ok (.success u) := by
  rw [attempt_hash hp, bind_eq_ok] at hw
  obtain ⟨results, hresults, houtcome⟩ := hw
  obtain ⟨hall, -⟩ := outcome_eq_success.mp (pure_eq_ok.mp houtcome)
  have hconsidered : s.considers {} present k = true := by
    rw [← Bool.not_eq_false, considers_eq_false, supply_eq_value.mpr hv]
    exact Supply.noConfusion
  obtain ⟨r, hr, -, hnotes⟩ := exists_mem_of_forall₂ (attemptKeys_eq_ok.mp hresults)
    (List.mem_filter.mpr ⟨hk, hconsidered⟩)
  have ho := (notes_iff_of_value (supply_eq_value.mpr hv)).mp hnotes
  rw [Outcome.eq_success (hall r (List.mem_append_left _ hr))] at ho
  exact ⟨_, ho⟩

/-- A hash comes back from a schema if its values do. -/
theorem DeclaresAll.beq_of_attempt (h : s.DeclaresAll entries)
    (hkeys : ∀ k ∈ s.keys, ∀ v u, s.Given {} entries k v →
      Ty.attempt scope fuel k.type v = .ok (.success u) → (u == v) = true) {w : Value}
    (hw : s.attempt scope.iteration (Ty.attempt scope fuel) {} (.hash entries) = .ok (.success w)) :
    (w == .hash entries) = true := by
  have hcalled := Schema.coerce_of_attempt (fun _ _ _ => Ty.coerce_of_attempt) _ s {} _ w hw
  obtain ⟨present, hp, -, es, hes, rfl⟩ := coerces_ok_iff.mp ⟨fuel, hcalled⟩
  have hget := h.get?_present hp
  have hgiven : ∀ k v, s.Given {} present k v ↔ s.Given {} entries k v := by
    intro k v
    rw [Given, Given, hget]
  have hvalue : ∀ k ∈ s.keys, ∀ v, s.Given {} present k v →
      ∃ u, k.type.Coerces scope v (.ok u) ∧ (u == v) = true := by
    intro k hk v hv
    obtain ⟨u, hu⟩ := exists_attempt_of_given hp hw hk hv
    exact ⟨u, ⟨fuel, Ty.coerce_of_attempt hu⟩, hkeys k hk v u ((hgiven k v).mp hv) hu⟩
  refine Entries.hash_beq_of_get? (keysEnd_distinct hes) h.distinct (fun e he => ?_) fun f hf => ?_
  · have hentry := (keysEnd_distinct hes).get?_eq_some.mpr ⟨e, he, BEq.refl e.1, rfl⟩
    obtain ⟨hdefined, k, hk, hname, v, hv, hcall⟩ :=
      (keysEnd_get? h.namesDiffer hes e.1 e.2).mp hentry
    obtain ⟨u, hu, hsame⟩ := hvalue k hk v hv
    obtain rfl := Except.ok.inj (hcall.unique hu)
    rcases hv with hv | ⟨-, -, rfl⟩
    · exact ⟨v, by rw [← hget, ← Entries.get?_congr hname, hv], hsame⟩
    · cases Value.isUndefined_of_beq (BEq.symm hsame) hdefined
  · obtain ⟨k, hk, hname⟩ := h.declared f hf
    have hentry : entries.get? f.1 = some f.2 :=
      h.distinct.get?_eq_some.mpr ⟨f, hf, BEq.refl f.1, rfl⟩
    have hv : s.Given {} present k f.2 :=
      Or.inl (by rw [hget, Entries.get?_congr hname, hentry])
    obtain ⟨u, hu, hsame⟩ := hvalue k hk f.2 hv
    have hdefined := Value.isUndefined_of_beq hsame (h.defined f hf)
    have hkey := keysEnd_get?_name h.namesDiffer hes hk hv hu
    rw [hdefined, if_neg Bool.false_ne_true, Entries.get?_congr hname] at hkey
    exact ⟨u, hkey, hsame⟩

end Schema

namespace Ty

open Value

theorem not_attempts_of_failure {scope : Scope} {fuel : Nat} {ty : Ty} {input v : Value}
    {e : Explanation} (h : attempt scope fuel ty input = .ok (.failure v e)) (w : Value) :
    ¬ty.Attempts scope input (.success w) := by
  intro hw
  cases hw.unique ⟨fuel, h⟩

theorem nil_bne {v : Value} (h : v.isAbsent = false) : ¬(Value.nil == v) = true := by
  cases v with
  | nil => cases h
  | _ => exact Bool.false_ne_true

/-- Items that come back are all kept. -/
theorem forall₂_kept {attempt : Value → Run Outcome} {items : List Value} {outcomes : List Outcome}
    (hos : List.Forall₂ (fun item o => attempt item = .ok o) items outcomes)
    (hs : ∀ o ∈ outcomes, o.isSuccess = true)
    (hsame : ∀ item ∈ items, ∀ w, attempt item = .ok (.success w) → (w == item) = true)
    (hdefined : ∀ item ∈ items, item.isUndefined = false) :
    List.Forall₂ (fun v item => (v == item) = true)
      ((outcomes.map Outcome.input).filter (!·.isUndefined)) items := by
  induction hos with
  | nil => exact .nil
  | @cons item o items outcomes ho _ ih =>
    obtain ⟨hso, hsos⟩ := List.forall_mem_cons.mp hs
    obtain ⟨hitem, hitems⟩ := List.forall_mem_cons.mp hsame
    obtain ⟨hdef, hdefs⟩ := List.forall_mem_cons.mp hdefined
    rw [Outcome.eq_success hso] at ho
    have hinput : (o.input == item) = true := hitem o.input ho
    have hkept : (!o.input.isUndefined) = true := by
      rw [isUndefined_of_beq hinput hdef]
      rfl
    rw [List.map_cons, List.filter_cons, if_pos hkept]
    exact .cons hinput (ih hsos hitems hdefs)

/-- Entries that come back are added as they are. -/
theorem exists_added {tryKey tryValue : Value → Run Outcome} {entries : Entries}
    {outcomes : List (Value × Outcome × Outcome)}
    (hos : List.Forall₂ (fun e o => attemptEntry tryKey tryValue e = .ok o) entries outcomes)
    (hs : ∀ o ∈ outcomes, (entryOutcome o.2.1 o.2.2).isSuccess = true)
    (hkeys : ∀ e ∈ entries, ∀ w, tryKey e.1 = .ok (.success w) → (w == e.1) = true)
    (hvalues : ∀ e ∈ entries, ∀ w, tryValue e.2 = .ok (.success w) → (w == e.2) = true) :
    ∃ added : Entries, List.Forall₂ SameEntry added entries ∧ ∀ output : Entries,
      outcomes.foldl addEntry output = added.foldl (fun es e => es.insert e.1 e.2) output := by
  induction hos with
  | nil => exact ⟨[], .nil, fun _ => rfl⟩
  | @cons e o entries outcomes ho _ ih =>
    obtain ⟨hso, hsos⟩ := List.forall_mem_cons.mp hs
    obtain ⟨hkey, hkeys⟩ := List.forall_mem_cons.mp hkeys
    obtain ⟨hvalue, hvalues⟩ := List.forall_mem_cons.mp hvalues
    obtain ⟨k, v, hk, hv, rfl⟩ := attemptEntry_eq_ok.mp ho
    obtain ⟨⟨newKey, rfl⟩, newValue, rfl⟩ := entryOutcome_isSuccess hso
    obtain ⟨added, hadded, hfold⟩ := ih hsos hkeys hvalues
    refine ⟨(newKey, newValue) :: added, .cons ⟨hkey newKey hk, hvalue newValue hv⟩ hadded, ?_⟩
    exact fun output => hfold _

variable {scope : Scope} {ty : Ty} {v w : Value} {fuel : Nat}

/-- A hash comes back from a map type if its keys and values do. -/
theorem beq_of_ofEntries {tryKey tryValue : Value → Run Outcome} {entries : Entries}
    {outcomes : List (Value × Outcome × Outcome)} (hd : entries.Distinct)
    (hos : List.Forall₂ (fun e o => attemptEntry tryKey tryValue e = .ok o) entries.sorted outcomes)
    (hkeys : ∀ e ∈ entries, ∀ w, tryKey e.1 = .ok (.success w) → (w == e.1) = true)
    (hvalues : ∀ e ∈ entries, ∀ w, tryValue e.2 = .ok (.success w) → (w == e.2) = true)
    (hw : ofEntries outcomes = .success w) : (w == .hash entries) = true := by
  obtain ⟨hs, rfl⟩ := Schema.outcome_eq_success.mp hw
  have hmem : ∀ e ∈ entries.sorted, e ∈ entries := fun e he =>
    (Entries.sorted_perm entries).mem_iff.mp he
  obtain ⟨added, hadded, hfold⟩ := exists_added hos (List.forall_mem_map.mp hs)
    (fun e he => hkeys e (hmem e he)) fun e he => hvalues e (hmem e he)
  have hdistinct : added.Distinct :=
    (hd.perm (Entries.sorted_perm entries).symm).of_same hadded
  have hall : outcomes.foldl addEntry [] = added := (hfold []).trans (Entries.ofPairs_eq hdistinct)
  rw [hall]
  exact BEq.trans (Entries.hash_beq_of_forall₂ hadded)
    (Entries.hash_beq_of_perm (Entries.sorted_perm entries))

/-- What a trial makes of a value that is preserved is the value. -/
theorem Preserves.beq_of_attempt (h : ty.Preserves scope v)
    (hw : attempt scope fuel ty v = .ok (.success w)) : (w == v) = true := by
  induction fuel generalizing ty v w with
  | zero => cases hw
  | succ fuel ih =>
    cases h with
    | nominal =>
      obtain ⟨-, rfl⟩ := nominal_eq_success.mp hw
      exact BEq.refl _
    | constrained h => exact ih h (constrained_eq_success.mp hw).1
    | converted hsame h =>
      obtain ⟨u, hu, hw⟩ := converted_eq_success.mp hw
      exact BEq.trans (ih (h u hu) hw) (hsame u hu)
    | @sum left right _ _ hleft hright =>
      rcases sum_eq_success.mp hw with hw | ⟨⟨u, e, hl⟩, hw⟩
      · exact ih hleft hw
      · exact ih (hright (not_attempts_of_failure hl)) hw
    | defaulted habsent h =>
      rcases defaulted_eq_success.mp hw with ⟨hgone, hgiven⟩ | ⟨hpresent, hw⟩
      · obtain rfl := Except.ok.inj (hgiven.symm.trans (habsent hgone))
        exact BEq.refl w
      · rcases hw with ⟨hw, -⟩ | ⟨hw, -⟩
        · exact absurd (ih (h hpresent) hw) (nil_bne hpresent)
        · exact ih (h hpresent) hw
    | enum hsame h => exact BEq.trans (ih h hw) hsame
    | array hdefined h =>
      obtain ⟨items, outcomes, rfl, hos, hs, rfl⟩ := array_eq_success.mp hw
      exact array_beq_array.mpr <| forall₂_kept hos hs
        (fun item hitem w hw => ih (h items rfl item hitem) hw) (hdefined items rfl)
    | map hdistinct hkeys hvalues =>
      obtain ⟨entries, outcomes, rfl, hos, hw⟩ := map_eq_success.mp hw
      exact beq_of_ofEntries (hdistinct entries rfl) hos
        (fun e he w hw => ih (hkeys entries rfl e he) hw)
        (fun e he w hw => ih (hvalues entries rfl e he) hw) hw
    | schema hdeclares hkeys =>
      cases v with
      | hash entries =>
        exact (hdeclares entries rfl).beq_of_attempt
          (fun k hk u w hu hw => ih (hkeys entries rfl k hk u hu) hw) hw
      | _ => cases hw
    | safe h | lax h => exact ih h hw
    | maybe habsent h =>
      rcases maybe_eq_success.mp hw with ⟨hgone, rfl⟩ | ⟨hpresent, hw⟩
      · rw [habsent hgone]
        exact BEq.refl _
      · exact ih (h hpresent) hw
    | reference h =>
      obtain ⟨t, hfound, hw⟩ := reference_eq_success.mp hw
      exact ih (h fuel t hfound) hw

/-- At a depth, a trial of a value ends wherever asking does, and accepts it if asking does. -/
def TriedAt (scope : Scope) (fuel : Nat) (ty : Ty) (v : Value) : Prop :=
  ∀ b, accepts scope fuel ty v = .ok b →
    ∃ o, attempt scope fuel ty v = .ok o ∧ (b = true → o.isSuccess = true)

section

variable {inner : Ty}

theorem tried_nominal (p : Primitive) (info : Metadata) :
    TriedAt scope (fuel + 1) (nominal p info) v := by
  intro b hb
  simp only [attempt]
  split
  next => exact ⟨_, rfl, fun _ => rfl⟩
  next hrefused => exact ⟨_, rfl, fun htrue => absurd (Except.ok.inj hb ▸ htrue) hrefused⟩

theorem Tries.tried (h : ty.Tries) : TriedAt scope fuel ty v := by
  intro b hb
  rw [h.accepts_eq, map_eq_ok] at hb
  obtain ⟨o, ho, rfl⟩ := hb
  exact ⟨o, ho, id⟩

theorem tried_converted {functions : List Func}
    (h : ∀ w, convert functions v = .ok w → TriedAt scope fuel inner w) :
    TriedAt scope (fuel + 1) (converted inner functions) v := by
  intro b hb
  simp only [accepts, attempt] at hb ⊢
  split at hb
  next w hw => simpa only [hw] using h w hw b hb
  next e he =>
    obtain rfl := Except.ok.inj hb
    exact ⟨_, rfl, fun hfalse => by cases hfalse⟩

theorem tried_sum {left right : Ty} {info : Metadata} (hl : TriedAt scope fuel left v)
    (hr : (∀ w, ¬left.Attempts scope v (.success w)) → TriedAt scope fuel right v) :
    TriedAt scope (fuel + 1) (sum left right info) v := by
  intro b hb
  obtain ⟨l, hasked, hb⟩ := bind_eq_ok.mp hb
  obtain ⟨o, ho, hsuccess⟩ := hl l hasked
  cases o with
  | success u => exact ⟨.success u, bind_eq_ok.mpr ⟨_, ho, rfl⟩, fun _ => rfl⟩
  | failure u e =>
    cases l with
    | true => cases hsuccess rfl
    | false =>
      obtain ⟨p, hp, hsuccess⟩ := hr (not_attempts_of_failure ho) b hb
      cases p with
      | success x =>
        exact ⟨.success x, bind_eq_ok.mpr ⟨_, ho, bind_eq_ok.mpr ⟨_, hp, rfl⟩⟩, fun _ => rfl⟩
      | failure x f =>
        exact ⟨_, bind_eq_ok.mpr ⟨_, ho, bind_eq_ok.mpr ⟨_, hp, rfl⟩⟩, fun htrue => hsuccess htrue⟩

/-- A default that stands for what is absent, over a type that makes nil of nothing else. -/
theorem tried_defaulted {value : Fallback Func} (hgone : v.isAbsent = true → value.evaluate = .ok v)
    (h : v.isAbsent = false → TriedAt scope fuel inner v)
    (hnil : v.isAbsent = false → attempt scope fuel inner v ≠ .ok (.success .nil)) :
    TriedAt scope (fuel + 1) (defaulted inner value) v := by
  intro b hb
  simp only [attempt]
  split
  next habsent =>
    rw [hgone habsent]
    exact ⟨_, rfl, fun _ => rfl⟩
  next hthere =>
    have hpresent := Bool.eq_false_iff.mpr hthere
    have hasked : accepts scope fuel inner v = .ok b := by
      cases v with
      | undefined => cases hpresent
      | _ => exact hb
    obtain ⟨o, ho, hsuccess⟩ := h hpresent b hasked
    cases o with
    | failure u e => exact ⟨_, bind_eq_ok.mpr ⟨_, ho, rfl⟩, hsuccess⟩
    | success u =>
      cases u with
      | nil => exact absurd ho (hnil hpresent)
      | _ => exact ⟨_, bind_eq_ok.mpr ⟨_, ho, rfl⟩, fun _ => rfl⟩

theorem tried_maybe (h : v.isAbsent = false → TriedAt scope fuel inner v) :
    TriedAt scope (fuel + 1) (maybe inner) v := by
  intro b hb
  simp only [accepts, attempt] at hb ⊢
  split at hb
  next hgone =>
    rw [if_pos hgone]
    exact ⟨_, rfl, fun _ => rfl⟩
  next hthere =>
    rw [if_neg hthere]
    exact h (Bool.eq_false_iff.mpr hthere) b hb

theorem tried_reference {r : Reference}
    (h : ∀ ty, r.resolve scope fuel = .ok (.ok ty) → TriedAt scope fuel ty v) :
    TriedAt scope (fuel + 1) (reference r) v := by
  intro b hb
  obtain ⟨found, hfound, hb⟩ := bind_eq_ok.mp hb
  cases found with
  | ok ty =>
    obtain ⟨o, ho, hsuccess⟩ := h ty hfound b hb
    exact ⟨o, bind_eq_ok.mpr ⟨_, hfound, ho⟩, hsuccess⟩
  | error e =>
    obtain rfl := pure_eq_ok.mp hb
    exact ⟨_, bind_eq_ok.mpr ⟨_, hfound, rfl⟩, fun hfalse => by cases hfalse⟩

end

/-- Where asking has an answer, a trial of a value that is preserved ends, and accepts it if asking
does. -/
theorem Preserves.tried (h : ty.Preserves scope v) : TriedAt scope fuel ty v := by
  induction fuel generalizing ty v with
  | zero => intro b hb; cases hb
  | succ fuel ih =>
    cases h with
    | nominal => exact tried_nominal _ _
    | constrained | array | map | schema => exact Tries.tried trivial
    | converted hsame h => exact tried_converted fun w hw => ih (h w hw)
    | sum hleft hright => exact tried_sum (ih hleft) fun hfails => ih (hright hfails)
    | defaulted habsent h =>
      refine tried_defaulted habsent (fun hpresent => ih (h hpresent)) fun hpresent hnil => ?_
      exact nil_bne hpresent ((h hpresent).beq_of_attempt hnil)
    | enum hsame h => exact ih h
    | safe h | lax h => exact ih h
    | maybe habsent h => exact tried_maybe fun hpresent => ih (h hpresent)
    | reference h => exact tried_reference fun t hfound => ih (h fuel t hfound)

end Ty

end Conform
