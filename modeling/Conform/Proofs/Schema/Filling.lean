import Conform.Proofs.Schema.Recorded
import Conform.Proofs.Schema.Required
import Conform.Proofs.Ty.Filling

namespace Conform.Schema

section

variable {results : List (Value × Outcome)} {output : Entries} {q : Value}

theorem get?_foldl_keep_other (h : ∀ r ∈ results, (r.1 == q) = false) :
    (results.foldl (fun es r => keep es r.1 r.2.input) output).get? q = output.get? q := by
  induction results generalizing output with
  | nil => rfl
  | cons r rs ih =>
    obtain ⟨hr, hrs⟩ := List.forall_mem_cons.mp h
    rw [List.foldl_cons, ih hrs, get?_keep, hr, Bool.false_and, if_neg Bool.false_ne_true]

/-- The outputs have the value of each result, if it is not undefined. -/
theorem outputs_get? (hd : results.Pairwise fun a b => (a.1 == b.1) = false)
    {r : Value × Outcome} (hr : r ∈ results) (hdef : r.2.input.isUndefined = false) :
    (outputs results).get? r.1 = some r.2.input := by
  have hfold : ∀ output : Entries,
      (results.foldl (fun es r => keep es r.1 r.2.input) output).get? r.1 = some r.2.input := by
    induction results with
    | nil => cases hr
    | cons p ps ih =>
      intro output
      obtain ⟨hp, hps⟩ := List.pairwise_cons.mp hd
      rcases List.mem_cons.mp hr with rfl | hr
      · have hother : ∀ p ∈ ps, (p.1 == r.1) = false := fun p hmem => by rw [BEq.comm, hp p hmem]
        rw [List.foldl_cons, get?_foldl_keep_other hother, get?_keep, hdef]
        simp
      · exact ih hps hr _
  exact hfold []

end

section

variable {scope : Scope} {s : Schema Ty Func} {options : ApplyOptions} {input present : Entries}
  {k : Key Ty}

theorem Satisfied.not_refuses (h : s.Satisfied options present (Ty.Coerces scope) k) {e : Error} :
    ¬s.Refuses options present (Ty.Coerces scope) k e := by
  intro he
  rcases satisfied_iff.mp h with ho | ⟨v, w, hv, hw⟩
  · cases he with
    | missing hp hf hr => exact (supply_eq_omitted.mp ho).2.2 hr
    | invalid hv hf => cases ho.symm.trans (supply_eq_value.mpr hv)
  · cases he with
    | missing hp hf hr => cases hv.symm.trans (supply_eq_missing.mpr ⟨hp, hf, hr⟩)
    | invalid hu hf =>
      obtain rfl := Supply.value.inj (hv.symm.trans (supply_eq_value.mpr hu))
      cases hw.unique hf

/-- An error is at a key if it names it. -/
def At (name : Value) (e : Error) : Prop :=
  e.problem = .missingKey name ∨ ∃ v f, e.problem = .schema name v f

/-- A key that is satisfied is not to blame for an error. -/
theorem Satisfied.not_at (hn : NamesDiffer s.keys) (hk : k ∈ s.keys)
    (h : s.Satisfied options present (Ty.Coerces scope) k)
    (hp : s.present input = .ok present) {e : Error}
    (he : s.Coerces scope options (.hash input) (.error e)) : ¬At k.name e := by
  intro hat
  by_cases hu : s.strict = true ∧ ∃ p ∈ present, s.Undeclared p.1
  · rw [coerces_hash_of_undeclared hp hu] at he
    obtain rfl := Except.error.inj he
    rcases hat with hat | ⟨v, f, hat⟩
    · cases hat
    · cases hat
  · rw [coerces_hash_error_iff hp hu, keysEnd_error_iff] at he
    obtain ⟨before, l, after, hkeys, -, hl⟩ := he
    have hmem : l ∈ s.keys := by rw [hkeys]; simp
    have hname : l.name = k.name := by
      cases hl with
      | missing hnone hf hr =>
        rcases hat with hat | ⟨v, f, hat⟩
        · exact Problem.missingKey.inj hat
        · cases hat
      | invalid hv hfails =>
        rcases hat with hat | ⟨v, f, hat⟩
        · cases hat
        · exact (Problem.schema.inj hat).1
    obtain rfl : l = k := hn.eq_of_name hmem hk (hname ▸ BEq.refl l.name)
    exact h.not_refuses hl

/-- A key is filled in: a call succeeds if the other keys let it, and is not refused for this one;
and its default is in what a call or a trial gives. -/
structure Fills (scope : Scope) (s : Schema Ty Func) (options : ApplyOptions)
    (input present : Entries) (k : Key Ty) (d : Value) : Prop where
  completes : ¬(s.strict = true ∧ ∃ p ∈ present, s.Undeclared p.1) →
    (∀ j ∈ s.keys, j ≠ k → s.Satisfied options present (Ty.Coerces scope) j) →
      ∃ out, s.Coerces scope options (.hash input) (.ok out)
  blameless : ∀ e, s.Coerces scope options (.hash input) (.error e) → ¬At k.name e
  called : ∀ out, s.Coerces scope options (.hash input) (.ok out) →
    ∃ es : Entries, out = .hash es ∧ es.get? k.name = some d
  tried : ∀ o, s.Attempts scope options (.hash input) o → ∃ output results,
    o = outcome output results ∧ (k.name, .success d) ∈ results ∧ output.get? k.name = some d

/-- A default is filled in only on a condition: else no trial succeeds, and no call gives anything
but nil for the key. -/
structure FillsOnlyIf (condition : Prop) (scope : Scope) (s : Schema Ty Func)
    (options : ApplyOptions) (input : Entries) (k : Key Ty) (d : Value) : Prop where
  called : ∀ (es : Entries) v, s.Coerces scope options (.hash input) (.ok (.hash es)) →
    es.get? k.name = some v → v = .nil ∨ v = d ∧ condition
  tried : ∀ out, s.Attempts scope options (.hash input) (.success out) → condition

section

variable {v d : Value} (hn : NamesDiffer s.keys) (hk : k ∈ s.keys)
  (hp : s.present input = .ok present) (hv : s.Given options present k v)

include hn hk hp hv

/-- What a call gives for a key is what its type makes of the value that it is given. -/
theorem coerces_given {out : Value} (h : s.Coerces scope options (.hash input) (.ok out)) :
    ∃ es : Entries, ∃ w, out = .hash es ∧ k.type.Coerces scope v (.ok w) ∧
      es.get? k.name = if w.isUndefined then none else some w := by
  obtain ⟨present', hp', -, es, hes, rfl⟩ := coerces_ok_iff.mp h
  obtain rfl := Except.ok.inj (hp.symm.trans hp')
  obtain ⟨w, hw, -⟩ := keysEnd_supplied hes hk hv
  exact ⟨es, w, rfl, hw, keysEnd_get?_name hn hes hk hv hw⟩

/-- A trial has the outcome of a key among its results. -/
theorem attempts_given {o : Outcome} (ho : s.Attempts scope options (.hash input) o) :
    ∃ u results, o = outcome (outputs results) (results ++ s.refusals scope.iteration present) ∧
      k.type.Attempts scope v u ∧ (k.name, u) ∈ results ∧
      results.Pairwise fun a b => (a.1 == b.1) = false := by
  obtain ⟨fuel, results, hresults, rfl⟩ := (attempts_hash_iff hp).mp ho
  have hrecorded := recorded_of_attemptKeys hn (rekeys_of_present hp).distinct hresults
  have hconsidered : s.considers options present k = true := by
    rw [← Bool.not_eq_false, considers_eq_false, supply_eq_value.mpr hv]
    exact Supply.noConfusion
  obtain ⟨⟨name, u⟩, hmem, rfl, hnotes⟩ :=
    exists_mem_of_forall₂ hrecorded.noted (List.mem_filter.mpr ⟨hk, hconsidered⟩)
  have hu := (notes_iff_of_value (supply_eq_value.mpr hv)).mp hnotes
  exact ⟨u, results, rfl, hu, hmem, (List.pairwise_append.mp hrecorded.distinct).1⟩

theorem fills_of_attempts (hd : d.isUndefined = false)
    (ht : k.type.Attempts scope v (.success d)) : s.Fills scope options input present k d := by
  have hcall := Ty.coerces_of_attempts ht
  have hsatisfied : s.Satisfied options present (Ty.Coerces scope) k :=
    satisfied_iff.mpr (Or.inr ⟨v, d, supply_eq_value.mpr hv, hcall⟩)
  constructor
  case completes =>
    intro hu hothers
    have hall : ∀ j ∈ s.keys, s.Satisfied options present (Ty.Coerces scope) j := by
      intro j hj
      by_cases hjk : j = k
      · exact hjk ▸ hsatisfied
      · exact hothers j hj hjk
    obtain ⟨es, hes⟩ := keysEnd_ok_iff.mpr hall
    exact ⟨_, (coerces_hash_ok_iff hp hu _).mpr ⟨es, hes, rfl⟩⟩
  case blameless => exact fun e he => hsatisfied.not_at hn hk hp he
  case called =>
    intro out h
    obtain ⟨es, w, rfl, hw, hget⟩ := coerces_given hn hk hp hv h
    obtain rfl := Except.ok.inj (hw.unique hcall)
    rw [hd, if_neg Bool.false_ne_true] at hget
    exact ⟨es, rfl, hget⟩
  case tried =>
    intro o ho
    obtain ⟨u, results, rfl, hu, hmem, hdistinct⟩ := attempts_given hn hk hp hv ho
    obtain rfl := hu.unique ht
    exact ⟨_, _, rfl, List.mem_append_left _ hmem, outputs_get? hdistinct hmem hd⟩

theorem fillsOnlyIf_letsThrough (ht : k.type.Layered d) (ha : k.type.LeavesAbsent)
    (hx : v.isAbsent = true) :
    s.FillsOnlyIf (k.type.letsThrough d v = true) scope options input k d := by
  constructor
  case called =>
    intro es u h hget
    obtain ⟨es', w, hes, hw, hkey⟩ := coerces_given hn hk hp hv h
    obtain rfl := Value.hash.inj hes
    rw [hkey] at hget
    cases hdef : w.isUndefined with
    | true => simp [hdef] at hget
    | false =>
      obtain rfl : w = u := by simpa [hdef] using hget
      rcases ht.coerces_absent ha hx hw with habsent | hthrough
      · exact Or.inl (Value.eq_nil_of_isAbsent habsent hdef)
      · exact Or.inr hthrough
  case tried =>
    intro out ho
    obtain ⟨u, results, houtcome, hu, hmem, -⟩ := attempts_given hn hk hp hv ho
    have hall := (outcome_eq_success.mp houtcome.symm).1
    have hsuccess := hall _ (List.mem_append_left _ hmem)
    cases u with
    | success w => exact (ht.attempts_absent ha hx hu).2
    | failure w e => exact Bool.noConfusion hsuccess

end

/-- A default fills in for a missing key if the layers over it let it through; and if they make
nothing of absent input, only then. -/
theorem refined_fills {d : Value} {t : Ty} (ht : t.Refined scope d) (hd : d.isUndefined = false) :
    t.isDefault = true ∧
    ∀ (s : Schema Ty Func) (options : ApplyOptions) (input present : Entries) (k : Key Ty),
      NamesDiffer s.keys → k ∈ s.keys → k.type = t →
      (options.resolveDefaults = true ∨ s.alwaysDefaults = true) →
      s.present input = .ok present → present.get? k.name = none →
        (t.letsThrough d .undefined = true → s.Fills scope options input present k d) ∧
        (t.LeavesAbsent →
          s.FillsOnlyIf (t.letsThrough d .undefined = true) scope options input k d) := by
  have hlayered := ht.layered
  refine ⟨hlayered.isDefault, ?_⟩
  rintro s options input present k hn hk rfl hresolve hp hnone
  have hv : s.Given options present k .undefined :=
    Or.inr ⟨hnone, ⟨hlayered.isDefault, hresolve⟩, rfl⟩
  constructor
  · intro hthrough
    exact fills_of_attempts hn hk hp hv hd (hlayered.attempts hthrough)
  · intro ha
    exact fillsOnlyIf_letsThrough hn hk hp hv hlayered ha rfl

end

/-- Ages of adults; a blank one is none. -/
def adultAge : Ty :=
  .safe (.constrained (.converted (.defaulted (Ty.strict .int) (.literal (.int 21)))
    [blankToUndefined]) (.predicate ⟨"gt?", [.int 18]⟩) Standard.predicates)

theorem refined_adultAge : adultAge.Refined (World.scope {}) (.int 21) := by
  have hdefault : (Ty.strict .int).withDefault (World.scope {}) 2 (.int 21) =
      .ok (.ok (.defaulted (Ty.strict .int) (.literal (.int 21)))) := rfl
  have hconstrained : (Ty.converted (.defaulted (Ty.strict .int) (.literal (.int 21)))
      [blankToUndefined]).constrain (World.scope {}) 0 [("gt", .int 18)] none =
        .ok (.ok (.constrained (.converted (.defaulted (Ty.strict .int) (.literal (.int 21)))
          [blankToUndefined]) (.predicate ⟨"gt?", [.int 18]⟩) Standard.predicates)) := rfl
  have hconverted := (Ty.Refined.withDefault hdefault).convertLast blankToUndefined
  exact (hconverted.constrain hconstrained).toSafe

def ageSchema : Schema Ty Func where
  keys := [⟨.symbol "age", adultAge, false⟩]

theorem refined_fills_ageSchema : adultAge.Refined (World.scope {}) (.int 21) ∧
    adultAge.letsThrough (.int 21) .undefined = true ∧
    ∃ es : Entries, ageSchema.Coerces (World.scope {}) {} (.hash []) (.ok (.hash es)) ∧
      es.get? (.symbol "age") = some (.int 21) := by
  have hthrough : adultAge.letsThrough (.int 21) .undefined = true := rfl
  obtain ⟨-, hfills⟩ := refined_fills refined_adultAge rfl
  obtain ⟨hfills, -⟩ := hfills ageSchema {} [] [] _ (List.pairwise_singleton _ _)
    List.mem_cons_self rfl (Or.inl rfl) (present_nil _) rfl
  have hage := hfills hthrough
  obtain ⟨out, hout⟩ := hage.completes (by simp) (by simp [ageSchema])
  obtain ⟨es, rfl, hes⟩ := hage.called out hout
  exact ⟨refined_adultAge, hthrough, es, hout, hes⟩

/-- A number that anything is converted to, with a default. -/
def count : Ty :=
  (Ty.defaulted (Ty.strict .int) (.literal (.int 1))).convertLast
    ⟨"coercible.to_integer", Coercible.integer⟩

def countSchema : Schema Ty Func where
  keys := [⟨.symbol "count", count, false⟩]

/-- The conversion comes before the default, and refuses the input that is missing. -/
theorem countSchema_not_filled :
    count.Refined (World.scope {}) (.int 1) ∧ count.isDefault = true ∧
    countSchema.Coerces (World.scope {}) {} (.hash []) (.error (.of (.schema (.symbol "count")
      .undefined (.coercion .undefined "cannot be coerced to an integer")))) := by
  have hdefault : (Ty.strict .int).withDefault (World.scope {}) 2 (.int 1) =
      .ok (.ok (.defaulted (Ty.strict .int) (.literal (.int 1)))) := rfl
  refine ⟨(Ty.Refined.withDefault hdefault).convertLast _, rfl, 1, ?_⟩
  simp only [coerce, present_nil]
  rfl

end Conform.Schema
