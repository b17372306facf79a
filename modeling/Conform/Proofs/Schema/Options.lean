import Conform.Proofs.Schema.Recorded

namespace Conform

/-- A choice of keys, the same for equal ones. -/
structure Selection where
  keeps : Value → Bool
  congr : ∀ k q : Value, (k == q) = true → keeps k = keeps q

/-- Every key. -/
def Selection.all : Selection where
  keeps _ := true
  congr _ _ _ := rfl

/-- The declared keys that the input has. -/
def Schema.declaredIn {τ φ : Type} (s : Schema τ φ) (present : Entries) : Selection where
  keeps q := (s.key? q).isSome && (present.get? q).isSome
  congr k q h := by simp only [key?, BEq.congr_right h, Entries.get?_congr h]

namespace Entries

/-- The entries under the keys of a selection. -/
def restrict (es : Entries) (sel : Selection) : Entries :=
  es.filter fun e => sel.keeps e.1

variable {sel : Selection}

theorem restrict_all (es : Entries) : es.restrict .all = es :=
  List.filter_true es

theorem restrict_cons (e : Value × Value) (es : Entries) :
    restrict (e :: es) sel = if sel.keeps e.1 then e :: restrict es sel else restrict es sel :=
  List.filter_cons

theorem restrict_insert (es : Entries) (k v : Value) :
    (es.insert k v).restrict sel =
      if sel.keeps k then (es.restrict sel).insert k v else es.restrict sel := by
  induction es with
  | nil => rw [insert, restrict_cons]; rfl
  | cons e es ih =>
    rw [restrict_cons e es]
    cases hek : e.1 == k with
    | true =>
      -- The old entry is selected with the one in its place.
      rw [sel.congr e.1 k hek, insert, if_pos hek, restrict_cons]
      split
      next => rw [insert, if_pos hek]
      next => rfl
    | false =>
      rw [insert, hek, if_neg Bool.false_ne_true, restrict_cons, ih]
      cases hk : sel.keeps k with
      | true => split <;> simp [insert, hek]
      | false => rfl

end Entries

namespace Schema

/-- Where nothing is missing, the second supply is the first without the keys that are not
selected. -/
def Narrows (sel : Selection) (keys : List (Key Ty)) (supply supply' : Key Ty → Supply) : Prop :=
  ∀ k ∈ keys, supply k ≠ .missing → supply' k = if sel.keeps k.name then supply k else .omitted

section

variable {sel : Selection} {supply supply' : Key Ty → Supply} {k : Key Ty} {keys : List (Key Ty)}

theorem restrict_keep (output : Entries) (name w : Value) :
    (keep output name w).restrict sel =
      if sel.keeps name then keep (output.restrict sel) name w else output.restrict sel := by
  unfold keep
  cases w.isUndefined with
  | true => simp
  | false => simp [Entries.restrict_insert]

theorem Advances.narrowed {call : Ty → Value → Run (Result Value)} {output next : Entries}
    (h : Advances call supply k output next)
    (hk : supply k ≠ .missing → supply' k = if sel.keeps k.name then supply k else .omitted) :
    Advances call supply' k (output.restrict sel) (next.restrict sel) := by
  rcases h with ⟨ho, rfl⟩ | ⟨v, w, hv, hw, rfl⟩
  · rw [ho, ite_self] at hk
    exact Or.inl ⟨hk Supply.noConfusion, rfl⟩
  · rw [hv] at hk
    have hk := hk Supply.noConfusion
    rw [restrict_keep]
    cases hs : sel.keeps k.name with
    | true =>
      rw [hs, if_pos rfl] at hk
      exact Or.inr ⟨v, w, hk, hw, rfl⟩
    | false =>
      rw [hs, if_neg Bool.false_ne_true] at hk
      exact Or.inl ⟨hk, rfl⟩

/-- Where the declared keys get through, a selection of them does, and gives its part of the
output. -/
theorem coerceKeys_narrowed {call : Ty → Value → Run (Result Value)}
    (hn : Narrows sel keys supply supply') {output es : Entries}
    (h : coerceKeys call supply keys output = .ok (.ok es)) :
    coerceKeys call supply' keys (output.restrict sel) = .ok (.ok (es.restrict sel)) := by
  induction keys generalizing output with
  | nil =>
    obtain rfl : output = es := by simpa [coerceKeys] using h
    rfl
  | cons k ks ih =>
    obtain ⟨hk, hks⟩ := List.forall_mem_cons.mp hn
    obtain ⟨next, hnext, h⟩ := coerceKeys_cons_eq_ok.mp h
    exact coerceKeys_cons_eq_ok.mpr ⟨_, hnext.narrowed hk, ih hks h⟩

theorem outputs_restrict (results : List (Value × Outcome)) :
    outputs (results.filter fun r => sel.keeps r.1) = (outputs results).restrict sel := by
  have hfold : ∀ output : Entries,
      (results.filter fun r => sel.keeps r.1).foldl (fun es r => keep es r.1 r.2.input)
          (output.restrict sel) =
        (results.foldl (fun es r => keep es r.1 r.2.input) output).restrict sel := by
    induction results with
    | nil => exact fun _ => rfl
    | cons r rs ih =>
      intro output
      rw [List.foldl_cons, ← ih, restrict_keep, List.filter_cons]
      cases hr : sel.keeps r.1 <;> simp
  exact hfold []

/-- Where all declared keys are accepted, those of a selection are. -/
theorem attemptKeys_narrowed {attempt : Ty → Value → Run Outcome}
    (hn : Narrows sel keys supply supply') {results : List (Value × Outcome)}
    (hs : ∀ r ∈ results, r.2.isSuccess = true)
    (h : attemptKeys attempt supply keys = .ok results) :
    attemptKeys attempt supply' keys = .ok (results.filter fun r => sel.keeps r.1) := by
  induction keys generalizing results with
  | nil =>
    obtain rfl : [] = results := by simpa [attemptKeys] using h
    rfl
  | cons k ks ih =>
    obtain ⟨hk, hks⟩ := List.forall_mem_cons.mp hn
    cases hsupply : supply k with
    | omitted =>
      rw [hsupply, ite_self] at hk
      simp only [attemptKeys, hsupply] at h
      simp only [attemptKeys, hk Supply.noConfusion]
      exact ih hks hs h
    | missing =>
      simp only [attemptKeys, hsupply, bind_eq_ok, pure_eq_ok] at h
      obtain ⟨rest, -, rfl⟩ := h
      exact Bool.noConfusion (hs _ List.mem_cons_self)
    | value v =>
      rw [hsupply] at hk
      simp only [attemptKeys, hsupply, bind_eq_ok, pure_eq_ok] at h
      obtain ⟨o, ho, rest, hrest, rfl⟩ := h
      have hrest := ih hks (List.forall_mem_cons.mp hs).2 hrest
      cases hsel : sel.keeps k.name with
      | true =>
        rw [hsel, if_pos rfl] at hk
        simp only [attemptKeys, hk Supply.noConfusion, ho, hrest, List.filter_cons, hsel]
        rfl
      | false =>
        rw [hsel, if_neg Bool.false_ne_true] at hk
        simp only [attemptKeys, hk Supply.noConfusion, hrest, List.filter_cons, hsel]
        rfl

end

section

variable {s : Schema Ty Func} {present : Entries}

/-- Skipping missing keys does not change what the others get. -/
theorem narrows_skip (resolve : Bool) :
    Narrows .all s.keys (s.supply ⟨false, resolve⟩ present) (s.supply ⟨true, resolve⟩ present) := by
  intro k _ hm
  unfold supply at hm ⊢
  simp only [Selection.all, ↓reduceIte]
  cases hp : present.get? k.name with
  | some v => rfl
  | none =>
    simp only [hp] at hm ⊢
    split
    next => rfl
    next hf =>
      rw [if_neg hf] at hm
      split at hm
      next => exact absurd rfl hm
      next hr => simp only [Bool.not_true, Bool.and_false, Bool.false_eq_true, if_false, if_neg hr]

/-- With only what is given, the keys are supplied that are present. -/
theorem narrows_given (ha : s.alwaysDefaults = false) (options : ApplyOptions) :
    Narrows (s.declaredIn present) s.keys (s.supply options present) (s.supply .given present) := by
  intro k hk _
  have hdeclared : (s.key? k.name).isSome = true := by
    rw [key?, List.find?_isSome]
    exact ⟨k, hk, BEq.refl k.name⟩
  unfold supply
  simp only [declaredIn, hdeclared, Bool.true_and, ApplyOptions.given, ha]
  cases present.get? k.name <;> simp

end

/-- Options relax an evaluation of a hash, which succeeds with some outputs under some options: it
succeeds alike if missing keys are skipped, and without defaults with the part that is given. -/
structure Relaxing (s : Schema Ty Func) (input : Entries)
    (succeeds : ApplyOptions → Value → Prop) : Prop where
  skipping : ∀ resolve out, succeeds ⟨false, resolve⟩ out → succeeds ⟨true, resolve⟩ out
  leaving : s.alwaysDefaults = false → ∀ skip out, succeeds ⟨skip, true⟩ out →
    ∃ present, ∃ es : Entries, s.present input = .ok present ∧ s.transform.Rekeys input present ∧
      out = .hash es ∧ succeeds .given (.hash (es.restrict (s.declaredIn present)))

/-- An evaluation of a hash that succeeds does so with fewer keys, and gives their part of the
output. -/
def Projects (s : Schema Ty Func) (input : Entries) (succeeds : ApplyOptions → Value → Prop) :
    Prop :=
  ∀ options out, succeeds options out → ∃ present, ∃ es : Entries,
    s.present input = .ok present ∧ out = .hash es ∧ ∀ options' sel,
      Narrows sel s.keys (s.supply options present) (s.supply options' present) →
        succeeds options' (.hash (es.restrict sel))

section

variable {scope : Scope} {s : Schema Ty Func} {input : Entries}

theorem Projects.relaxing {succeeds : ApplyOptions → Value → Prop}
    (h : s.Projects input succeeds) : s.Relaxing input succeeds where
  skipping := by
    intro resolve out hout
    obtain ⟨present, es, -, rfl, hproject⟩ := h _ out hout
    have hskip := hproject ⟨true, resolve⟩ .all (narrows_skip resolve)
    rwa [Entries.restrict_all] at hskip
  leaving := by
    intro ha skip out hout
    obtain ⟨present, es, hp, rfl, hproject⟩ := h _ out hout
    exact ⟨present, es, hp, rekeys_of_present hp, rfl, hproject .given _ (narrows_given ha _)⟩

theorem projects_coerces (scope : Scope) (s : Schema Ty Func) (input : Entries) :
    s.Projects input fun options out => s.Coerces scope options (.hash input) (.ok out) := by
  intro options out h
  obtain ⟨present, hp, hu, es, hes, rfl⟩ := coerces_ok_iff.mp h
  refine ⟨present, es, hp, rfl, fun options' sel hn => ?_⟩
  obtain ⟨fuel, hes⟩ := hes
  exact coerces_ok_iff.mpr ⟨present, hp, hu, _, ⟨fuel, coerceKeys_narrowed hn hes⟩, rfl⟩

theorem projects_attempts (scope : Scope) (s : Schema Ty Func) (input : Entries) :
    s.Projects input fun options out => s.Attempts scope options (.hash input) (.success out) := by
  intro options out h
  obtain ⟨present, hp, hu, fuel, results, hresults, hs, rfl⟩ := attempts_success_iff.mp h
  refine ⟨present, _, hp, rfl, fun options' sel hn => ?_⟩
  have hnarrowed := attemptKeys_narrowed hn hs hresults
  refine attempts_success_iff.mpr ⟨present, hp, hu, fuel, _, hnarrowed, fun r hr => ?_, ?_⟩
  · exact hs r (List.mem_of_mem_filter hr)
  · rw [outputs_restrict]

/-- A schema that resolves defaults anyway does not look at the option for it. -/
theorem supply_of_alwaysDefaults (ha : s.alwaysDefaults = true) (skip resolve resolve' : Bool)
    (present : Entries) :
    s.supply ⟨skip, resolve⟩ present = s.supply ⟨skip, resolve'⟩ present := by
  funext k
  simp only [supply, ha, Bool.or_true]

/-- How the options change what becomes of a hash. -/
theorem options_relax (scope : Scope) (s : Schema Ty Func) (input : Entries) :
    s.Relaxing input (fun options out => s.Coerces scope options (.hash input) (.ok out)) ∧
    s.Relaxing input (fun options out => s.Attempts scope options (.hash input) (.success out)) ∧
    (s.alwaysDefaults = true → ∀ skip resolve resolve',
      (∀ r, s.Coerces scope ⟨skip, resolve⟩ (.hash input) r ↔
        s.Coerces scope ⟨skip, resolve'⟩ (.hash input) r) ∧
      ∀ o, s.Attempts scope ⟨skip, resolve⟩ (.hash input) o ↔
        s.Attempts scope ⟨skip, resolve'⟩ (.hash input) o) := by
  refine ⟨(projects_coerces scope s input).relaxing, (projects_attempts scope s input).relaxing,
    fun ha skip resolve resolve' => ?_⟩
  have hsupply := supply_of_alwaysDefaults ha skip resolve resolve'
  constructor
  · intro r
    simp only [Coerces, coerce, hsupply]
  · intro o
    simp only [Attempts, attempt, hsupply]

/-- Without defaults, the length of a page is left out. -/
theorem options_relax_page :
    pageSchema.Coerces (World.scope {}) {} (.hash [(.string "page", .int 1)])
      (.ok (.hash [(.symbol "page", .int 1), (.symbol "size", .int 20)])) ∧
    pageSchema.Coerces (World.scope {}) .given (.hash [(.string "page", .int 1)])
      (.ok (.hash [(.symbol "page", .int 1)])) := by
  obtain ⟨hrelaxing, -⟩ := options_relax (World.scope {}) pageSchema [(.string "page", .int 1)]
  obtain ⟨present, es, hp, -, hes, hgiven⟩ := hrelaxing.leaving rfl false _ (coerces_page 1)
  obtain rfl := Except.ok.inj (hp.symm.trans (present_page 1))
  obtain rfl := Value.hash.inj hes
  exact ⟨coerces_page 1, hgiven⟩

end

end Schema

end Conform
