import Conform.Proofs.Schema.Resolution

namespace Conform.Schema

section

variable {call : Ty → Value → Run (Result Value)} {supply : Key Ty → Supply} {k : Key Ty}
  {keys : List (Key Ty)} {output es : Entries} {q : Value}

theorem isSome_keep {name w : Value} (h : (output.get? q).isSome = true) :
    ((keep output name w).get? q).isSome = true := by
  rw [get?_keep]
  split
  next => rfl
  next => exact h

theorem Advances.isSome {next : Entries} (hk : Advances call supply k output next)
    (h : (output.get? q).isSome = true) : (next.get? q).isSome = true := by
  rcases hk with ⟨-, rfl⟩ | ⟨v, w, -, -, rfl⟩
  · exact h
  · exact isSome_keep h

/-- What is in the output stays in it. -/
theorem coerceKeys_isSome (hes : coerceKeys call supply keys output = .ok (.ok es))
    (h : (output.get? q).isSome = true) : (es.get? q).isSome = true := by
  induction keys generalizing output with
  | nil =>
    obtain rfl : output = es := by simpa [coerceKeys] using hes
    exact h
  | cons k ks ih =>
    obtain ⟨next, hk, hks⟩ := coerceKeys_cons_eq_ok.mp hes
    exact ih hks (hk.isSome h)

/-- A key that is given a value is in the output, unless its type makes undefined of it. -/
theorem coerceKeys_supplied (hes : coerceKeys call supply keys output = .ok (.ok es))
    (hk : k ∈ keys) {v : Value} (hv : supply k = .value v) :
    ∃ w, call k.type v = .ok (.ok w) ∧
      (w.isUndefined = false → (es.get? k.name).isSome = true) := by
  induction keys generalizing output with
  | nil => cases hk
  | cons l ls ih =>
    obtain ⟨next, hl, hls⟩ := coerceKeys_cons_eq_ok.mp hes
    rcases List.mem_cons.mp hk with rfl | hk
    · rcases hl with ⟨ho, -⟩ | ⟨u, w, hu, hw, rfl⟩
      · cases hv.symm.trans ho
      · obtain rfl := Supply.value.inj (hv.symm.trans hu)
        refine ⟨w, hw, fun hdef => coerceKeys_isSome hls ?_⟩
        simp [get?_keep, hdef]
    · exact ih hls hk

end

section

variable {scope : Scope} {s : Schema Ty Func} {options : ApplyOptions} {present es : Entries}
  {k : Key Ty}

theorem keysEnd_supplied (h : KeysEnd scope s options present (.ok es)) (hk : k ∈ s.keys)
    {v : Value} (hv : s.Given options present k v) :
    ∃ w, k.type.Coerces scope v (.ok w) ∧
      (w.isUndefined = false → (es.get? k.name).isSome = true) := by
  obtain ⟨fuel, h⟩ := h
  obtain ⟨w, hw, hes⟩ := coerceKeys_supplied h hk (supply_eq_value.mpr hv)
  exact ⟨w, ⟨fuel, hw⟩, hes⟩

/-- With names that differ, a key has in the output what its type makes of its value. -/
theorem keysEnd_get?_name (hn : NamesDiffer s.keys) (h : KeysEnd scope s options present (.ok es))
    (hk : k ∈ s.keys) {v w : Value} (hv : s.Given options present k v)
    (hw : k.type.Coerces scope v (.ok w)) :
    es.get? k.name = if w.isUndefined then none else some w := by
  cases hdef : w.isUndefined with
  | false => exact (keysEnd_get? hn h k.name w).mpr ⟨hdef, k, hk, BEq.refl k.name, v, hv, hw⟩
  | true =>
    rw [if_pos rfl, Option.eq_none_iff_forall_ne_some]
    intro u hu
    obtain ⟨hudef, l, hl, hlk, v', hv', hu⟩ := (keysEnd_get? hn h k.name u).mp hu
    obtain rfl : l = k := hn.eq_of_name hl hk hlk
    obtain rfl : v = v' := Supply.value.inj
      ((supply_eq_value.mpr hv).symm.trans (supply_eq_value.mpr hv'))
    obtain rfl : w = u := Except.ok.inj (hw.unique hu)
    rw [hdef] at hudef
    exact Bool.noConfusion hudef

/-- A required key that gets through was given a value, if missing keys are not skipped. -/
theorem exists_given_of_required (hs : options.skipMissing = false) (hr : k.required = true)
    {ends : Ty → Value → Result Value → Prop} (h : s.Satisfied options present ends k) :
    ∃ v, s.Given options present k v := by
  rcases satisfied_iff.mp h with ho | ⟨v, -, hv, -⟩
  · exact absurd ⟨hr, hs⟩ (supply_eq_omitted.mp ho).2.2
  · exact ⟨v, supply_eq_value.mp hv⟩

end

/-- What becomes of a required key of a hash if missing keys are not skipped: a call that succeeds
has it in the output, unless its type made undefined of its value; and no call succeeds if it is
missing and does not fill in. -/
structure Requires (scope : Scope) (s : Schema Ty Func) (options : ApplyOptions) (input : Entries)
    (k : Key Ty) : Prop where
  supplied : ∀ out, s.Coerces scope options (.hash input) (.ok out) →
    ∃ present, ∃ es : Entries, ∃ v w, s.present input = .ok present ∧
      s.transform.Rekeys input present ∧ out = .hash es ∧ s.Given options present k v ∧
      k.type.Coerces scope v (.ok w) ∧ (w.isUndefined = false → (es.get? k.name).isSome = true) ∧
      (NamesDiffer s.keys → es.get? k.name = if w.isUndefined then none else some w)
  missing : ∀ present, s.present input = .ok present → present.get? k.name = none →
    ¬s.FillsIn options k →
      (∀ out, ¬s.Coerces scope options (.hash input) (.ok out)) ∧
      ∀ before after, s.keys = before ++ k :: after →
        (∀ j ∈ before, s.Satisfied options present (Ty.Coerces scope) j) →
        ¬(s.strict = true ∧ ∃ p ∈ present, s.Undeclared p.1) →
          ∀ r, s.Coerces scope options (.hash input) r ↔ r = .error (.of (.missingKey k.name))

/-- Required keys are present in the output of every call that succeeds, or made undefined. -/
theorem coerces_requires (scope : Scope) (s : Schema Ty Func) (options : ApplyOptions)
    (input : Entries) {k : Key Ty} (hk : k ∈ s.keys) (hr : k.required = true)
    (hs : options.skipMissing = false) : s.Requires scope options input k where
  supplied := by
    intro out h
    obtain ⟨present, hp, -, es, hes, rfl⟩ := coerces_ok_iff.mp h
    obtain ⟨v, hv⟩ := exists_given_of_required hs hr (keysEnd_ok_iff.mp ⟨es, hes⟩ k hk)
    obtain ⟨w, hw, hsome⟩ := keysEnd_supplied hes hk hv
    exact ⟨present, es, v, w, hp, rekeys_of_present hp, rfl, hv, hw, hsome,
      fun hn => keysEnd_get?_name hn hes hk hv hw⟩
  missing := by
    intro present hp hnone hf
    constructor
    · intro out h
      obtain ⟨present', hp', -, es, hes, -⟩ := coerces_ok_iff.mp h
      obtain rfl := Except.ok.inj (hp.symm.trans hp')
      obtain ⟨v, hv⟩ := exists_given_of_required hs hr (keysEnd_ok_iff.mp ⟨es, hes⟩ k hk)
      rcases hv with hv | ⟨-, hfills, -⟩
      · cases hnone.symm.trans hv
      · exact hf hfills
    · intro before after hkeys hbefore hu r
      have herror : s.Coerces scope options (.hash input) (.error (.of (.missingKey k.name))) :=
        (coerces_hash_error_iff hp hu _).mpr <| keysEnd_error_iff.mpr
          ⟨before, k, after, hkeys, hbefore, .missing hnone hf ⟨hr, hs⟩⟩
      constructor
      · exact fun h => h.unique herror
      · rintro rfl
        exact herror

/-- Without a page there is an error for it, and where there is one it is in the output. -/
theorem coerces_requires_page :
    (⟨.symbol "page", Ty.strict .int, true⟩ : Key Ty) ∈ pageSchema.keys ∧
    pageSchema.Coerces (World.scope {}) {} (.hash [])
      (.error (.of (.missingKey (.symbol "page")))) ∧
    ∃ es : Entries, pageSchema.Coerces (World.scope {}) {} (.hash [(.string "page", .int 2)])
      (.ok (.hash es)) ∧ es.get? (.symbol "page") = some (.int 2) := by
  have hk : (⟨.symbol "page", Ty.strict .int, true⟩ : Key Ty) ∈ pageSchema.keys :=
    List.mem_cons_self
  have hf : ¬pageSchema.FillsIn {} ⟨.symbol "page", Ty.strict .int, true⟩ := by
    rintro ⟨hdefault, -⟩
    exact Bool.noConfusion hdefault
  have hrequires := fun input =>
    coerces_requires (World.scope {}) pageSchema {} input hk rfl rfl
  have hmissing := ((hrequires []).missing [] (present_nil _) rfl hf).2 [] _ rfl (by simp) (by simp)
  obtain ⟨present, es, v, w, hp, -, heq, hv, hw, -, hnamed⟩ :=
    (hrequires _).supplied _ (coerces_page 2)
  obtain rfl := Except.ok.inj ((present_page 2).symm.trans hp)
  obtain rfl := Value.hash.inj heq
  have hgiven := (supply_eq_value.mpr hv).symm.trans
    (show pageSchema.supply {} _ _ = .value (.int 2) from rfl)
  obtain rfl := Supply.value.inj hgiven
  have hcoerced : (Ty.strict .int).Coerces (World.scope {}) (.int 2) (.ok (.int 2)) := ⟨2, rfl⟩
  obtain rfl := Except.ok.inj (hw.unique hcoerced)
  exact ⟨hk, (hmissing _).mpr rfl, _, coerces_page 2, hnamed (by simp [NamesDiffer, pageSchema])⟩

/-- Takes blank text for undefined. -/
def blankToUndefined : Func where
  handle := "blank_to_undefined"
  call v := if v == .string "" then .ok .undefined else .ok v

/-- A name is required, but may be blank. -/
def nameSchema : Schema Ty Func where
  keys := [⟨.symbol "name", (Ty.nominal .any {}).convertLast blankToUndefined, true⟩]

/-- A blank name is present in the input, and not in the output. -/
theorem required_name_left_out : ∃ k ∈ nameSchema.keys, k.required = true ∧
    nameSchema.Coerces (World.scope {}) {} (.hash [(k.name, .string "")]) (.ok (.hash [])) ∧
    Entries.get? [] k.name = none := by
  refine ⟨_, List.mem_cons_self, rfl, ⟨2, ?_⟩, rfl⟩
  simp only [coerce, present, Entries.sorted, List.mergeSort_singleton]
  rfl

end Conform.Schema
