import Conform.Proofs.Run
import Conform.Proofs.Schema.Keys
import Conform.Proofs.Schema.Supply
import Conform.Proofs.Value.Entries

namespace Conform.Schema

/-- What a declared key that does not fail does to the output. -/
def Advances (call : Ty → Value → Run (Result Value)) (supply : Key Ty → Supply) (k : Key Ty)
    (output next : Entries) : Prop :=
  (supply k = .omitted ∧ next = output) ∨
    ∃ v w, supply k = .value v ∧ call k.type v = .ok (.ok w) ∧ next = keep output k.name w

section

variable {call : Ty → Value → Run (Result Value)} {supply : Key Ty → Supply} {k : Key Ty}
  {ks : List (Key Ty)} {output : Entries}

theorem coerceKeys_cons_eq_ok {es : Entries} :
    coerceKeys call supply (k :: ks) output = .ok (.ok es) ↔
      ∃ next, Advances call supply k output next ∧
        coerceKeys call supply ks next = .ok (.ok es) := by
  unfold Advances
  rw [coerceKeys]
  cases hs : supply k with
  | omitted => simp
  | missing => simp
  | value v =>
    simp only [bind_eq_ok]
    constructor
    · rintro ⟨r, hr, h⟩
      cases r with
      | error e => simp [pure_eq_ok] at h
      | ok w => exact ⟨_, Or.inr ⟨v, w, rfl, hr, rfl⟩, h⟩
    · rintro ⟨next, ⟨ho, _⟩ | ⟨u, w, hu, hw, rfl⟩, h⟩
      · exact absurd ho (by simp)
      · obtain rfl : v = u := by simpa using hu
        exact ⟨.ok w, hw, h⟩

theorem coerceKeys_cons_eq_error {e : Error} :
    coerceKeys call supply (k :: ks) output = .ok (.error e) ↔
      (supply k = .missing ∧ e = .of (.missingKey k.name)) ∨
      (∃ v f, supply k = .value v ∧ call k.type v = .ok (.error f) ∧
        e = .of (.schema k.name v f)) ∨
      ∃ next, Advances call supply k output next ∧
        coerceKeys call supply ks next = .ok (.error e) := by
  unfold Advances
  rw [coerceKeys]
  cases hs : supply k with
  | omitted => simp
  | missing => simp [eq_comm]
  | value v =>
    simp only [bind_eq_ok]
    constructor
    · rintro ⟨r, hr, h⟩
      cases r with
      | error f =>
        obtain rfl : Error.of (.schema k.name v f) = e := by simpa [pure_eq_ok] using h
        exact Or.inr (Or.inl ⟨v, f, rfl, hr, rfl⟩)
      | ok w => exact Or.inr (Or.inr ⟨_, Or.inr ⟨v, w, rfl, hr, rfl⟩, h⟩)
    · rintro (⟨hm, _⟩ | ⟨u, f, hu, hf, rfl⟩ | ⟨next, ⟨ho, _⟩ | ⟨u, w, hu, hw, rfl⟩, h⟩)
      · exact absurd hm (by simp)
      · obtain rfl : v = u := by simpa using hu
        exact ⟨.error f, hf, rfl⟩
      · exact absurd ho (by simp)
      · obtain rfl : v = u := by simpa using hu
        exact ⟨.ok w, hw, h⟩

theorem get?_keep (output : Entries) (name w q : Value) :
    (keep output name w).get? q =
      if (name == q && !w.isUndefined) = true then some w else output.get? q := by
  unfold keep
  cases w.isUndefined with
  | true => simp
  | false => simp [Entries.get?_insert]

theorem Advances.distinct {next : Entries} (h : Advances call supply k output next)
    (hd : output.Distinct) : next.Distinct := by
  rcases h with ⟨-, rfl⟩ | ⟨v, w, -, -, rfl⟩
  · exact hd
  · unfold keep
    split
    · exact hd
    · exact hd.insert k.name w

/-- Where the output gets a value from. -/
def Yields (call : Ty → Value → Run (Result Value)) (supply : Key Ty → Supply) (k : Key Ty)
    (q w : Value) : Prop :=
  (k.name == q) = true ∧ w.isUndefined = false ∧
    ∃ v, supply k = .value v ∧ call k.type v = .ok (.ok w)

/-- A key adds its own value to the output and leaves the others alone. -/
theorem Advances.get? {next : Entries} (h : Advances call supply k output next)
    (hn : output.get? k.name = none) (q w : Value) :
    next.get? q = some w ↔ output.get? q = some w ∨ Yields call supply k q w := by
  unfold Yields
  rcases h with ⟨ho, rfl⟩ | ⟨v, u, hv, hu, rfl⟩
  · simp [ho]
  · have hcall : ∀ w, call k.type v = .ok (.ok w) ↔ u = w := by
      intro w
      simp [hu]
    simp only [get?_keep, hv, Supply.value.injEq, exists_eq_left', hcall, Bool.and_eq_true,
      Bool.not_eq_true']
    split
    next hkeep =>
      have hq : output.get? q = none := by rw [← Entries.get?_congr hkeep.1, hn]
      simp only [hq, hkeep.1, reduceCtorEq, true_and, false_or, Option.some.injEq]
      exact ⟨fun huw => ⟨huw ▸ hkeep.2, huw⟩, fun huw => huw.2⟩
    next hkeep =>
      refine ⟨Or.inl, fun hw => hw.resolve_right ?_⟩
      rintro ⟨hkq, hdef, rfl⟩
      exact hkeep ⟨hkq, hdef⟩

end

section

variable {call : Ty → Value → Run (Result Value)} {s : Schema Ty Func} {options : ApplyOptions}
  {present : Entries} {keys : List (Key Ty)}

theorem exists_advances_iff {k : Key Ty} {output : Entries} :
    (∃ next, Advances call (s.supply options present) k output next) ↔
      s.Satisfied options present (fun ty v r => call ty v = .ok r) k := by
  rw [satisfied_iff]
  unfold Advances
  constructor
  · rintro ⟨next, ⟨ho, -⟩ | ⟨v, w, hv, hw, -⟩⟩
    · exact Or.inl ho
    · exact Or.inr ⟨v, w, hv, hw⟩
  · rintro (ho | ⟨v, w, hv, hw⟩)
    · exact ⟨output, Or.inl ⟨ho, rfl⟩⟩
    · exact ⟨_, Or.inr ⟨v, w, hv, hw, rfl⟩⟩

/-- The declared keys get through when each of them does, whatever the others do. -/
theorem coerceKeys_ok_iff (output : Entries) :
    (∃ es, coerceKeys call (s.supply options present) keys output = .ok (.ok es)) ↔
      ∀ k ∈ keys, s.Satisfied options present (fun ty v r => call ty v = .ok r) k := by
  induction keys generalizing output with
  | nil => simp [coerceKeys]
  | cons k ks ih =>
    simp only [coerceKeys_cons_eq_ok, List.forall_mem_cons]
    rw [← @exists_advances_iff _ _ _ _ _ output]
    constructor
    · rintro ⟨es, next, hk, hks⟩
      exact ⟨⟨next, hk⟩, (ih next).mp ⟨es, hks⟩⟩
    · rintro ⟨⟨next, hk⟩, hks⟩
      obtain ⟨es, hes⟩ := (ih next).mpr hks
      exact ⟨es, next, hk, hes⟩

/-- They fail with the first of them that does. -/
theorem coerceKeys_error_iff (output : Entries) {e : Error} :
    coerceKeys call (s.supply options present) keys output = .ok (.error e) ↔
      ∃ before k after, keys = before ++ k :: after ∧
        (∀ j ∈ before, s.Satisfied options present (fun ty v r => call ty v = .ok r) j) ∧
        s.Refuses options present (fun ty v r => call ty v = .ok r) k e := by
  induction keys generalizing output with
  | nil => simp [coerceKeys]
  | cons k ks ih =>
    rw [coerceKeys_cons_eq_error]
    constructor
    · rintro (⟨hm, rfl⟩ | ⟨v, f, hv, hf, rfl⟩ | ⟨next, hk, hks⟩)
      · obtain ⟨hp, hf, hr⟩ := supply_eq_missing.mp hm
        exact ⟨[], k, ks, rfl, by simp, .missing hp hf hr⟩
      · exact ⟨[], k, ks, rfl, by simp, .invalid (supply_eq_value.mp hv) hf⟩
      · obtain ⟨before, l, after, rfl, hbefore, hl⟩ := (ih next).mp hks
        refine ⟨k :: before, l, after, rfl, List.forall_mem_cons.mpr ⟨?_, hbefore⟩, hl⟩
        exact exists_advances_iff.mp ⟨next, hk⟩
    · rintro ⟨before, l, after, heq, hbefore, hl⟩
      cases before with
      | nil =>
        obtain ⟨rfl, rfl⟩ := List.cons.inj heq
        cases hl with
        | missing hp hf hr => exact Or.inl ⟨supply_eq_missing.mpr ⟨hp, hf, hr⟩, rfl⟩
        | invalid hv he => exact Or.inr (Or.inl ⟨_, _, supply_eq_value.mpr hv, he, rfl⟩)
      | cons j before =>
        obtain ⟨rfl, rfl⟩ := List.cons.inj heq
        obtain ⟨hj, hbefore⟩ := List.forall_mem_cons.mp hbefore
        obtain ⟨next, hnext⟩ := exists_advances_iff.mpr hj
        exact Or.inr (Or.inr ⟨next, hnext, (ih next).mpr ⟨before, l, after, rfl, hbefore, hl⟩⟩)

end

theorem coerceKeys_distinct {call : Ty → Value → Run (Result Value)} {supply : Key Ty → Supply}
    {keys : List (Key Ty)} {output es : Entries} (hd : output.Distinct)
    (h : coerceKeys call supply keys output = .ok (.ok es)) : es.Distinct := by
  induction keys generalizing output with
  | nil =>
    obtain rfl : output = es := by simpa [coerceKeys] using h
    exact hd
  | cons k ks ih =>
    obtain ⟨next, hk, hks⟩ := coerceKeys_cons_eq_ok.mp h
    exact ih (hk.distinct hd) hks

/-- In the end the output has what each key yields, and nothing else. -/
theorem coerceKeys_get? {call : Ty → Value → Run (Result Value)} {supply : Key Ty → Supply}
    {keys : List (Key Ty)} {output es : Entries} (hd : NamesDiffer keys)
    (hn : ∀ k ∈ keys, output.get? k.name = none)
    (h : coerceKeys call supply keys output = .ok (.ok es)) (q w : Value) :
    es.get? q = some w ↔ output.get? q = some w ∨ ∃ k ∈ keys, Yields call supply k q w := by
  induction keys generalizing output with
  | nil =>
    obtain rfl : output = es := by simpa [coerceKeys] using h
    simp
  | cons k ks ih =>
    obtain ⟨next, hk, hks⟩ := coerceKeys_cons_eq_ok.mp h
    obtain ⟨hdk, hdks⟩ := List.pairwise_cons.mp hd
    obtain ⟨hnk, hnks⟩ := List.forall_mem_cons.mp hn
    have hnext : ∀ l ∈ ks, next.get? l.name = none := by
      intro l hl
      rw [Option.eq_none_iff_forall_ne_some]
      intro u hu
      rcases (hk.get? hnk l.name u).mp hu with hu | hu
      · simp [hnks l hl] at hu
      · have hne := hdk l hl
        rw [hu.1] at hne
        exact Bool.noConfusion hne
    rw [ih hdks hnext hks, hk.get? hnk, List.exists_mem_cons_iff, or_assoc]

end Conform.Schema
