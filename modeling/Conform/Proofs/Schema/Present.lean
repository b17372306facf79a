import Conform.Proofs.Run
import Conform.Proofs.Value.Entries

namespace Conform

namespace KeyTransform

/-- An entry of the input whose value goes to a transformed key: of all that have this key, its own
key has the last text. -/
def Wins (t : KeyTransform Func) (input : Entries) (e : Value × Value) (k : Value) : Prop :=
  e ∈ input ∧ t.apply e.1 = .ok k ∧
    ∀ d ∈ input, ∀ l, t.apply d.1 = .ok l → (l == k) = true → d.1.debug ≤ e.1.debug

/-- The output is the input under transformed keys. -/
structure Rekeys (t : KeyTransform Func) (input output : Entries) : Prop where
  distinct : output.Distinct
  origin : ∀ p ∈ output, ∃ e, t.Wins input e p.1 ∧ e.2 = p.2
  covers : ∀ e ∈ input, ∀ k, t.apply e.1 = .ok k → ∃ p ∈ output, (p.1 == k) = true

variable {t : KeyTransform Func} {input output : Entries}

theorem Rekeys.perm {input' : Entries} (h : t.Rekeys input output) (hp : input.Perm input') :
    t.Rekeys input' output where
  distinct := h.distinct
  origin := by
    intro p hpo
    obtain ⟨e, ⟨he, hek, hlast⟩, hv⟩ := h.origin p hpo
    exact ⟨e, ⟨hp.mem_iff.mp he, hek, fun d hd => hlast d (hp.mem_iff.mpr hd)⟩, hv⟩
  covers := fun e he => h.covers e (hp.mem_iff.mpr he)

/-- An entry that comes after all others by text takes the place of those with its new key. -/
theorem Rekeys.insert (h : t.Rekeys input output) {e : Value × Value} {k : Value}
    (hk : t.apply e.1 = .ok k) (hlast : ∀ d ∈ input, d.1.debug ≤ e.1.debug) :
    t.Rekeys (input ++ [e]) (output.insert k e.2) where
  distinct := h.distinct.insert k e.2
  origin := by
    intro p hp
    rcases (Entries.mem_insert h.distinct).mp hp with rfl | ⟨hp, hpk⟩
    · refine ⟨e, ⟨by simp, hk, fun d hd _ _ _ => ?_⟩, rfl⟩
      rcases List.mem_append.mp hd with hd | hd
      · exact hlast d hd
      · exact List.mem_singleton.mp hd ▸ String.le_refl _
    · obtain ⟨d, ⟨hd, hdk, hdlast⟩, hv⟩ := h.origin p hp
      refine ⟨d, ⟨List.mem_append_left _ hd, hdk, fun c hc l hcl hlp => ?_⟩, hv⟩
      rcases List.mem_append.mp hc with hc | hc
      · exact hdlast c hc l hcl hlp
      · -- The new entry has another key than `p`.
        obtain rfl := List.mem_singleton.mp hc
        obtain rfl : k = l := Except.ok.inj (hk.symm.trans hcl)
        rw [BEq.comm, hlp] at hpk
        exact Bool.noConfusion hpk
  covers := by
    intro d hd l hdl
    rcases List.mem_append.mp hd with hd | hd
    · obtain ⟨p, hp, hpl⟩ := h.covers d hd l hdl
      cases hpk : p.1 == k with
      | true =>
        refine ⟨(k, e.2), (Entries.mem_insert h.distinct).mpr (Or.inl rfl), ?_⟩
        exact BEq.trans (BEq.symm hpk) hpl
      | false => exact ⟨p, (Entries.mem_insert h.distinct).mpr (Or.inr ⟨hp, hpk⟩), hpl⟩
    · obtain rfl := List.mem_singleton.mp hd
      obtain rfl : k = l := Except.ok.inj (hk.symm.trans hdl)
      exact ⟨(k, d.2), (Entries.mem_insert h.distinct).mpr (Or.inl rfl), BEq.refl k⟩

theorem rekeys_foldlM {rest : Entries} (h : t.Rekeys input output)
    (hs : (input ++ rest).Pairwise fun d e => d.1.debug ≤ e.1.debug)
    (hk : ∀ e ∈ rest, ∃ k, t.apply e.1 = .ok k) :
    ∃ present, rest.foldlM (fun es e => return es.insert (← t.apply e.1) e.2) output = .ok present ∧
      t.Rekeys (input ++ rest) present := by
  induction rest generalizing input output with
  | nil => exact ⟨output, rfl, by rwa [List.append_nil]⟩
  | cons e rest ih =>
    obtain ⟨⟨k, hek⟩, hrest⟩ := List.forall_mem_cons.mp hk
    have hlast : ∀ d ∈ input, d.1.debug ≤ e.1.debug := fun d hd =>
      (List.pairwise_append.mp hs).2.2 d hd e List.mem_cons_self
    rw [List.append_cons] at hs ⊢
    simp only [List.foldlM_cons, hek, ok_bind]
    exact ih (h.insert hek hlast) hs hrest

theorem foldlM_error {rest : Entries}
    (h : ∃ e ∈ rest, ∃ err, t.apply e.1 = .error err) (output : Entries) :
    ∃ e ∈ rest, ∃ err, t.apply e.1 = .error err ∧
      rest.foldlM (fun es e => return es.insert (← t.apply e.1) e.2) output = .error err := by
  induction rest generalizing output with
  | nil =>
    obtain ⟨e, he, -⟩ := h
    cases he
  | cons e rest ih =>
    cases he : t.apply e.1 with
    | error err => exact ⟨e, List.mem_cons_self, err, he, by simp [he, bind, Except.bind]⟩
    | ok k =>
      have hrest : ∃ e ∈ rest, ∃ err, t.apply e.1 = .error err := by
        obtain ⟨d, hd, err, hderr⟩ := h
        rcases List.mem_cons.mp hd with rfl | hd
        · rw [he] at hderr
          cases hderr
        · exact ⟨d, hd, err, hderr⟩
      obtain ⟨d, hd, err, hderr, hfold⟩ := ih hrest (output.insert k e.2)
      refine ⟨d, List.mem_cons_of_mem e hd, err, hderr, ?_⟩
      simp only [List.foldlM_cons, he, ok_bind]
      exact hfold

end KeyTransform

/-- When all keys can be transformed, a schema looks at the input under its transformed keys. -/
theorem Schema.present_rekeys {τ : Type} (s : Schema τ Func) {input : Entries}
    (h : ∀ e ∈ input, ∃ k, s.transform.apply e.1 = .ok k) :
    ∃ present, s.present input = .ok present ∧ s.transform.Rekeys input present := by
  have hperm := Entries.sorted_perm input
  have hnil : s.transform.Rekeys [] [] :=
    ⟨List.Pairwise.nil, fun _ hp => (nomatch hp), fun _ he => (nomatch he)⟩
  obtain ⟨present, hp, hr⟩ := KeyTransform.rekeys_foldlM hnil (Entries.sorted_pairwise input)
    fun e he => h e (hperm.mem_iff.mp he)
  exact ⟨present, hp, hr.perm hperm⟩

theorem Schema.present_nil {τ : Type} (s : Schema τ Func) : s.present [] = .ok [] := by
  simp only [present, Entries.sorted, List.mergeSort_nil]
  rfl

/-- The keys are transformed up to one that fails. -/
theorem Schema.present_of_transform_error {τ : Type} {s : Schema τ Func} {input : Entries}
    (h : ∃ e ∈ input, ∃ err, s.transform.apply e.1 = .error err) :
    ∃ e ∈ input, ∃ err, s.transform.apply e.1 = .error err ∧ s.present input = .error err := by
  have hperm := Entries.sorted_perm input
  obtain ⟨e, he, err, herr⟩ := h
  obtain ⟨d, hd, derr, hderr, hpresent⟩ :=
    KeyTransform.foldlM_error ⟨e, hperm.mem_iff.mpr he, err, herr⟩ []
  exact ⟨d, hperm.mem_iff.mp hd, derr, hderr, hpresent⟩

theorem Schema.rekeys_of_present {τ : Type} {s : Schema τ Func} {input present : Entries}
    (hp : s.present input = .ok present) : s.transform.Rekeys input present := by
  have hkeys : ∀ e ∈ input, ∃ k, s.transform.apply e.1 = .ok k := by
    intro e he
    cases hk : s.transform.apply e.1 with
    | ok k => exact ⟨k, rfl⟩
    | error err =>
      obtain ⟨_, _, err, _, herr⟩ := present_of_transform_error ⟨e, he, err, hk⟩
      cases hp.symm.trans herr
  obtain ⟨present', hp', hrekeys⟩ := s.present_rekeys hkeys
  obtain rfl := Except.ok.inj (hp.symm.trans hp')
  exact hrekeys

/-- The values that a schema looks at are those of the input. -/
theorem Schema.mem_of_present {τ : Type} {s : Schema τ Func} {input present : Entries}
    (hp : s.present input = .ok present) {name v : Value} (hv : present.get? name = some v) :
    ∃ e ∈ input, e.2 = v := by
  have hrekeys := rekeys_of_present hp
  obtain ⟨p, hmem, -, rfl⟩ := hrekeys.distinct.get?_eq_some.mp hv
  obtain ⟨e, ⟨he, -, -⟩, hval⟩ := hrekeys.origin p hmem
  exact ⟨e, he, hval⟩

end Conform
