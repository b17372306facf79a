import Conform.Proofs.Value.Equality
import Conform.Schema
import Mathlib.Data.List.Pairwise

namespace Conform.Entries

/-- The keys of a hash differ from each other. -/
def Distinct (es : Entries) : Prop :=
  es.Pairwise fun d e => (d.1 == e.1) = false

theorem get?_cons (e : Value × Value) (es : Entries) (q : Value) :
    get? (e :: es) q = if e.1 == q then some e.2 else get? es q := by
  unfold get?
  cases h : e.1 == q <;> simp [h]

theorem get?_congr {es : Entries} {k q : Value} (h : (k == q) = true) :
    es.get? k = es.get? q := by
  induction es with
  | nil => rfl
  | cons e es ih => rw [get?_cons, get?_cons, ih, BEq.congr_right h]

theorem get?_insert (es : Entries) (k v q : Value) :
    (es.insert k v).get? q = if k == q then some v else es.get? q := by
  induction es with
  | nil => rw [insert, get?_cons]
  | cons e es ih =>
    unfold insert
    cases hek : e.1 == k with
    | true =>
      rw [if_pos rfl, get?_cons, get?_cons, BEq.congr_left hek]
      split <;> rfl
    | false =>
      rw [if_neg Bool.false_ne_true, get?_cons, get?_cons, ih]
      cases heq : e.1 == q with
      | false => rfl
      | true =>
        have hkq : (k == q) = false := by
          rw [← hek, BEq.comm (a := e.1), BEq.congr_right (BEq.symm heq)]
        rw [hkq]
        rfl

/-- An entry under a key is the only one. -/
theorem Distinct.get?_eq_some {es : Entries} (h : es.Distinct) {q v : Value} :
    es.get? q = some v ↔ ∃ e ∈ es, (e.1 == q) = true ∧ e.2 = v := by
  induction es with
  | nil => simp [get?]
  | cons e es ih =>
    obtain ⟨he, hes⟩ := List.pairwise_cons.mp h
    rw [get?_cons, List.exists_mem_cons_iff]
    cases heq : e.1 == q with
    | false => simpa using ih hes
    | true =>
      have hnone : ¬∃ d ∈ es, (d.1 == q) = true ∧ d.2 = v := by
        rintro ⟨d, hd, hdq, -⟩
        have hne := he d hd
        rw [BEq.congr_left heq, BEq.comm, hdq] at hne
        exact Bool.noConfusion hne
      simp [hnone]

theorem mem_insert {es : Entries} (h : es.Distinct) {k v : Value} {p : Value × Value} :
    p ∈ es.insert k v ↔ p = (k, v) ∨ p ∈ es ∧ (p.1 == k) = false := by
  induction es with
  | nil => simp [insert]
  | cons e es ih =>
    obtain ⟨he, hes⟩ := List.pairwise_cons.mp h
    unfold insert
    cases hek : e.1 == k with
    | true =>
      have hother : ∀ d ∈ es, (d.1 == k) = false := by
        intro d hd
        rw [← he d hd, BEq.comm (a := d.1), BEq.congr_left hek]
      rw [if_pos rfl, List.mem_cons, List.mem_cons]
      constructor
      · rintro (hp | hp)
        · exact Or.inl hp
        · exact Or.inr ⟨Or.inr hp, hother p hp⟩
      · rintro (hp | ⟨rfl | hp, hpk⟩)
        · exact Or.inl hp
        · simp [hek] at hpk
        · exact Or.inr hp
    | false =>
      rw [if_neg Bool.false_ne_true, List.mem_cons, List.mem_cons, ih hes]
      constructor
      · rintro (rfl | hp | ⟨hp, hpk⟩)
        · exact Or.inr ⟨Or.inl rfl, hek⟩
        · exact Or.inl hp
        · exact Or.inr ⟨Or.inr hp, hpk⟩
      · rintro (hp | ⟨rfl | hp, hpk⟩)
        · exact Or.inr (Or.inl hp)
        · exact Or.inl rfl
        · exact Or.inr (Or.inr ⟨hp, hpk⟩)

theorem Distinct.insert {es : Entries} (h : es.Distinct) (k v : Value) :
    (es.insert k v).Distinct := by
  induction es with
  | nil => exact List.pairwise_singleton _ _
  | cons e es ih =>
    obtain ⟨he, hes⟩ := List.pairwise_cons.mp h
    unfold Entries.insert
    cases hek : e.1 == k with
    | true =>
      rw [if_pos rfl]
      refine List.pairwise_cons.mpr ⟨fun d hd => ?_, hes⟩
      rw [← he d hd, BEq.congr_left hek]
    | false =>
      rw [if_neg Bool.false_ne_true]
      refine List.pairwise_cons.mpr ⟨fun d hd => ?_, ih hes⟩
      rcases (mem_insert hes).mp hd with rfl | ⟨hd, -⟩
      · exact hek
      · exact he d hd

theorem insert_eq_append {es : Entries} {k : Value} (h : ∀ e ∈ es, (e.1 == k) = false)
    (v : Value) : es.insert k v = es ++ [(k, v)] := by
  induction es with
  | nil => rfl
  | cons e es ih =>
    obtain ⟨he, hes⟩ := List.forall_mem_cons.mp h
    unfold Entries.insert
    rw [he, if_neg Bool.false_ne_true, ih hes, List.cons_append]

theorem foldl_insert_eq_append {es added : Entries} (h : Distinct (es ++ added)) :
    added.foldl (fun es e => es.insert e.1 e.2) es = es ++ added := by
  induction added generalizing es with
  | nil => simp
  | cons e added ih =>
    have he : ∀ d ∈ es, (d.1 == e.1) = false := fun d hd =>
      (List.pairwise_append.mp h).2.2 d hd e List.mem_cons_self
    rw [List.append_cons] at h
    rw [List.foldl_cons, insert_eq_append he, ih h, ← List.append_cons]

/-- Pairs of different keys are entries as they stand. -/
theorem ofPairs_eq {es : Entries} (h : es.Distinct) : ofPairs es = es :=
  foldl_insert_eq_append h

theorem sorted_perm (es : Entries) : es.sorted.Perm es :=
  List.mergeSort_perm es _

section

variable (a b c : Value × Value)

theorem debug_le_trans (hab : decide (a.1.debug ≤ b.1.debug) = true)
    (hbc : decide (b.1.debug ≤ c.1.debug) = true) : decide (a.1.debug ≤ c.1.debug) = true := by
  rw [decide_eq_true_eq] at hab hbc ⊢
  exact String.le_trans hab hbc

theorem debug_le_total :
    (decide (a.1.debug ≤ b.1.debug) || decide (b.1.debug ≤ a.1.debug)) = true := by
  rw [Bool.or_eq_true, decide_eq_true_eq, decide_eq_true_eq]
  exact String.le_total _ _

end

theorem sorted_pairwise (es : Entries) :
    es.sorted.Pairwise fun d e => d.1.debug ≤ e.1.debug :=
  (List.pairwise_mergeSort debug_le_trans debug_le_total es).imp fun hde => of_decide_eq_true hde

theorem Distinct.perm {es fs : Entries} (h : es.Distinct) (hp : es.Perm fs) : fs.Distinct :=
  (hp.pairwise_iff fun hde => by rw [BEq.comm, hde]).mp h

end Conform.Entries
