import Conform.Metadata
import Mathlib.Data.List.Nodup
import Mathlib.Data.List.Perm.Basic

namespace Conform.Metadata

theorem put_eq_append {name : String} {es : List (String × Value)} (h : ∀ e ∈ es, e.1 < name)
    (value : Value) : put name value es = es ++ [(name, value)] := by
  induction es with
  | nil => rfl
  | cons e es ih =>
    obtain ⟨he, hes⟩ := List.forall_mem_cons.mp h
    have hne : ¬name = e.1 := fun heq => String.lt_irrefl _ (heq ▸ he)
    have hnot : ¬name < e.1 := String.lt_asymm he
    unfold put
    rw [if_neg hne, if_neg hnot, ih hes, List.cons_append]

theorem foldl_insert_entries {m : Metadata} {added : List (String × Value)}
    (h : (m.entries ++ added).Pairwise fun d e => d.1 < e.1) :
    (added.foldl (fun m e => m.insert e.1 e.2) m).entries = m.entries ++ added := by
  induction added generalizing m with
  | nil => simp
  | cons e added ih =>
    have he : ∀ d ∈ m.entries, d.1 < e.1 := fun d hd =>
      (List.pairwise_append.mp h).2.2 d hd e List.mem_cons_self
    have hentries : (m.insert e.1 e.2).entries = m.entries ++ [e] := put_eq_append he e.2
    rw [List.append_cons, ← hentries] at h
    rw [List.foldl_cons, ih h, hentries, ← List.append_cons]

theorem ext_entries {m n : Metadata} (h : m.entries = n.entries) : m = n := by
  cases m
  cases n
  simpa using h

/-- Metadata are made of their entries. -/
theorem ofList_entries (m : Metadata) : ofList m.entries = m := by
  apply ext_entries
  exact foldl_insert_entries (m := {}) m.sorted

theorem eq_empty {m : Metadata} (h : m.isEmpty = true) : m = {} :=
  ext_entries (List.isEmpty_iff.mp h)

theorem find?_put (name : String) (value : Value) (q : String) (es : List (String × Value)) :
    (put name value es).find? (fun e => e.1 = q) =
      if name = q then some (name, value) else es.find? fun e => e.1 = q := by
  induction es with
  | nil => simp [put]
  | cons e es ih =>
    by_cases hq : name = q
    · subst hq
      unfold put
      split
      next heq => simp
      next hne =>
        have hother : ¬e.1 = name := fun h => hne h.symm
        split
        next => simp
        next => simp [hother, ih]
    · unfold put
      split
      next heq =>
        have hother : ¬e.1 = q := fun h => hq (heq.trans h)
        simp [hq, hother]
      next =>
        split
        next => simp [hq]
        next => simp [hq, ih, List.find?_cons]

theorem get?_insert (m : Metadata) (name : String) (value : Value) (q : String) :
    (m.insert name value).get? q = if name = q then some value else m.get? q := by
  simp only [get?, insert, find?_put]
  split <;> rfl

/-- Of two notes with one name, the one that is added counts. -/
theorem get?_merge (m other : Metadata) (q : String) :
    (m.merge other).get? q = (other.get? q).or (m.get? q) := by
  have hfold : ∀ es : List (String × Value), es.Pairwise (fun d e => d.1 < e.1) → ∀ m : Metadata,
      (es.foldl (fun m e => m.insert e.1 e.2) m).get? q =
        ((es.find? fun e => e.1 = q).map Prod.snd).or (m.get? q) := by
    intro es hes
    induction es with
    | nil =>
      intro m
      rfl
    | cons e es ih =>
      intro m
      obtain ⟨hfirst, hrest⟩ := List.pairwise_cons.mp hes
      rw [List.foldl_cons, ih hrest, get?_insert]
      by_cases hq : e.1 = q
      · have hnone : es.find? (fun d => d.1 = q) = none := by
          apply List.find?_eq_none.mpr
          intro d hd heq
          have hlt := hfirst d hd
          rw [hq, of_decide_eq_true heq] at hlt
          exact String.lt_irrefl q hlt
        simp [hq, hnone]
      · simp [hq]
  exact hfold other.entries other.sorted m

theorem mem_entries_iff {m : Metadata} {e : String × Value} :
    e ∈ m.entries ↔ m.get? e.1 = some e.2 := by
  constructor
  · intro h
    obtain ⟨before, after, heq⟩ := List.append_of_mem h
    have hsorted := m.sorted
    rw [heq] at hsorted
    have hnone : before.find? (fun d => d.1 = e.1) = none := by
      apply List.find?_eq_none.mpr
      intro d hd hname
      have hlt := (List.pairwise_append.mp hsorted).2.2 d hd e List.mem_cons_self
      rw [of_decide_eq_true hname] at hlt
      exact String.lt_irrefl _ hlt
    simp [get?, heq, hnone]
  · intro h
    obtain ⟨d, hd, heq⟩ := Option.map_eq_some_iff.mp h
    have hname := List.find?_some hd
    rw [decide_eq_true_eq] at hname
    have hmem := List.mem_of_find?_eq_some hd
    rwa [Prod.ext hname heq] at hmem

theorem ext_get? {m n : Metadata} (h : ∀ q, m.get? q = n.get? q) : m = n := by
  have hnodup : ∀ m : Metadata, m.entries.Nodup := by
    intro m
    refine m.sorted.imp ?_
    rintro d e hlt rfl
    exact String.lt_irrefl _ hlt
  have hperm : m.entries.Perm n.entries := by
    refine (List.perm_ext_iff_of_nodup (hnodup m) (hnodup n)).mpr ?_
    intro e
    rw [mem_entries_iff, mem_entries_iff, h]
  apply ext_entries
  refine hperm.eq_of_pairwise ?_ m.sorted n.sorted
  intro d e _ _ hlt hgt
  exact absurd hgt (String.lt_asymm hlt)

theorem merge_assoc (m n o : Metadata) : (m.merge n).merge o = m.merge (n.merge o) := by
  apply ext_get?
  intro q
  simp only [get?_merge, Option.or_assoc]

end Conform.Metadata
