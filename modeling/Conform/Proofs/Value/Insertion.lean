import Conform.Proofs.Value.Hash
import Mathlib.Data.List.Induction

/-!
What a hash holds after pairs were inserted one after another: under each key the value that was
last inserted under an equal one.
-/

namespace Conform.Entries

open Value

variable {pairs : Entries} {key : Value}

/-- The last of some pairs to be inserted under a key that is equal to this one. -/
def Latest (pairs : Entries) (key : Value) (e : Value × Value) : Prop :=
  ∃ before after, pairs = before ++ e :: after ∧ (e.1 == key) = true ∧
    ∀ d ∈ after, (d.1 == key) = false

theorem latest_iff {e : Value × Value} :
    Latest pairs key e ↔ pairs.reverse.find? (fun d => d.1 == key) = some e := by
  rw [List.find?_eq_some_iff_append]
  constructor
  · rintro ⟨before, after, rfl, he, hafter⟩
    refine ⟨he, after.reverse, before.reverse, by simp, fun d hd => ?_⟩
    rw [hafter d (List.mem_reverse.mp hd), Bool.not_false]
  · rintro ⟨he, after, before, hsplit, hafter⟩
    refine ⟨before.reverse, after.reverse, ?_, he, fun d hd => ?_⟩
    · rw [← List.reverse_reverse pairs, hsplit]
      simp
    · simpa using hafter d (List.mem_reverse.mp hd)

theorem ofPairs_concat (pairs : Entries) (e : Value × Value) :
    ofPairs (pairs ++ [e]) = (ofPairs pairs).insert e.1 e.2 := by
  rw [ofPairs, List.foldl_concat, ofPairs]

/-- Keys that are equal share one entry. -/
theorem distinct_ofPairs (pairs : Entries) : (ofPairs pairs).Distinct := by
  induction pairs using List.reverseRecOn with
  | nil => exact .nil
  | append_singleton pairs e ih =>
    rw [ofPairs_concat]
    exact ih.insert e.1 e.2

/-- What was inserted last is found first. -/
theorem get?_ofPairs (pairs : Entries) (key : Value) :
    (ofPairs pairs).get? key = get? pairs.reverse key := by
  induction pairs using List.reverseRecOn with
  | nil => rfl
  | append_singleton pairs e ih =>
    rw [ofPairs_concat, get?_insert, ih, List.reverse_concat, get?_cons]

theorem get?_ofPairs_eq_some {value : Value} :
    (ofPairs pairs).get? key = some value ↔ ∃ k, Latest pairs key (k, value) := by
  rw [get?_ofPairs, get?, Option.map_eq_some_iff]
  constructor
  · rintro ⟨⟨k, v⟩, hfound, rfl⟩
    exact ⟨k, latest_iff.mpr hfound⟩
  · rintro ⟨k, hlatest⟩
    exact ⟨(k, value), latest_iff.mp hlatest, rfl⟩

theorem get?_ofPairs_eq_none :
    (ofPairs pairs).get? key = none ↔ ∀ e ∈ pairs, (e.1 == key) = false := by
  rw [get?_ofPairs, get?, Option.map_eq_none_iff, List.find?_eq_none]
  simp

/-- An inserted pair is in the hash or gave way to a later one. -/
theorem mem_of_mem_ofPairs {e : Value × Value} (h : e ∈ ofPairs pairs) : e ∈ pairs := by
  induction pairs using List.reverseRecOn with
  | nil => exact h
  | append_singleton pairs d ih =>
    rw [ofPairs_concat] at h
    rcases (mem_insert (distinct_ofPairs pairs)).mp h with rfl | ⟨hmem, -⟩
    · exact List.mem_append_right pairs List.mem_cons_self
    · exact List.mem_append_left [d] (ih hmem)

end Conform.Entries
