import Conform.Proofs.Value.Entries

namespace Conform.Schema

/-- A name that no declared key has. -/
def Undeclared {τ φ : Type} (s : Schema τ φ) (q : Value) : Prop :=
  ∀ k ∈ s.keys, (k.name == q) = false

/-- The names are those of all undeclared keys, each once and by their texts. -/
structure ListsUndeclared {τ φ : Type} (s : Schema τ φ) (present : Entries) (names : List Value) :
    Prop where
  mem_iff : ∀ q, q ∈ names ↔ ∃ p ∈ present, p.1 = q ∧ s.Undeclared q
  distinct : names.Pairwise fun a b => (a == b) = false
  sorted : names.Pairwise fun a b => a.debug ≤ b.debug

section

variable {τ φ : Type} {s : Schema τ φ} {order : Iteration} {present : Entries}

theorem key?_isNone_iff {q : Value} : (s.key? q).isNone = true ↔ s.Undeclared q := by
  simp [key?, Undeclared]

theorem mem_unknown_iff {p : Value × Value} :
    p ∈ s.unknown order present ↔ p ∈ present ∧ s.Undeclared p.1 := by
  unfold unknown
  rw [(Entries.sorted_perm _).mem_iff, List.mem_filter, key?_isNone_iff, (order.perm _).mem_iff]

theorem unknown_listsUndeclared (hd : present.Distinct) :
    s.ListsUndeclared present ((s.unknown order present).map Prod.fst) where
  mem_iff := by
    intro q
    rw [List.mem_map]
    constructor
    · rintro ⟨p, hp, rfl⟩
      obtain ⟨hp, hu⟩ := mem_unknown_iff.mp hp
      exact ⟨p, hp, rfl, hu⟩
    · rintro ⟨p, hp, rfl, hu⟩
      exact ⟨p, mem_unknown_iff.mpr ⟨hp, hu⟩, rfl⟩
  distinct := by
    have hsymm : ∀ {a b : Value × Value}, (a.1 == b.1) = false → (b.1 == a.1) = false :=
      fun hab => by rwa [BEq.comm]
    rw [List.pairwise_map]
    exact ((Entries.sorted_perm _).pairwise_iff hsymm).mpr
      ((hd.perm (order.perm present).symm).filter _)
  sorted := List.pairwise_map.mpr (Entries.sorted_pairwise _)

/-- The undeclared keys that a strict schema refuses, one by one. -/
def refusals (s : Schema τ φ) (order : Iteration) (present : Entries) : List (Value × Outcome) :=
  if s.strict then
    (s.unknown order present).map fun e => (e.1, .refused e.2 "is not allowed")
  else []

theorem isSuccess_of_mem_refusals {r : Value × Outcome} (h : r ∈ s.refusals order present) :
    r.2.isSuccess = false := by
  unfold refusals at h
  split at h
  next =>
    obtain ⟨e, -, rfl⟩ := List.mem_map.mp h
    rfl
  next => cases h

theorem undeclared_of_mem_refusals {r : Value × Outcome} (h : r ∈ s.refusals order present) :
    s.Undeclared r.1 := by
  unfold refusals at h
  split at h
  next =>
    obtain ⟨e, he, rfl⟩ := List.mem_map.mp h
    exact (mem_unknown_iff.mp he).2
  next => cases h

theorem map_fst_refusals (h : s.strict = true) :
    (s.refusals order present).map Prod.fst = (s.unknown order present).map Prod.fst := by
  simp [refusals, h]

theorem unknown_isEmpty_iff :
    (s.unknown order present).isEmpty = true ↔ ¬∃ p ∈ present, s.Undeclared p.1 := by
  rw [List.isEmpty_iff, List.eq_nil_iff_forall_not_mem]
  simp only [mem_unknown_iff, not_exists]

theorem refusals_eq_nil_iff :
    s.refusals order present = [] ↔ ¬(s.strict = true ∧ ∃ p ∈ present, s.Undeclared p.1) := by
  unfold refusals
  cases s.strict with
  | false => simp
  | true =>
    rw [if_pos rfl, List.map_eq_nil_iff, ← List.isEmpty_iff, unknown_isEmpty_iff]
    simp only [true_and]

end

theorem attempt_hash {attempt : Ty → Value → Run Outcome} {order : Iteration}
    {s : Schema Ty Func} {options : ApplyOptions} {input present : Entries}
    (hp : s.present input = .ok present) :
    s.attempt order attempt options (.hash input) = (do
      let results ← attemptKeys attempt (s.supply options present) s.keys
      return outcome (outputs results) (results ++ s.refusals order present)) := by
  simp only [Schema.attempt, hp]
  rfl

end Conform.Schema
