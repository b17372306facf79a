import Conform.Proofs.Value.Equality
import Conform.Schema
import Mathlib.Data.List.Pairwise

namespace Conform.Schema

variable {τ φ : Type}

/-- No two of the keys have one name. -/
def NamesDiffer (keys : List (Key τ)) : Prop :=
  keys.Pairwise fun k l => (k.name == l.name) = false

/-- The names tell the keys apart. -/
theorem NamesDiffer.eq_of_name {keys : List (Key τ)} (h : NamesDiffer keys) {k l : Key τ}
    (hk : k ∈ keys) (hl : l ∈ keys) (hkl : (k.name == l.name) = true) : k = l := by
  have : Std.Symm fun k l : Key τ => (k.name == l.name) = false :=
    ⟨fun k l hkl => by rwa [BEq.comm]⟩
  by_contra hne
  rw [List.Pairwise.forall h hk hl hne] at hkl
  exact Bool.noConfusion hkl

theorem mem_putKey {key k : Key τ} {keys : List (Key τ)} (h : k ∈ putKey key keys) :
    k = key ∨ k ∈ keys := by
  induction keys with
  | nil => exact Or.inl (List.mem_singleton.mp h)
  | cons l ls ih =>
    unfold putKey at h
    split at h
    next => exact (List.mem_cons.mp h).imp_right (List.mem_cons_of_mem l)
    next =>
      rcases List.mem_cons.mp h with rfl | h
      · exact Or.inr List.mem_cons_self
      · exact (ih h).imp_right (List.mem_cons_of_mem l)

theorem NamesDiffer.putKey {keys : List (Key τ)} (h : NamesDiffer keys) (key : Key τ) :
    NamesDiffer (putKey key keys) := by
  induction keys with
  | nil => exact List.pairwise_singleton _ _
  | cons l ls ih =>
    obtain ⟨hl, hls⟩ := List.pairwise_cons.mp h
    unfold Schema.putKey
    split
    next heq =>
      refine List.pairwise_cons.mpr ⟨fun k hk => ?_, hls⟩
      rw [← hl k hk, BEq.congr_left heq]
    next hne =>
      refine List.pairwise_cons.mpr ⟨fun k hk => ?_, ih hls⟩
      rcases mem_putKey hk with rfl | hk
      · exact Bool.eq_false_iff.mpr hne
      · exact hl k hk

theorem namesDiffer_foldl_putKey {keys added : List (Key τ)} (h : NamesDiffer keys) :
    NamesDiffer (added.foldl (fun ks k => putKey k ks) keys) := by
  induction added generalizing keys with
  | nil => exact h
  | cons k ks ih => exact ih (h.putKey k)

theorem mem_foldl_putKey {keys added : List (Key τ)} {k : Key τ}
    (h : k ∈ added.foldl (fun ks k => putKey k ks) keys) : k ∈ keys ∨ k ∈ added := by
  induction added generalizing keys with
  | nil => exact Or.inl h
  | cons l ls ih =>
    rcases ih h with hk | hk
    · rcases mem_putKey hk with rfl | hk
      · exact Or.inr List.mem_cons_self
      · exact Or.inl hk
    · exact Or.inr (List.mem_cons_of_mem l hk)

/-- Declaring keys leaves each name to one of them. -/
theorem namesDiffer_merge {s : Schema τ φ} (h : NamesDiffer s.keys) (keys : List (Key τ)) :
    NamesDiffer (s.merge keys).keys :=
  namesDiffer_foldl_putKey h

theorem namesDiffer_ofKeys (keys : List (Key τ)) :
    NamesDiffer (ofKeys keys : Schema τ φ).keys :=
  namesDiffer_foldl_putKey List.Pairwise.nil

theorem namesDiffer_map {υ : Type} {keys : List (Key τ)} (f : τ → υ) :
    NamesDiffer (keys.map fun k => (⟨k.name, f k.type, k.required⟩ : Key υ)) ↔
      NamesDiffer keys :=
  List.pairwise_map

theorem putKey_eq_append {key : Key τ} {keys : List (Key τ)}
    (h : ∀ k ∈ keys, (k.name == key.name) = false) : putKey key keys = keys ++ [key] := by
  induction keys with
  | nil => rfl
  | cons k ks ih =>
    obtain ⟨hk, hks⟩ := List.forall_mem_cons.mp h
    simp only [putKey, hk, Bool.false_eq_true, ↓reduceIte, ih hks, List.cons_append]

/-- Keys of different names are declared as they stand. -/
theorem foldl_putKey_eq_append {keys added : List (Key τ)} (h : NamesDiffer (keys ++ added)) :
    added.foldl (fun ks k => putKey k ks) keys = keys ++ added := by
  induction added generalizing keys with
  | nil => simp
  | cons k ks ih =>
    have hk : ∀ l ∈ keys, (l.name == k.name) = false := fun l hl =>
      (List.pairwise_append.mp h).2.2 l hl k List.mem_cons_self
    rw [List.append_cons] at h
    rw [List.foldl_cons, putKey_eq_append hk, ih h, ← List.append_cons]

theorem ofKeys_keys {keys : List (Key τ)} (h : NamesDiffer keys) :
    (ofKeys keys : Schema τ φ).keys = keys :=
  foldl_putKey_eq_append h

end Conform.Schema
