import Conform.Proofs.Run
import Conform.Proofs.Value.Entries

/-!
When hashes are equal: entry by entry, or by what they have under each key.
-/

namespace Conform

namespace Value

/-- Only undefined is equal to undefined. -/
theorem isUndefined_of_beq {v u : Value} (h : (v == u) = true) (hu : u.isUndefined = false) :
    v.isUndefined = false := by
  cases v with
  | undefined =>
    cases u with
    | undefined => exact hu
    | _ => exact Bool.noConfusion h
  | _ => rfl

end Value

namespace Entries

open Value

variable {es fs : Entries}

theorem hash_beq_of_perm (hp : es.Perm fs) : (Value.hash es == Value.hash fs) = true := by
  refine hash_beq_hash.mpr ⟨hp.length_eq, fun e he => ?_, fun e he => ?_⟩
  · exact ⟨e, hp.mem_iff.mp he, BEq.refl _, BEq.refl _⟩
  · exact ⟨e, hp.mem_iff.mpr he, BEq.refl _, BEq.refl _⟩

theorem hash_beq_of_forall₂ (h : List.Forall₂ SameEntry es fs) :
    (Value.hash es == Value.hash fs) = true := by
  refine hash_beq_hash.mpr ⟨h.length_eq, fun e he => ?_, fun f hf => ?_⟩
  · exact exists_mem_of_forall₂ h he
  · exact exists_mem_of_forall₂ h.flip hf

theorem Distinct.of_same (hd : fs.Distinct) (h : List.Forall₂ SameEntry es fs) : es.Distinct := by
  induction h with
  | nil => exact .nil
  | @cons e f es fs hef hrest ih =>
    obtain ⟨hf, hfs⟩ := List.pairwise_cons.mp hd
    refine List.pairwise_cons.mpr ⟨fun e' he' => ?_, ih hfs⟩
    obtain ⟨f', hf', hef'⟩ := exists_mem_of_forall₂ hrest he'
    rw [BEq.congr_left hef.1, BEq.congr_right hef'.1, hf f' hf']

/-- Entries of different keys have partners of their own among others if each of them has one. -/
theorem Distinct.exists_partners {R : Value × Value → Value × Value → Prop}
    (hR : ∀ {e f}, R e f → (e.1 == f.1) = true) (hd : es.Distinct)
    (h : ∀ e ∈ es, ∃ f ∈ fs, R e f) :
    ∃ partners rest, List.Forall₂ R es partners ∧ fs.Perm (partners ++ rest) := by
  induction es generalizing fs with
  | nil => exact ⟨[], fs, .nil, .refl fs⟩
  | cons e es ih =>
    obtain ⟨he, hes⟩ := List.pairwise_cons.mp hd
    obtain ⟨⟨f, hf, hef⟩, hrest⟩ := List.forall_mem_cons.mp h
    obtain ⟨before, after, rfl⟩ := List.append_of_mem hf
    have hothers : ∀ d ∈ es, ∃ g ∈ before ++ after, R d g := by
      intro d hdes
      obtain ⟨g, hg, hdg⟩ := hrest d hdes
      refine ⟨g, ?_, hdg⟩
      rw [List.mem_append, List.mem_cons] at hg
      rcases hg with hg | rfl | hg
      · exact List.mem_append_left after hg
      · -- No other key is equal to this one.
        have hde : (e.1 == d.1) = true := BEq.trans (hR hef) (BEq.symm (hR hdg))
        rw [he d hdes] at hde
        cases hde
      · exact List.mem_append_right before hg
    obtain ⟨partners, rest, hpartners, hperm⟩ := ih hes hothers
    exact ⟨f :: partners, rest, .cons hef hpartners, List.perm_middle.trans (hperm.cons f)⟩

/-- Different keys that are all among others are not more than those. -/
theorem Distinct.length_le (hd : es.Distinct) (h : ∀ e ∈ es, ∃ f ∈ fs, (e.1 == f.1) = true) :
    es.length ≤ fs.length := by
  obtain ⟨partners, rest, hpartners, hperm⟩ := hd.exists_partners (fun hef => hef) h
  rw [hperm.length_eq, List.length_append, hpartners.length_eq]
  exact Nat.le_add_right _ _

/-- Entries of different keys that are all among as many others are those others in some order. -/
theorem Distinct.exists_reordered (hd : es.Distinct) (hlen : es.length = fs.length)
    (h : ∀ e ∈ es, ∃ f ∈ fs, SameEntry e f) :
    ∃ reordered, List.Forall₂ SameEntry es reordered ∧ fs.Perm reordered := by
  obtain ⟨reordered, rest, hsame, hperm⟩ := hd.exists_partners And.left h
  have hrest : rest = [] := by
    have htotal := hperm.length_eq
    rw [List.length_append, ← hsame.length_eq, hlen] at htotal
    exact List.length_eq_zero_iff.mp (by omega)
  subst hrest
  exact ⟨reordered, hsame, by rwa [List.append_nil] at hperm⟩

/-- Hashes are equal when one has as many entries as the other, and each key of it has an equal
value in the other. -/
theorem hash_beq_iff_get? (hes : es.Distinct) (hfs : fs.Distinct) :
    (Value.hash es == Value.hash fs) = true ↔ es.length = fs.length ∧
      ∀ e ∈ es, ∃ v, fs.get? e.1 = some v ∧ (e.2 == v) = true := by
  rw [hash_beq_hash]
  refine and_congr_right fun hlen => ⟨fun h e he => ?_, fun h => ?_⟩
  · obtain ⟨f, hf, hkey, hvalue⟩ := h.1 e he
    exact ⟨f.2, hfs.get?_eq_some.mpr ⟨f, hf, BEq.symm hkey, rfl⟩, hvalue⟩
  · have hamong : ∀ e ∈ es, ∃ f ∈ fs, SameEntry e f := by
      intro e he
      obtain ⟨v, hv, hvalue⟩ := h e he
      obtain ⟨f, hf, hkey, rfl⟩ := hfs.get?_eq_some.mp hv
      exact ⟨f, hf, BEq.symm hkey, hvalue⟩
    obtain ⟨reordered, hsame, hperm⟩ := hes.exists_reordered hlen hamong
    have hbeq := BEq.trans (hash_beq_of_forall₂ hsame) (hash_beq_of_perm hperm.symm)
    exact (hash_beq_hash.mp hbeq).2

/-- Different keys that have values among other entries are not more than those. -/
theorem Distinct.length_le_of_get? (hes : es.Distinct) (hfs : fs.Distinct)
    (h : ∀ e ∈ es, ∃ v, fs.get? e.1 = some v) : es.length ≤ fs.length := by
  refine hes.length_le fun e he => ?_
  obtain ⟨v, hv⟩ := h e he
  obtain ⟨f, hf, hkey, -⟩ := hfs.get?_eq_some.mp hv
  exact ⟨f, hf, BEq.symm hkey⟩

/-- Hashes are equal that have equal values under each other's keys. -/
theorem hash_beq_of_get? (hes : es.Distinct) (hfs : fs.Distinct)
    (h : ∀ e ∈ es, ∃ v, fs.get? e.1 = some v ∧ (e.2 == v) = true)
    (h' : ∀ f ∈ fs, ∃ v, es.get? f.1 = some v ∧ (v == f.2) = true) :
    (Value.hash es == Value.hash fs) = true := by
  have hle : es.length ≤ fs.length :=
    hes.length_le_of_get? hfs fun e he => (h e he).imp fun _ => And.left
  have hge : fs.length ≤ es.length :=
    hfs.length_le_of_get? hes fun f hf => (h' f hf).imp fun _ => And.left
  exact (hash_beq_iff_get? hes hfs).mpr ⟨Nat.le_antisymm hle hge, h⟩

end Entries

end Conform
