import Conform.Proofs.Schema.Keys
import Conform.Proofs.Ty.Induction
import Conform.Ty.Build

namespace Conform.Ty

/-- What the builders see to: nothing is left to remove in a lax type, and a schema has each name
once. -/
def RegularNode : Ty → Prop
  | lax inner => inner.strip = inner
  | schema s => Schema.NamesDiffer s.keys
  | _ => True

abbrev Regular (ty : Ty) : Prop :=
  ty.Everywhere RegularNode

theorem regular_schema_iff {s : Schema Ty Func} :
    (schema s).Regular ↔ Schema.NamesDiffer s.keys ∧ ∀ k ∈ s.keys, k.type.Regular := by
  rw [Regular, Everywhere, keysEverywhere_iff]
  exact Iff.rfl

theorem namesDiffer_stripKeys {keys : List (Key Ty)} (h : Schema.NamesDiffer keys) :
    Schema.NamesDiffer (stripKeys keys) := by
  rw [stripKeys_eq_map]
  exact (Schema.namesDiffer_map strip).mpr h

theorem Regular.strip {ty : Ty} (h : ty.Regular) : ty.strip.Regular := by
  induction ty with
  | schema s ih =>
    rw [regular_schema_iff] at h
    rw [Ty.strip, regular_schema_iff]
    refine ⟨namesDiffer_stripKeys h.1, ?_⟩
    simp only [stripKeys_eq_map, List.forall_mem_map]
    exact fun k hk => ih k hk (h.2 k hk)
  | _ => simp_all [Everywhere, RegularNode, Ty.strip]

/-- Constraints are removed at once. -/
theorem Regular.strip_strip {ty : Ty} (h : ty.Regular) : ty.strip.strip = ty.strip := by
  induction ty with
  | schema s ih =>
    rw [regular_schema_iff] at h
    simp only [Ty.strip, stripKeys_eq_map, List.map_map, Function.comp_def]
    congr 2
    exact List.map_congr_left fun k hk => by rw [ih k hk (h.2 k hk)]
  | _ => simp_all [Everywhere, RegularNode, Ty.strip]

/-- Declared keys keep those that were there before regular. -/
theorem regular_merge {s : Schema Ty Func} {keys : List (Key Ty)} (hs : (schema s).Regular)
    (hk : ∀ k ∈ keys, k.type.Regular) : (schema (s.merge keys)).Regular := by
  rw [regular_schema_iff] at hs ⊢
  refine ⟨Schema.namesDiffer_merge hs.1 keys, fun k hmem => ?_⟩
  rcases Schema.mem_foldl_putKey hmem with hmem | hmem
  · exact hs.2 k hmem
  · exact hk k hmem

theorem regular_ofKeys (keys : List (Key Ty)) (hk : ∀ k ∈ keys, k.type.Regular) :
    (schema (.ofKeys keys)).Regular :=
  regular_merge (regular_schema_iff.mpr ⟨List.Pairwise.nil, by simp⟩) hk

end Conform.Ty
