import Conform.Ty.Strip

namespace Conform

namespace Ty

/-- Induction with the hypothesis for the type of every key of a schema. -/
@[elab_as_elim, induction_eliminator]
theorem induction {motive : Ty → Prop} (nominal : ∀ p info, motive (nominal p info))
    (constrained : ∀ inner rule set, motive inner → motive (constrained inner rule set))
    (converted : ∀ inner functions, motive inner → motive (converted inner functions))
    (sum : ∀ left right info, motive left → motive right → motive (sum left right info))
    (defaulted : ∀ inner value, motive inner → motive (defaulted inner value))
    (enum : ∀ inner values, motive inner → motive (enum inner values))
    (array : ∀ member info, motive member → motive (array member info))
    (map : ∀ key value info, motive key → motive value → motive (map key value info))
    (schema : ∀ s : Schema Ty Func, (∀ k ∈ s.keys, motive k.type) → motive (schema s))
    (safe : ∀ inner, motive inner → motive (safe inner))
    (lax : ∀ inner, motive inner → motive (lax inner))
    (maybe : ∀ inner, motive inner → motive (maybe inner))
    (reference : ∀ r, motive (reference r)) (ty : Ty) : motive ty := by
  refine @Ty.rec motive (fun s => ∀ k ∈ s.keys, motive k.type)
    (fun keys => ∀ k ∈ keys, motive k.type) (fun k => motive k.type) nominal constrained converted
    sum defaulted enum array map schema safe lax maybe reference ?_ ?_ ?_ ?_ ty
  · exact fun _ _ _ _ _ hkeys => hkeys
  · simp
  · exact fun k ks hk hks => List.forall_mem_cons.mpr ⟨hk, hks⟩
  · exact fun _ _ _ htype => htype

end Ty

mutual

/-- A property holds of a type and of all types in it, at every depth. -/
def Ty.Everywhere (P : Ty → Prop) : Ty → Prop
  | .nominal p info => P (.nominal p info)
  | .constrained inner rule set => P (.constrained inner rule set) ∧ inner.Everywhere P
  | .converted inner functions => P (.converted inner functions) ∧ inner.Everywhere P
  | .sum left right info => P (.sum left right info) ∧ left.Everywhere P ∧ right.Everywhere P
  | .defaulted inner value => P (.defaulted inner value) ∧ inner.Everywhere P
  | .enum inner values => P (.enum inner values) ∧ inner.Everywhere P
  | .array member info => P (.array member info) ∧ member.Everywhere P
  | .map key value info => P (.map key value info) ∧ key.Everywhere P ∧ value.Everywhere P
  | .schema s => P (.schema s) ∧ keysEverywhere P s.keys
  | .safe inner => P (.safe inner) ∧ inner.Everywhere P
  | .lax inner => P (.lax inner) ∧ inner.Everywhere P
  | .maybe inner => P (.maybe inner) ∧ inner.Everywhere P
  | .reference r => P (.reference r)

def keysEverywhere (P : Ty → Prop) : List (Key Ty) → Prop
  | [] => True
  | k :: ks => k.type.Everywhere P ∧ keysEverywhere P ks

end

theorem keysEverywhere_iff {P : Ty → Prop} {keys : List (Key Ty)} :
    keysEverywhere P keys ↔ ∀ k ∈ keys, k.type.Everywhere P := by
  induction keys with
  | nil => simp [keysEverywhere]
  | cons k ks ih => rw [keysEverywhere, ih, List.forall_mem_cons]

theorem stripKeys_eq_map (keys : List (Key Ty)) :
    stripKeys keys = keys.map fun k => { k with type := k.type.strip } := by
  induction keys with
  | nil => rfl
  | cons k ks ih => rw [stripKeys, ih, List.map_cons]

end Conform
